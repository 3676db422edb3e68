import Protoactor.Lib.Machine

/-!
# Machines that cannot be told apart

Two machines over the same labels, some of which are visible. `Matches` says that every run of
the first is a run of the second to whoever sees the visible labels and an observation of the
state reached. A step is answered by any number of steps (`Answers`); a relation whose steps are
all answered matches the runs (`Answers.run`).

Where the second machine does the same in more steps, it may have to catch up first: a rank that
its own steps lower bounds how long that takes (`answers_of_catchUp`).
-/

namespace Protoactor.Lib.Machine
set_option autoImplicit false

variable {S T L O : Type} {m : Machine S L} {n : Machine T L} {visible : L → Bool} {R : S → T → Prop}

/-- Every run of `m` from `s` looks like a run of `n` from `t`. -/
def Matches (m : Machine S L) (s : S) (n : Machine T L) (t : T) (visible : L → Bool) (observe : S → O)
    (observe' : T → O) : Prop :=
  ∀ ls s', Run m free s ls s' →
    ∃ ls' t', Run n free t ls' t' ∧ ls'.filter visible = ls.filter visible ∧ observe' t' = observe s'

/-- A step of `m` from related states is answered by steps of `n` with the same visible labels. -/
def Answers (m : Machine S L) (n : Machine T L) (visible : L → Bool) (R : S → T → Prop) : Prop :=
  ∀ s t l s', R s t → m s l = some s' →
    ∃ ls t', Run n free t ls t' ∧ ls.filter visible = [l].filter visible ∧ R s' t'

/-- **The simulation rule**: where steps are answered, runs are. -/
theorem Answers.run (answers : Answers m n visible R) {s s' : S} {t : T} {ls : List L} (h : Run m free s ls s')
    (related : R s t) : ∃ ls' t', Run n free t ls' t' ∧ ls'.filter visible = ls.filter visible ∧ R s' t' := by
  induction h generalizing t with
  | nil => exact ⟨[], t, .nil t, rfl, related⟩
  | cons step _ _ ih =>
    obtain ⟨first, t₁, run, same, related₁⟩ := answers _ _ _ _ related step
    obtain ⟨later, t', run', same', related'⟩ := ih related₁
    refine ⟨first ++ later, t', run.append run', ?_, related'⟩
    rw [List.filter_append, same, same', ← List.filter_append, List.singleton_append]

/-- Related states look alike, perhaps after some more steps that nobody sees. -/
theorem Answers.matches {observe : S → O} {observe' : T → O} (answers : Answers m n visible R) {s : S} {t : T}
    (related : R s t)
    (alike : ∀ s t, R s t → ∃ ls t', Run n free t ls t' ∧ ls.filter visible = [] ∧ observe' t' = observe s) :
    Matches m s n t visible observe observe' := by
  intro ls s' h
  obtain ⟨first, t₁, run, same, related₁⟩ := answers.run h related
  obtain ⟨later, t', run', hidden, seen⟩ := alike _ _ related₁
  refine ⟨first ++ later, t', run.append run', ?_, seen⟩
  rw [List.filter_append, same, hidden, List.append_nil]

/-- The finer machine either answers at once or takes a hidden step that lowers the rank and
keeps the states related. -/
theorem answers_of_catchUp (rank : T → Nat)
    (catchUp : ∀ s t l s', R s t → m s l = some s' →
      (∃ t', n t l = some t' ∧ R s' t') ∨
        ∃ own t', visible own = false ∧ n t own = some t' ∧ R s t' ∧ rank t' < rank t) : Answers m n visible R := by
  intro s t l s' related step
  induction bound : rank t using Nat.strongRecOn generalizing t with
  | ind r ih =>
    rcases catchUp s t l s' related step with ⟨t', here, related'⟩ | ⟨own, t₁, hidden, here, related₁, lower⟩
    · exact ⟨[l], t', .cons here trivial (.nil t'), rfl, related'⟩
    · obtain ⟨later, t', run, same, related'⟩ := ih (rank t₁) (by omega) t₁ related₁ rfl
      refine ⟨own :: later, t', .cons here trivial run, ?_, related'⟩
      rw [List.filter_cons_of_neg (by simp [hidden]), same]

/-! ## A part of a machine -/

/-- **The projection rule**: where each step, seen on a part of the state, is a run of the machine
of that part, runs are. -/
theorem Run.project {S T L L' : Type} {m : Machine S L} {n : Machine T L'} {ok : S → L → Prop} {ok' : T → L' → Prop} {Inv : S → Prop}
    (keep : Keeps m ok Inv) (view : S → T)
    (each : ∀ s l s', Inv s → ok s l → m s l = some s' → ∃ ls, Run n ok' (view s) ls (view s'))
    {s t : S} {ls : List L} (h : Run m ok s ls t) (start : Inv s) : ∃ ls', Run n ok' (view s) ls' (view t) := by
  induction h with
  | nil => exact ⟨[], .nil _⟩
  | cons step allowed _ ih =>
    obtain ⟨first, one⟩ := each _ _ _ start allowed step
    obtain ⟨later, rest⟩ := ih (keep _ _ _ start allowed step)
    exact ⟨first ++ later, one.append rest⟩

end Protoactor.Lib.Machine
