/-!
# Labelled machines and their runs

A machine is a partial step function: `m s l` is the state after label `l`, or
`none` where `l` is not enabled. Interleavings of concurrent activities are runs
over labels that name the activity taking its next atomic step. `ok` restricts
the steps a run may take, so that one machine carries both the unrestricted
runs and those under the assumptions of a particular result.

A machine without labels is a plain partial step function; `Steps` counts its
steps and `halts_of_measure` is the termination rule.
-/

namespace Protoactor.Lib
set_option autoImplicit false

/-- A partial step function over labels. -/
abbrev Machine (S L : Type) := S → L → Option S

namespace Machine

variable {S L : Type} {m : Machine S L} {ok ok' : S → L → Prop} {s t : S} {ls ls' : List L}

/-- `Run m ok s ls t`: the labels `ls` lead from `s` to `t`, each step meeting `ok`. -/
inductive Run (m : Machine S L) (ok : S → L → Prop) : S → List L → S → Prop where
  | nil (s : S) : Run m ok s [] s
  | cons {s s' t : S} {l : L} {ls : List L} :
      m s l = some s' → ok s l → Run m ok s' ls t → Run m ok s (l :: ls) t

/-- Every step is allowed. -/
def free : S → L → Prop := fun _ _ => True

/-- `Inv` is kept by every allowed step. -/
def Keeps (m : Machine S L) (ok : S → L → Prop) (Inv : S → Prop) : Prop :=
  ∀ s l s', Inv s → ok s l → m s l = some s' → Inv s'

/-- **The invariant rule**: what every step keeps, every run keeps. -/
theorem Run.keeps {Inv : S → Prop} (keep : Keeps m ok Inv) (h : Run m ok s ls t) (start : Inv s) : Inv t := by
  induction h with
  | nil => exact start
  | cons step allowed _ ih => exact ih (keep _ _ _ start allowed step)

/-- An invariant may be proved using one that is already known. -/
theorem Keeps.with {Inv Inv' : S → Prop} (base : Keeps m ok Inv)
    (keep : ∀ s l s', Inv s → Inv' s → ok s l → m s l = some s' → Inv' s') :
    Keeps m ok fun s => Inv s ∧ Inv' s := fun s l s' hs allowed step =>
  ⟨base s l s' hs.1 allowed step, keep s l s' hs.1 hs.2 allowed step⟩

theorem Keeps.mono {Inv : S → Prop} (weaker : ∀ s l, ok s l → ok' s l) (keep : Keeps m ok' Inv) :
    Keeps m ok Inv := fun s l s' hs allowed step => keep s l s' hs (weaker s l allowed) step

/-- A run under assumptions is one under weaker assumptions. -/
theorem Run.mono (weaker : ∀ s l, ok s l → ok' s l) (h : Run m ok s ls t) : Run m ok' s ls t := by
  induction h with
  | nil => exact .nil _
  | cons step allowed _ ih => exact .cons step (weaker _ _ allowed) ih

/-- A run whose labels are of a kind. -/
theorem Run.labelled {good : L → Prop} (h : Run m ok s ls t) (all : ∀ l ∈ ls, good l) : Run m (fun _ l => good l) s ls t := by
  induction h with
  | nil => exact .nil _
  | cons step _ _ ih => exact .cons step (all _ List.mem_cons_self) (ih fun l member => all l (List.mem_cons_of_mem _ member))

/-- One run after another. -/
theorem Run.append {u : S} (h : Run m ok s ls t) (h' : Run m ok t ls' u) : Run m ok s (ls ++ ls') u := by
  induction h with
  | nil => exact h'
  | cons step allowed _ ih => exact .cons step allowed (ih h')

/-- The labels determine where a run leads. -/
theorem Run.unique {u : S} (h : Run m ok s ls t) (h' : Run m ok s ls u) : t = u := by
  induction h with
  | nil => cases h'; rfl
  | cons step _ _ ih =>
    cases h' with
    | cons step' _ rest =>
      rw [step] at step'
      cases step'
      exact ih rest

/-- **What has come about** was brought about by a step. -/
theorem Run.becomes {P : S → Prop} (h : Run m ok s ls t) (before : ¬P s) (after : P t) :
    ∃ first l rest u v, ls = first ++ l :: rest ∧ Run m ok s first u ∧ m u l = some v ∧ Run m ok v rest t ∧ ¬P u ∧ P v := by
  induction h with
  | nil => exact absurd after before
  | @cons s s' t l ls step allowed run ih =>
    by_cases already : P s'
    · exact ⟨[], l, ls, s, s', rfl, .nil s, step, run, before, already⟩
    · obtain ⟨first, l', rest, u, v, rfl, start, taken, finish, without, with_⟩ := ih already after
      exact ⟨l :: first, l', rest, u, v, rfl, .cons step allowed start, taken, finish, without, with_⟩

/-- A run through a step, taken apart. -/
theorem Run.split {l : L} (h : Run m ok s (ls ++ l :: ls') t) :
    ∃ u v, Run m ok s ls u ∧ m u l = some v ∧ Run m ok v ls' t := by
  induction ls generalizing s with
  | nil =>
    cases h with
    | cons step _ rest => exact ⟨s, _, .nil s, step, rest⟩
  | cons first ls ih =>
    cases h with
    | cons step allowed rest =>
      obtain ⟨u, v, start, taken, finish⟩ := ih rest
      exact ⟨u, v, .cons step allowed start, taken, finish⟩

/-- Execute a list of labels. -/
def exec (m : Machine S L) : List L → S → Option S
  | [], s => some s
  | l :: ls, s => (m s l).bind (exec m ls)

@[simp] theorem exec_nil (s : S) : exec m [] s = some s := rfl

theorem exec_cons {l : L} {s' : S} (step : m s l = some s') : exec m (l :: ls) s = exec m ls s' := by
  simp only [exec, step, Option.bind_some]

theorem exec_append (h : exec m ls s = some t) : exec m (ls ++ ls') s = exec m ls' t := by
  induction ls generalizing s with
  | nil => cases h; rfl
  | cons l ls ih =>
    obtain ⟨s', step, rest⟩ := Option.bind_eq_some_iff.1 h
    rw [List.cons_append, exec_cons step, ih rest]

/-- An execution whose labels are all allowed is a run. -/
theorem run_of_exec {good : L → Prop} (h : exec m ls s = some t) (allowed : ∀ l ∈ ls, good l) :
    Run m (fun _ l => good l) s ls t := by
  induction ls generalizing s with
  | nil => cases h; exact .nil _
  | cons l ls ih =>
    obtain ⟨s', step, rest⟩ := Option.bind_eq_some_iff.1 h
    exact .cons step (allowed l List.mem_cons_self) (ih rest fun l' h' => allowed l' (List.mem_cons_of_mem _ h'))

theorem free_of_exec (h : exec m ls s = some t) : Run m free s ls t := by
  have run : Run m (fun _ l => (fun _ : L => True) l) s ls t := run_of_exec h fun _ _ => True.intro
  exact run

/-- An execution that passes a test at its end. -/
theorem run_of_any {p : S → Bool} (h : (exec m ls s).any p = true) : ∃ t, Run m free s ls t ∧ p t = true := by
  cases reached : exec m ls s with
  | none => rw [reached] at h; cases h
  | some t =>
    rw [reached] at h
    exact ⟨t, free_of_exec reached, h⟩

/-- Execute a list of labels, each of which has to pass a check. -/
def execChecked (m : Machine S L) (check : S → L → Bool) : List L → S → Option S
  | [], s => some s
  | l :: ls, s => if check s l then (m s l).bind (execChecked m check ls) else none

theorem run_of_execChecked {check : S → L → Bool} (h : execChecked m check ls s = some t) :
    Run m (fun s l => check s l = true) s ls t := by
  induction ls generalizing s with
  | nil => cases h; exact .nil _
  | cons l ls ih =>
    simp only [execChecked] at h
    split at h
    · rename_i passed
      obtain ⟨s', step, rest⟩ := Option.bind_eq_some_iff.1 h
      exact .cons step passed (ih rest)
    · cases h

/-- The same for an execution that passes a test at its end. -/
theorem checked_of_any {check : S → L → Bool} {p : S → Bool} (h : (execChecked m check ls s).any p = true) :
    ∃ t, Run m (fun s l => check s l = true) s ls t ∧ p t = true := by
  cases reached : execChecked m check ls s with
  | none => rw [reached] at h; cases h
  | some t =>
    rw [reached] at h
    exact ⟨t, run_of_execChecked reached, h⟩

end Machine

/-! ## Machines without labels -/

section Deterministic

variable {S : Type} {step : S → Option S}

/-- `Steps step n s t`: exactly `n` steps lead from `s` to `t`. -/
inductive Steps (step : S → Option S) : Nat → S → S → Prop where
  | zero (s : S) : Steps step 0 s s
  | snoc {n : Nat} {s t u : S} : Steps step n s t → step t = some u → Steps step (n + 1) s u

/-- What every step keeps holds after any number of steps. -/
theorem Steps.keeps {Inv : S → Prop} (keep : ∀ s s', Inv s → step s = some s' → Inv s') {n : Nat} {s t : S}
    (h : Steps step n s t) (start : Inv s) : Inv t := by
  induction h with
  | zero => exact start
  | snoc _ last ih => exact keep _ _ (ih start) last

/-- **The termination rule**: if every step of an invariant state lowers a
natural number, the machine stops, in an invariant state. -/
theorem halts_of_measure {s : S} (rank : S → Nat)
    (lower : ∀ n t u, Steps step n s t → step t = some u → rank u < rank t) :
    ∃ n t, Steps step n s t ∧ step t = none := by
  have search : ∀ k n t, rank t ≤ k → Steps step n s t → ∃ n t, Steps step n s t ∧ step t = none := by
    intro k
    induction k with
    | zero =>
      intro n t bound run
      cases last : step t with
      | none => exact ⟨n, t, run, last⟩
      | some u => exact absurd (lower n t u run last) (by omega)
    | succ k ih =>
      intro n t bound run
      cases last : step t with
      | none => exact ⟨n, t, run, last⟩
      | some u =>
        have less := lower n t u run last
        exact ih (n + 1) u (by omega) (run.snoc last)
  exact search (rank s) 0 s (Nat.le_refl _) (.zero s)

/-- Steps can be read from the front as well. -/
theorem Steps.head {n : Nat} {s t : S} (h : Steps step n s t) :
    t = s ∨ ∃ s' k, step s = some s' ∧ Steps step k s' t := by
  induction h with
  | zero => exact .inl rfl
  | snoc _ last ih =>
    rcases ih with rfl | ⟨s', k, first, later⟩
    · exact .inr ⟨_, 0, last, .zero _⟩
    · exact .inr ⟨s', k + 1, first, later.snoc last⟩

/-- A step in front of a run. -/
theorem Steps.cons {n : Nat} {s s' t : S} (first : step s = some s') (h : Steps step n s' t) :
    Steps step (n + 1) s t := by
  induction h with
  | zero => exact (Steps.zero s).snoc first
  | snoc _ last ih => exact (ih first).snoc last

theorem Steps.append {n k : Nat} {s t u : S} (h : Steps step n s t) (h' : Steps step k t u) :
    Steps step (n + k) s u := by
  induction h' with
  | zero => exact h
  | snoc _ last ih => exact (ih h).snoc last

/-- The front step of a run that has one. -/
theorem Steps.uncons {n : Nat} {s t : S} (h : Steps step (n + 1) s t) : ∃ s', step s = some s' ∧ Steps step n s' t := by
  induction n generalizing t with
  | zero =>
    cases h with
    | snoc h last =>
      cases h
      exact ⟨t, last, .zero t⟩
  | succ n ih =>
    cases h with
    | snoc h last =>
      obtain ⟨s', first, later⟩ := ih h
      exact ⟨s', first, later.snoc last⟩

/-- Of two runs from one state the longer one goes on where the shorter one ends. -/
theorem Steps.continues {n k : Nat} {s t u : S} (h : Steps step n s t) (h' : Steps step k s u) (shorter : n ≤ k) :
    Steps step (k - n) t u := by
  induction h with
  | zero => exact h'
  | @snoc n s t t' h last ih =>
    have longer : k - n = k - (n + 1) + 1 := by omega
    have rest := ih h' (by omega)
    rw [longer] at rest
    obtain ⟨t'', first, later⟩ := rest.uncons
    rw [last] at first
    cases first
    exact later

/-- A stopped machine stays where it is. -/
theorem Steps.of_stopped {n : Nat} {s t : S} (h : Steps step n s t) (stopped : step s = none) : t = s := by
  cases n with
  | zero => cases h; rfl
  | succ n =>
    obtain ⟨s', first, -⟩ := h.uncons
    rw [stopped] at first
    cases first

/-- Every state on the way leads to the end. -/
theorem Steps.reach_stop {n k : Nat} {s t u : S} (h : Steps step n s t) (h' : Steps step k s u) (last : step u = none) :
    ∃ j, Steps step j t u := by
  rcases Nat.le_total n k with shorter | shorter
  · exact ⟨k - n, h.continues h' shorter⟩
  · have same := (h'.continues h shorter).of_stopped last
    subst same
    exact ⟨0, .zero t⟩

/-- A machine that stops does so in one state. -/
theorem Steps.stop_unique {n k : Nat} {s t u : S} (h : Steps step n s t) (h' : Steps step k s u)
    (last : step t = none) (last' : step u = none) : t = u := by
  obtain ⟨j, rest⟩ := h.reach_stop h' last'
  exact (rest.of_stopped last).symm

/-- Follow a machine to its end, checking every state on the way. -/
def checkRun (step : S → Option S) (check : S → Bool) : Nat → S → Bool
  | 0, _ => false
  | fuel + 1, s => check s && match step s with
    | none => true
    | some s' => checkRun step check fuel s'

/-- What is checked all along a run holds after any number of steps. -/
theorem Steps.of_checkRun {check : S → Bool} {fuel n : Nat} {s t : S} (passed : checkRun step check fuel s = true)
    (h : Steps step n s t) : check t = true := by
  induction fuel generalizing n s with
  | zero => cases passed
  | succ fuel ih =>
    simp only [checkRun, Bool.and_eq_true] at passed
    obtain ⟨here, later⟩ := passed
    rcases h.head with rfl | ⟨s', k, first, rest⟩
    · exact here
    · rw [first] at later
      exact ih later rest

end Deterministic

end Protoactor.Lib
