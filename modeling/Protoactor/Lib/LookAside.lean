import Protoactor.Lib.Machine

/-!
# Caches that are looked up, computed and stored

Any number of parties share one entry of a cache. Each looks it up, computes the value where it is
missing, and stores what it has computed; nothing keeps two of them from computing at once. The entry
may also be filled with a value that nobody has computed. How often the value is computed is bounded
by how many parties are under way at once and by how often the entry is evicted (`computed_le`), and
once it is stored only those that have missed it before compute it again (`late_computed`).
-/

namespace Protoactor.Lib
set_option autoImplicit false

/-- The counts of one entry. -/
structure LookAside where
  stored : Bool
  /-- the parties that have missed the entry and not computed it -/
  computing : Nat
  /-- the parties that have computed it and not stored it -/
  storing : Nat
  computed : Nat
  evicted : Nat
  deriving DecidableEq, Repr

namespace LookAside

def start : LookAside := ⟨false, 0, 0, 0, 0⟩

inductive Event where
  | miss
  /-- nothing comes of the computation -/
  | fail
  | compute
  | store
  /-- a value comes from elsewhere -/
  | fill
  | evict
  deriving DecidableEq, Repr

def step : Machine LookAside Event := fun s e =>
  match e with
  | .miss => if s.stored then none else some { s with computing := s.computing + 1 }
  | .fail =>
    match s.computing with
    | 0 => none
    | n + 1 => some { s with computing := n }
  | .compute =>
    match s.computing with
    | 0 => none
    | n + 1 => some { s with computing := n, storing := s.storing + 1, computed := s.computed + 1 }
  | .store =>
    match s.storing with
    | 0 => none
    | n + 1 => some { s with storing := n, stored := true }
  | .fill => some { s with stored := true }
  | .evict => if s.stored then some { s with stored := false, evicted := s.evicted + 1 } else none

theorem step_miss {s : LookAside} (absent : s.stored = false) : step s .miss = some { s with computing := s.computing + 1 } := by
  simp [step, absent]

theorem step_fail {s : LookAside} (some_ : 0 < s.computing) : step s .fail = some { s with computing := s.computing - 1 } := by
  obtain ⟨n, more⟩ := Nat.exists_eq_add_one.2 some_
  simp only [step, more, Nat.add_sub_cancel]

theorem step_compute {s : LookAside} (some_ : 0 < s.computing) :
    step s .compute = some { s with computing := s.computing - 1, storing := s.storing + 1, computed := s.computed + 1 } := by
  obtain ⟨n, more⟩ := Nat.exists_eq_add_one.2 some_
  simp only [step, more, Nat.add_sub_cancel]

theorem step_store {s : LookAside} (some_ : 0 < s.storing) :
    step s .store = some { s with storing := s.storing - 1, stored := true } := by
  obtain ⟨n, more⟩ := Nat.exists_eq_add_one.2 some_
  simp only [step, more, Nat.add_sub_cancel]

theorem step_evict {s : LookAside} (there : s.stored = true) :
    step s .evict = some { s with stored := false, evicted := s.evicted + 1 } := by
  simp [step, there]

/-- The parties that are under way. -/
def pending (s : LookAside) : Nat := s.computing + s.storing

inductive Step (s : LookAside) : Event → LookAside → Prop where
  | miss (absent : s.stored = false) : Step s .miss { s with computing := s.computing + 1 }
  | fail {n : Nat} (some_ : s.computing = n + 1) : Step s .fail { s with computing := n }
  | compute {n : Nat} (some_ : s.computing = n + 1) :
      Step s .compute { s with computing := n, storing := s.storing + 1, computed := s.computed + 1 }
  | store {n : Nat} (some_ : s.storing = n + 1) : Step s .store { s with storing := n, stored := true }
  | fill : Step s .fill { s with stored := true }
  | evict (there : s.stored = true) : Step s .evict { s with stored := false, evicted := s.evicted + 1 }

variable {s t : LookAside} {e : Event} {k : Nat}

theorem step_cases (moved : step s e = some t) : Step s e t := by
  cases e with
  | miss =>
    simp only [step] at moved
    split at moved
    · cases moved
    · rename_i absent
      cases moved
      exact .miss (by simpa using absent)
  | fail =>
    simp only [step] at moved
    split at moved
    · cases moved
    · rename_i n some_
      cases moved
      exact .fail some_
  | compute =>
    simp only [step] at moved
    split at moved
    · cases moved
    · rename_i n some_
      cases moved
      exact .compute some_
  | store =>
    simp only [step] at moved
    split at moved
    · cases moved
    · rename_i n some_
      cases moved
      exact .store some_
  | fill =>
    cases moved
    exact .fill
  | evict =>
    simp only [step] at moved
    split at moved
    · rename_i there
      cases moved
      exact .evict there
    · cases moved

/-- Each time the entry was evicted at most `k` parties have computed it, and so have the parties since:
while the entry is missing those that have stored it are accounted for, and while it is there those that will compute it again are. -/
structure Bounded (k : Nat) (s : LookAside) : Prop where
  storing : s.storing ≤ k
  missing : s.stored = false → s.computed ≤ k * s.evicted + s.storing
  there : s.stored = true → s.computed + s.computing ≤ k * s.evicted + k

theorem bounded_start : Bounded k start where
  storing := Nat.zero_le k
  missing := fun _ => Nat.zero_le _
  there := fun there => by cases there

theorem keeps_bounded : Machine.Keeps step (fun s _ => s.pending ≤ k) (Bounded k) := by
  intro s e t bounded few moved
  obtain ⟨storing, missing, there⟩ := bounded
  unfold pending at few
  cases step_cases moved with
  | miss absent =>
    refine ⟨storing, missing, fun now => ?_⟩
    rw [show s.stored = true from now] at absent
    cases absent
  | fail some_ =>
    refine ⟨storing, missing, fun now => ?_⟩
    have before := there now
    dsimp only
    omega
  | compute some_ =>
    refine ⟨?_, fun now => ?_, fun now => ?_⟩
    · dsimp only
      omega
    · have before := missing now
      dsimp only
      omega
    · have before := there now
      dsimp only
      omega
  | store some_ =>
    refine ⟨?_, fun now => (by cases now), fun _ => ?_⟩
    · dsimp only
      omega
    · -- the parties under way are those that may still compute, and the ones that have
      dsimp only
      cases was : s.stored with
      | true => exact there was
      | false =>
        have before := missing was
        omega
  | fill =>
    refine ⟨storing, fun now => (by cases now), fun _ => ?_⟩
    dsimp only
    cases was : s.stored with
    | true => exact there was
    | false =>
      have before := missing was
      omega
  | evict now =>
    refine ⟨storing, fun _ => ?_, fun now' => (by cases now')⟩
    have before := there now
    dsimp only
    rw [Nat.mul_succ]
    omega

/-- **How often an entry is computed**: where never more than `k` parties are under way at once, at most `k` times for each time it
was evicted, and `k` times more. -/
theorem computed_le {es : List Event} (run : Machine.Run step (fun s _ => s.pending ≤ k) start es t) :
    t.computed ≤ k * (t.evicted + 1) := by
  obtain ⟨storing, missing, there⟩ := run.keeps keeps_bounded bounded_start
  rw [Nat.mul_succ]
  cases now : t.stored with
  | false =>
    have known := missing now
    omega
  | true =>
    have known := there now
    omega

theorem counts_mono {ok : LookAside → Event → Prop} {es : List Event} (run : Machine.Run step ok s es t) :
    s.computed ≤ t.computed ∧ s.evicted ≤ t.evicted := by
  induction run with
  | nil => exact ⟨Nat.le_refl _, Nat.le_refl _⟩
  | cons moved _ _ ih =>
    obtain ⟨computed, evicted⟩ := ih
    cases step_cases moved with
    | miss | fail | store | fill => exact ⟨computed, evicted⟩
    | compute => exact ⟨Nat.le_of_succ_le computed, evicted⟩
    | evict => exact ⟨computed, Nat.le_of_succ_le evicted⟩

/-- **Once the entry is stored**, and until it is evicted, only those compute it again that have missed it before. -/
theorem late_computed {ok : LookAside → Event → Prop} {es : List Event} (run : Machine.Run step ok s es t) (there : s.stored = true)
    (kept : t.evicted = s.evicted) : t.stored = true ∧ t.computed + t.computing ≤ s.computed + s.computing := by
  induction run with
  | nil => exact ⟨there, Nat.le_refl _⟩
  | cons moved _ rest ih =>
    have more := (counts_mono rest).2
    cases step_cases moved with
    | miss absent =>
      rw [there] at absent
      cases absent
    | fail some_ | compute some_ =>
      obtain ⟨still, less⟩ := ih there kept
      refine ⟨still, Nat.le_trans less ?_⟩
      dsimp only
      omega
    | store | fill => exact ih rfl kept
    | evict =>
      rw [kept] at more
      exact absurd more (Nat.not_succ_le_self _)

/-- Two parties miss the entry at once, and both compute it. -/
example : Machine.exec step [.miss, .miss, .compute, .store, .compute, .store] start = some ⟨true, 0, 0, 2, 0⟩ := by decide

end LookAside

end Protoactor.Lib
