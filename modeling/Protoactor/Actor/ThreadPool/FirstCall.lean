import Protoactor.Actor.ThreadPool.Shutdown

/-!
# The first of the calls of `Shutdown`

It is the one that joins. When it returns every worker has left, whoever else has called `Shutdown`
in the meantime and returned at once.
-/

namespace Protoactor.Actor.ThreadPool
set_option autoImplicit false
open Lib

variable {T : Type} {s t : ThreadPool T}

/-- What the first call knows. -/
structure Caller.Joins (s : ThreadPool T) (c : Caller) : Prop where
  joined : ∀ k, c.phase = .joining k → ∀ j, j < k → s.workers[j]? = some .returned
  returned : c.phase = .returned → ∀ j, j < s.workers.length → s.workers[j]? = some .returned

structure FirstCall (s : ThreadPool T) : Prop where
  called : s.stop = true ↔ s.callers ≠ []
  first : ∀ c, s.callers[0]? = some c → c.Joins s

namespace FirstCall

theorem start (numThreads : Nat) (cpuCount : Int) : FirstCall (new numThreads cpuCount : ThreadPool T) where
  called := ⟨nofun, fun some_ => absurd rfl some_⟩
  first := nofun

/-- A worker that has not left changes its place. -/
theorem swap (inv : FirstCall s) {w : Nat} {a b : Worker T} (worker : s.workers[w]? = some a) (present : a ≠ .returned)
    (workers : t.workers = s.workers.set w b) (callers : t.callers = s.callers) (stop : t.stop = s.stop) : FirstCall t := by
  have stays : ∀ j : Nat, s.workers[j]? = some .returned → t.workers[j]? = some .returned := by
    intro j home
    have other : w ≠ j := by
      rintro rfl
      rw [worker] at home
      exact present (Option.some.inj home)
    rw [workers]
    exact (List.getElem?_set_ne other).trans home
  constructor
  case called =>
    rw [stop, callers]
    exact inv.called
  case first =>
    rw [callers]
    intro c here
    have joins := inv.first c here
    constructor
    case joined => exact fun k phase j less => stays j (joins.joined k phase j less)
    case returned =>
      intro phase j less
      rw [workers, List.length_set] at less
      exact stays j (joins.returned phase j less)

/-- The call that stops the pool is the first one. -/
theorem opened (inv : FirstCall s) (open_ : s.stop = false) (worker : Option Nat)
    (callers : t.callers = s.callers ++ [⟨worker, .joining 0⟩]) (stop : t.stop = true) : FirstCall t := by
  have nobody : s.callers = [] := by
    cases none_ : s.callers with
    | nil => rfl
    | cons =>
      have set_ := inv.called.2 (by simp [none_])
      rw [open_] at set_
      cases set_
  rw [nobody, List.nil_append] at callers
  constructor
  case called => exact ⟨fun _ => by simp [callers], fun _ => stop⟩
  case first =>
    rw [callers]
    intro c here
    cases here
    exact ⟨fun k phase j less => by cases phase; exact absurd less (Nat.not_lt_zero j), nofun⟩

/-- A call moves on, knowing what it has seen. -/
theorem moved (inv : FirstCall s) {n : Nat} {a b : Caller} (caller : s.callers[n]? = some a) (joins : a.Joins s → b.Joins s) :
    FirstCall { s with callers := s.callers.set n b } := by
  constructor
  case called => simpa using inv.called
  case first =>
    intro c here
    cases n with
    | zero =>
      rw [pool_put caller] at here
      cases here
      have known := joins (inv.first a caller)
      exact ⟨known.joined, known.returned⟩
    | succ n =>
      have known := inv.first c ((List.getElem?_set_ne (Nat.succ_ne_zero n)).symm.trans here)
      exact ⟨known.joined, known.returned⟩

end FirstCall

theorem keeps_firstCall : Machine.Keeps step Machine.free (FirstCall (T := T)) := by
  intro s l s' inv _ moved
  cases change_of_step moved with
  | refuse => exact inv
  | accept => exact ⟨inv.called, fun c here => ⟨(inv.first c here).joined, (inv.first c here).returned⟩⟩
  | shutdown worker open_ | shutdownNow worker open_ => exact inv.opened open_ worker rfl rfl
  | late worker l call stopped =>
    constructor
    case called => exact ⟨fun _ => List.append_ne_nil_of_right_ne_nil _ nofun, fun _ => stopped⟩
    case first =>
      intro c here
      cases some_ : s.callers with
      | nil => exact absurd some_ (inv.called.1 stopped)
      | cons a rest =>
        have same : a = c := by
          simpa [ThreadPool.call, some_] using here
        have known := inv.first c (by simp [some_, same])
        exact ⟨known.joined, known.returned⟩
  | join c k worker caller ended =>
    refine inv.moved caller fun known => ⟨fun k' next j less => ?_, nofun⟩
    cases next
    rcases Nat.lt_succ_iff_lt_or_eq.1 less with before | rfl
    · exact known.joined k rfl j before
    · exact ended
  | joinEnd c k worker caller all =>
    refine inv.moved caller fun known => ⟨nofun, fun _ j bound => ?_⟩
    have past := List.getElem?_eq_none_iff.1 all
    exact known.joined k rfl j (by omega)
  | joinSelf c k caller => exact inv.moved caller fun _ => ⟨nofun, nofun⟩
  | sleep w worker => exact inv.swap worker nofun rfl rfl rfl
  | leave w worker => exact inv.swap worker nofun rfl rfl rfl
  | pop w task queue worker => exact inv.swap worker nofun rfl rfl rfl
  | wake w worker => exact inv.swap worker nofun rfl rfl rfl
  | run w n task worker => exact inv.swap worker nofun rfl rfl rfl
  | finish w n task threw worker => exact inv.swap worker nofun rfl rfl rfl

/-- **When the first call has returned** the pool is quiet. -/
theorem FirstCall.quiet (inv : FirstCall s) (manned : Manned s) {c : Caller} (here : s.callers[0]? = some c)
    (back : c.phase = .returned) : Quiet s :=
  manned.quiet ((inv.first c here).returned back)

end Protoactor.Actor.ThreadPool
