import Protoactor.Actor.Supervision

/-!
# The restart budget

`Budget n window` is what `max_retries` and `within_duration` stand for: failures close
together cause at most `n` restarts before the child is stopped, and a quiet period gives the
budget back. `HandleFailure` never calls `Fail` on the statistics, so the count that
`ShouldStop` looks at stays 0 and every failure is answered by a restart. The budget is
then kept exactly where no more than `n` failures ever fall close together.
-/

namespace Protoactor.Actor
set_option autoImplicit false

variable {U K : Type}

/-- The two strategies with a budget. -/
inductive Supervising where
  | oneForOne
  | allForOne
  deriving DecidableEq, Repr

/-- A strategy whose decider answers `Restart`. -/
def Supervising.strategy (kind : Supervising) (maxRetries : Nat) (withinDuration : Int) : SupervisorStrategy U K :=
  match kind with
  | .oneForOne => .oneForOne ⟨maxRetries, withinDuration, fun _ => .restart⟩
  | .allForOne => .allForOne ⟨maxRetries, withinDuration, fun _ => .restart⟩

/-- The failures of one child, handled one after the other with its statistics. -/
def handleAll (strategy : SupervisorStrategy U K) :
    Option RestartStatistics → List (ChildFailure U K) → List (ChildFailure U K × SupervisorCall U K)
  | _, [] => []
  | rs, f :: fs =>
    match strategy.handleFailure f rs with
    | (call, rs') => (f, call) :: handleAll strategy rs' fs

/-- The failures lie within `window` milliseconds of each other. -/
def Within (window : Int) (fs : List (ChildFailure U K)) : Prop :=
  ∀ f ∈ fs, ∀ g ∈ fs, g.now - f.now ≤ window * ticksPerMs

instance (window : Int) (fs : List (ChildFailure U K)) : Decidable (Within window fs) :=
  inferInstanceAs (Decidable (∀ f ∈ fs, ∀ g ∈ fs, g.now - f.now ≤ window * ticksPerMs))

/-- At most `n` restarts before a stop among failures close together; after a quiet
period `n` failures close together are answered by restarts again. -/
structure Budget (n : Nat) (window : Int) (log : List (ChildFailure U K × SupervisorCall U K)) : Prop where
  limited : ∀ stretch, stretch <:+: log → Within window (stretch.map Prod.fst) →
    (stretch.takeWhile fun entry => !entry.2.isStop).countP (fun entry => entry.2.isRestart) ≤ n
  available : ∀ last stretch, last :: stretch <:+: log →
    (∀ next ∈ stretch.head?, last.1.now + window * ticksPerMs < next.1.now) → Within window (stretch.map Prod.fst) →
    stretch.length ≤ n → ∀ entry ∈ stretch, entry.2.isRestart = true

/-- The children that a restart is for. -/
def Supervising.affected (kind : Supervising) (f : ChildFailure U K) : List PID :=
  match kind with
  | .oneForOne => [f.child]
  | .allForOne => f.children

/-- With statistics that count no failure, a failure is answered by a restart and
leaves them as they are. -/
theorem handleFailure_fresh (kind : Supervising) (n : Nat) (window : Int) (f : ChildFailure U K) :
    (kind.strategy n window).handleFailure f (some .new) = (.restartChildren (kind.affected f), some .new) := by
  cases kind with
  | oneForOne => rfl
  | allForOne => rfl

/-- Every failure in a row is. -/
theorem handleAll_fresh (kind : Supervising) (n : Nat) (window : Int) (fs : List (ChildFailure U K)) :
    handleAll (kind.strategy n window) (some .new) fs = fs.map fun f => (f, .restartChildren (kind.affected f)) := by
  induction fs with
  | nil => rfl
  | cons f fs ih => simp only [handleAll, handleFailure_fresh, ih, List.map_cons]

/-- **The budget is kept exactly where it is never needed**: in the histories in which no
more than `n` failures lie within the window of each other. -/
theorem budget_iff (kind : Supervising) (n : Nat) (window : Int) (fs : List (ChildFailure U K)) :
    Budget n window (handleAll (kind.strategy n window) (some .new) fs) ↔
      ∀ stretch, stretch <:+: fs → Within window stretch → stretch.length ≤ n := by
  have restarts : ∀ stretch : List (ChildFailure U K),
      ((stretch.map fun f => (f, SupervisorCall.restartChildren (U := U) (K := K) (kind.affected f))).takeWhile
        fun entry => !entry.2.isStop).countP (fun entry => entry.2.isRestart) = stretch.length := by
    intro stretch
    induction stretch with
    | nil => rfl
    | cons f stretch ih => simpa [SupervisorCall.isStop, SupervisorCall.isRestart] using ih
  have firsts : ∀ stretch : List (ChildFailure U K),
      (stretch.map fun f => (f, SupervisorCall.restartChildren (U := U) (K := K) (kind.affected f))).map Prod.fst = stretch := by
    intro stretch
    rw [List.map_map]
    exact List.map_id' stretch
  rw [handleAll_fresh]
  constructor
  · intro budget stretch part close
    have few := budget.limited _ (part.map _) (by rw [firsts]; exact close)
    rwa [restarts] at few
  · intro few
    refine ⟨?_, ?_⟩
    · intro stretch part close
      obtain ⟨stretch, inside, rfl⟩ := List.infix_map_iff.1 part
      rw [firsts] at close
      rw [restarts]
      exact few stretch inside close
    · intro last stretch part _ _ _ entry member
      have all := part.subset (List.mem_cons_of_mem last member)
      obtain ⟨f, -, rfl⟩ := List.mem_map.1 all
      rfl

/-- Three failures at one moment with a budget of two: three restarts and no stop. -/
theorem third_failure_restarts :
    let fs : List (ChildFailure Nat Nat) := List.replicate 3 ⟨0, [], ⟨0, "nonhost", "a"⟩, .null, .null⟩
    (handleAll (Supervising.oneForOne.strategy 2 1000) (some .new) fs).map Prod.snd =
      List.replicate 3 (.restartChildren [⟨0, "nonhost", "a"⟩]) ∧
    ¬ Budget 2 1000 (handleAll (Supervising.oneForOne.strategy 2 1000) (some .new) fs) := by
  refine ⟨rfl, fun budget => ?_⟩
  have few := budget.limited _ (List.infix_refl _) (by decide)
  revert few
  decide

end Protoactor.Actor
