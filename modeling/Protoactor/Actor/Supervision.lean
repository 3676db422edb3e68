import Mathlib.Algebra.Ring.Int.Defs
import Protoactor.Actor.Messages

/-!
# Supervision (`src/actor/supervision.cpp`)

The strategies, as functions from a failure and the clock to the call they make on the
supervisor. Time is counted in ticks of `system_clock`, durations in milliseconds. A
strategy may reset the statistics it is handed, so these come back with the call.
-/

namespace Protoactor.Actor
set_option autoImplicit false

variable {U K : Type}

inductive Directive where
  | resume
  | restart
  | stop
  | escalate
  deriving DecidableEq, Repr

/-- The ticks of a millisecond. -/
def ticksPerMs : Int := 1000000

/-- `duration_cast<milliseconds>`, which rounds towards zero. -/
def toMs (ticks : Int) : Int := ticks.tdiv ticksPerMs

/-- `time_point::min()`. -/
def timeMin : Int := -2 ^ 63

structure RestartStatistics where
  failureCount : Int
  lastFailureTime : Int
  deriving DecidableEq, Repr

namespace RestartStatistics

/-- The constructor. -/
def new : RestartStatistics := ⟨0, timeMin⟩

def reset (_ : RestartStatistics) : RestartStatistics := ⟨0, timeMin⟩

def fail (now : Int) (rs : RestartStatistics) : RestartStatistics := ⟨rs.failureCount + 1, now⟩

end RestartStatistics

/-- The calls of a strategy on its `Supervisor`. -/
inductive SupervisorCall (U K : Type) where
  | resumeChildren (pids : List PID)
  | restartChildren (pids : List PID)
  | stopChildren (pids : List PID)
  | escalateFailure (reason message : Ptr U K)
  deriving DecidableEq, Repr

namespace SupervisorCall

def isRestart : SupervisorCall U K → Bool
  | .restartChildren _ => true
  | _ => false

def isStop : SupervisorCall U K → Bool
  | .stopChildren _ => true
  | _ => false

/-- The children a directive is applied to; an escalation applies none. -/
def targets : SupervisorCall U K → List PID
  | .resumeChildren pids | .restartChildren pids | .stopChildren pids => pids
  | .escalateFailure _ _ => []

end SupervisorCall

/-- What a supervisor hands to its strategy. -/
structure ChildFailure (U K : Type) where
  now : Int
  /-- `supervisor->Children()` -/
  children : List PID
  child : PID
  reason : Ptr U K
  message : Ptr U K
  deriving DecidableEq, Repr

/-- The members of `OneForOneStrategyImpl` and of `AllForOneStrategyImpl`. -/
structure RetryStrategy (U K : Type) where
  maxRetries : Int
  withinDuration : Int
  decider : Ptr U K → Directive

namespace RetryStrategy

/-- `ShouldStop`, of which each strategy has its own copy. -/
def shouldStop (s : RetryStrategy U K) (now : Int) : Option RestartStatistics → Bool × Option RestartStatistics
  | none => (false, none)
  | some rs =>
    if rs.failureCount = 0 then (false, some rs)
    else if s.withinDuration < toMs (now - rs.lastFailureTime) then (false, some rs.reset)
    else (decide (s.maxRetries ≤ rs.failureCount), some rs)

/-- The `switch` of `HandleFailure`; `affected` are the children that are restarted or stopped. -/
def handle (s : RetryStrategy U K) (affected : List PID) (f : ChildFailure U K) (rs : Option RestartStatistics) :
    SupervisorCall U K × Option RestartStatistics :=
  match s.decider f.reason with
  | .resume => (.resumeChildren [f.child], rs)
  | .restart =>
    match s.shouldStop f.now rs with
    | (true, rs) => (.stopChildren affected, rs)
    | (false, rs) => (.restartChildren affected, rs)
  | .stop => (.stopChildren affected, rs)
  | .escalate => (.escalateFailure f.reason f.message, rs)

end RetryStrategy

/-- `OneForOneStrategyImpl::HandleFailure`. -/
def oneForOneHandleFailure (s : RetryStrategy U K) (f : ChildFailure U K) (rs : Option RestartStatistics) :
    SupervisorCall U K × Option RestartStatistics := s.handle [f.child] f rs

/-- `AllForOneStrategyImpl::HandleFailure`. -/
def allForOneHandleFailure (s : RetryStrategy U K) (f : ChildFailure U K) (rs : Option RestartStatistics) :
    SupervisorCall U K × Option RestartStatistics := s.handle f.children f rs

/-- `RestartingStrategyImpl::HandleFailure`. -/
def restartingHandleFailure (f : ChildFailure U K) (rs : Option RestartStatistics) :
    SupervisorCall U K × Option RestartStatistics := (.restartChildren [f.child], rs)

inductive SupervisorStrategy (U K : Type) where
  | oneForOne (s : RetryStrategy U K)
  | allForOne (s : RetryStrategy U K)
  | restarting

def SupervisorStrategy.handleFailure :
    SupervisorStrategy U K → ChildFailure U K → Option RestartStatistics → SupervisorCall U K × Option RestartStatistics
  | .oneForOne s => oneForOneHandleFailure s
  | .allForOne s => allForOneHandleFailure s
  | .restarting => restartingHandleFailure

def defaultDecider (_ : Ptr U K) : Directive := .restart

def defaultSupervisorStrategy : SupervisorStrategy U K := .oneForOne ⟨10, 10000, defaultDecider⟩

end Protoactor.Actor
