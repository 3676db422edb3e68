import Protoactor.Actor.Messages

/-!
# Futures (`src/actor/future.cpp`)

`FutureImpl` as its members under `mutex_`: each public call and the timeout step is one
critical section, and `Stop`, called with the mutex held, is run as if the mutex were
re-entrant. The registry is the list of the ids it has an entry for. `piped` and `called`
are auxiliary: the messages sent by `SendToPipes`, and the calls of continuations with
their arguments.
-/

namespace Protoactor.Actor
set_option autoImplicit false

variable {U K F : Type}

structure FutureImpl (U K F : Type) where
  pid : PID
  done : Bool
  result : Ptr U K
  err : ErrorCode
  pipes : List PID
  completions : List F
  registry : List String
  piped : List (PID × Ptr U K)
  called : List (F × Ptr U K × ErrorCode)
  deriving DecidableEq, Repr

namespace FutureImpl

/-- `ProcessRegistry::Remove`. -/
def remove (registry : List String) : Option PID → List String
  | none => registry
  | some pid => registry.filter (· ≠ pid.id)

def sendToPipes (f : FutureImpl U K F) : FutureImpl U K F :=
  if f.pipes = [] then f
  else
    let msg := if f.err ≠ .success then .errorCode f.err else f.result
    { f with piped := f.piped ++ f.pipes.map (·, msg), pipes := [] }

def runCompletions (f : FutureImpl U K F) : FutureImpl U K F :=
  { f with called := f.called ++ f.completions.map (·, f.result, f.err), completions := [] }

def stop (pid : Option PID) (f : FutureImpl U K F) : FutureImpl U K F :=
  if f.done then f
  else ({ f with done := true, registry := remove f.registry pid }.sendToPipes).runCompletions

def sendUserMessage (pid : Option PID) (message : Ptr U K) (f : FutureImpl U K F) : FutureImpl U K F :=
  if f.done then f
  else
    let msg := (unwrapEnvelope message).2.1
    -- the branch for real replies is the one of the dead-letter response
    if ¬ msg.isNull then { f with result := .null, err := .hostUnreachable }.stop pid
    else { f with result := msg, err := .success }.stop pid

def sendSystemMessage (pid : Option PID) (message : Ptr U K) (f : FutureImpl U K F) : FutureImpl U K F :=
  if f.done then f else { f with result := message, err := .success }.stop pid

/-- The timeout thread after its sleep: `done_` is set before `Stop`, which then
returns at its own test of `done_`. -/
def timeout (f : FutureImpl U K F) : FutureImpl U K F :=
  if f.done then f else { f with err := .timedOut, done := true }.stop (some f.pid)

def pipeTo (pids : List PID) (f : FutureImpl U K F) : FutureImpl U K F :=
  let f := { f with pipes := f.pipes ++ pids }
  if f.done then f.sendToPipes else f

def continueWith (continuation : F) (f : FutureImpl U K F) : FutureImpl U K F :=
  if f.done then { f with called := f.called ++ [(continuation, f.result, f.err)] }
  else { f with completions := f.completions ++ [continuation] }

/-- What `Result` returns; before completion it blocks. -/
def answer (f : FutureImpl U K F) : Option (Ptr U K × ErrorCode) := if f.done then some (f.result, f.err) else none

/-! ## Construction -/

/-- `std::bad_weak_ptr`. -/
inductive BadWeakPtr where
  | thrown
  deriving DecidableEq, Repr

/-- `shared_from_this()`, which needs a `shared_ptr` that owns the object already. -/
def sharedFromThis (owned : Bool) : Except BadWeakPtr Unit := if owned then .ok () else .error .thrown

/-- A future with its entry in the registry. -/
def created (pid : PID) (registry : List String) : FutureImpl U K F where
  pid := pid
  done := false
  result := .null
  err := .success
  pipes := []
  completions := []
  registry := pid.id :: registry
  piped := []
  called := []

/-- The constructor; `owned` says whether a `shared_ptr` owns the object while it runs. -/
def construct (owned : Bool) (pid : PID) (registry : List String) : Except BadWeakPtr (FutureImpl U K F) := do
  sharedFromThis owned
  return created pid registry

/-- `NewFuture`: `std::make_shared` hands the object to a `shared_ptr` once its
constructor has returned. -/
def newFuture (pid : PID) (registry : List String) : Except BadWeakPtr (FutureImpl U K F) := construct false pid registry

/-! ## Calls in any order -/

inductive Op (U K F : Type) where
  | continueWith (continuation : F)
  | pipeTo (pids : List PID)
  | sendUserMessage (pid : Option PID) (message : Ptr U K)
  | sendSystemMessage (pid : Option PID) (message : Ptr U K)
  | stop (pid : Option PID)
  | timeout
  deriving DecidableEq, Repr

def apply (f : FutureImpl U K F) : Op U K F → FutureImpl U K F
  | .continueWith continuation => f.continueWith continuation
  | .pipeTo pids => f.pipeTo pids
  | .sendUserMessage pid message => f.sendUserMessage pid message
  | .sendSystemMessage pid message => f.sendSystemMessage pid message
  | .stop pid => f.stop pid
  | .timeout => f.timeout

/-- The future after `ops`. -/
def after (f : FutureImpl U K F) (ops : List (Op U K F)) : FutureImpl U K F := ops.foldl apply f

namespace Op

/-- The call completes a pending future. -/
def completes : Op U K F → Bool
  | .continueWith _ | .pipeTo _ => false
  | _ => true

def continuations : List (Op U K F) → List F
  | [] => []
  | .continueWith continuation :: ops => continuation :: continuations ops
  | _ :: ops => continuations ops

def targets : List (Op U K F) → List PID
  | [] => []
  | .pipeTo pids :: ops => pids ++ targets ops
  | _ :: ops => targets ops

theorem continuations_append (ops ops' : List (Op U K F)) :
    continuations (ops ++ ops') = continuations ops ++ continuations ops' := by
  induction ops with
  | nil => rfl
  | cons op ops ih => cases op <;> simp [continuations, ih]

theorem targets_append (ops ops' : List (Op U K F)) : targets (ops ++ ops') = targets ops ++ targets ops' := by
  induction ops with
  | nil => rfl
  | cons op ops ih => cases op <;> simp [targets, ih]

/-- The PID that the call, completing the future, hands to `Remove`. -/
def pid : Op U K F → Option PID
  | .sendUserMessage pid _ | .sendSystemMessage pid _ | .stop pid => pid
  | _ => none

end Op

end FutureImpl

end Protoactor.Actor
