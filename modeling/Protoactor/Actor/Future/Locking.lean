import Protoactor.Lib.Machine
import Protoactor.Lib.Pool
import Protoactor.Actor.Future

/-!
# The mutex of a future (`src/actor/future.cpp`)

Here `mutex_` is what it is, a lock that its owner cannot take again. Any number of threads
call the methods of one future; each has a stack of what it is inside of. Continuations, and
the pipe targets that `SendToPipes` sends to, are code of others that runs inside the call: a label
says whether it returns, throws, or calls a method of the same future, so the runs
cover whatever it does.

`entered` is auxiliary: the operations in the order in which they took the lock.
-/

namespace Protoactor.Actor.FutureImpl.Locking
set_option autoImplicit false
open Lib

variable {U K F : Type}

/-- A call of a method that locks `mutex_`. -/
inductive Call (U K F : Type) where
  | op (op : Op U K F)
  /-- `Result` or `Wait` -/
  | result
  deriving DecidableEq, Repr

/-- What a thread is inside of. -/
inductive Frame (U K F : Type) where
  /-- the constructor of the lock guard -/
  | lock (call : Call U K F)
  /-- the statements after it -/
  | body (call : Call U K F)
  /-- asleep in `cond_.wait`, which has released the mutex -/
  | waiting
  | sendToPipes
  /-- the loop of `SendToPipes` -/
  | piping (msg : Ptr U K) (rest : List PID)
  | runCompletions
  /-- the loop of `RunCompletions` -/
  | completing (rest : List F)
  /-- a continuation or a pipe target -/
  | callback
  /-- the destructor of the lock guard -/
  | unlock
  deriving DecidableEq, Repr

/-- The statements of an operation after its lock guard, up to the calls in them. -/
def statements (f : FutureImpl U K F) : Op U K F → FutureImpl U K F × List (Frame U K F)
  | .sendUserMessage pid message =>
    if f.done then (f, [])
    else
      let msg := (unwrapEnvelope message).2.1
      if ¬ msg.isNull then ({ f with result := .null, err := .hostUnreachable }, [.lock (.op (.stop pid))])
      else ({ f with result := msg, err := .success }, [.lock (.op (.stop pid))])
  | .sendSystemMessage pid message =>
    if f.done then (f, []) else ({ f with result := message, err := .success }, [.lock (.op (.stop pid))])
  | .stop pid =>
    if f.done then (f, [])
    else ({ f with done := true, registry := remove f.registry pid }, [.sendToPipes, .runCompletions])
  | .timeout =>
    if f.done then (f, []) else ({ f with err := .timedOut, done := true }, [.lock (.op (.stop (some f.pid)))])
  | .pipeTo pids =>
    let f := { f with pipes := f.pipes ++ pids }
    (f, if f.done then [.sendToPipes] else [])
  | .continueWith continuation =>
    if f.done then ({ f with called := f.called ++ [(continuation, f.result, f.err)] }, [.callback])
    else ({ f with completions := f.completions ++ [continuation] }, [])

/-- One step inside the critical section: what it does to the future, and the frames that
take the place of this one. -/
def Frame.run (f : FutureImpl U K F) : Frame U K F → Option (FutureImpl U K F × List (Frame U K F))
  | .body (.op op) => some (statements f op)
  | .sendToPipes =>
    if f.pipes = [] then some (f, [])
    else some (f, [.piping (if f.err ≠ .success then .errorCode f.err else f.result) f.pipes])
  | .piping _ [] => some ({ f with pipes := [] }, [])
  | .piping msg (pid :: rest) => some ({ f with piped := f.piped ++ [(pid, msg)] }, [.callback, .piping msg rest])
  | .runCompletions => some (f, [.completing f.completions])
  | .completing [] => some ({ f with completions := [] }, [])
  | .completing (completion :: rest) =>
    some ({ f with called := f.called ++ [(completion, f.result, f.err)] }, [.callback, .completing rest])
  | _ => none

/-- What a continuation or a pipe target does next. -/
inductive Outcome (U K F : Type) where
  | returns
  | throws
  /-- it calls a method of the same future -/
  | calls (call : Call U K F)
  deriving DecidableEq, Repr

structure State (U K F : Type) where
  future : FutureImpl U K F
  /-- the thread that holds `mutex_` -/
  owner : Option Nat
  threads : List (List (Frame U K F))
  entered : List (Op U K F)
  deriving DecidableEq, Repr

inductive Label (U K F : Type) where
  /-- a thread calls a method -/
  | call (call : Call U K F)
  /-- the next step of the `n`-th thread -/
  | thread (n : Nat)
  /-- the continuation or pipe target that the `n`-th thread runs -/
  | callback (n : Nat) (outcome : Outcome U K F)
  deriving DecidableEq, Repr

/-- The thread that acts. -/
def Label.actor : Label U K F → Option Nat
  | .call _ => none
  | .thread n | .callback n _ => some n

def start (pid : PID) (registry : List String) : State U K F := ⟨created pid registry, none, [], []⟩

namespace State

def put (s : State U K F) (n : Nat) (stack : List (Frame U K F)) : State U K F := { s with threads := s.threads.set n stack }

/-- The next step of the `n`-th thread, whose stack is `frame :: below`. -/
def advance (s : State U K F) (n : Nat) (frame : Frame U K F) (below : List (Frame U K F)) : Option (State U K F) :=
  match frame with
  | .lock call =>
    if s.owner.isSome then none
    else
      let entered := match call with
        | .op op => s.entered ++ [op]
        | .result => s.entered
      some { s.put n (.body call :: .unlock :: below) with owner := some n, entered := entered }
  | .waiting => if s.owner.isSome then none else some { s.put n (.body .result :: below) with owner := some n }
  | .body .result => if s.future.done then some (s.put n below) else some { s.put n (.waiting :: below) with owner := none }
  | .unlock => some { s.put n below with owner := none }
  | .callback => none
  | frame => (frame.run s.future).map fun (future, frames) => { s.put n (frames ++ below) with future := future }

end State

def step : Machine (State U K F) (Label U K F) := fun s l =>
  match l with
  | .call call => some { s with threads := s.threads ++ [[.lock call]] }
  | .thread n =>
    match s.threads[n]? with
    | some (frame :: below) => s.advance n frame below
    | _ => none
  | .callback n outcome =>
    match s.threads[n]? with
    | some (.callback :: below) =>
      match outcome with
      | .returns => some (s.put n below)
      -- the exception passes the lock guard of the call, and the guard unlocks
      | .throws => some { s.put n [] with owner := none }
      | .calls call => some (s.put n (.lock call :: .callback :: below))
    | _ => none

/-! ## Self-deadlock -/

/-- The thread is about to lock the mutex that it holds itself. -/
def State.SelfDeadlock (s : State U K F) (n : Nat) : Prop :=
  s.owner = some n ∧ ∃ call below, s.threads[n]? = some (.lock call :: below)

/-- On a pending future the operation calls `Stop` with the mutex held. -/
def reenters : Op U K F → Bool
  | .sendUserMessage _ _ | .sendSystemMessage _ _ | .timeout => true
  | _ => false

/-- The step neither takes the lock for an operation that will lock again, nor is it a call
of the future by a continuation or a pipe target. -/
def careful (s : State U K F) : Label U K F → Bool
  | .call _ => true
  | .thread n =>
    match s.threads[n]? with
    | some (.lock (.op op) :: _) => s.future.done || !reenters op
    | _ => true
  | .callback _ (.calls _) => false
  | .callback _ _ => true

/-- No thread waits for itself; a call goes on unless it waits for another thread, and whoever
has the lock makes a bounded number of steps with it. -/
structure Live (ok : State U K F → Label U K F → Prop) (s : State U K F) : Prop where
  free : ∀ n, ¬ s.SelfDeadlock n
  moves : ∀ n stack, s.threads[n]? = some stack → stack ≠ [] →
    (∃ m, m ≠ n ∧ s.owner = some m) ∨ ∃ l, l.actor = some n ∧ (step s l).isSome
  ends : ∀ n, s.owner = some n → ∃ bound, ∀ ls s',
    Machine.Run step (fun t l => ok t l ∧ t.owner = some n) s ls s' → ls.countP (·.actor = some n) ≤ bound
  released : ∀ n, s.threads[n]? = some [] → s.owner ≠ some n

end Protoactor.Actor.FutureImpl.Locking
