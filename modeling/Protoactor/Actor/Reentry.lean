import Protoactor.Actor.Spawn.Calls
import Protoactor.Actor.Context.Continuing
import Protoactor.Actor.Future.Completion
import Protoactor.Actor.Mailbox.Progress
import Mathlib.Data.List.Basic

/-!
# ReenterAfter (`src/actor/actor_context.cpp`, `src/actor/future.cpp`)

A spawned actor with its mailbox, and any number of futures that anybody may complete. The
closure that `ReenterAfter` gives to `ContinueWith` runs in the thread that completes the future,
or at once in that of the actor, and sends the continuation message to `self_`: it resolves the PID
and posts to what it gets. From there on the message goes the way of every system message.

Continuation messages are made here only. `registered`, `resumed` and `running` are auxiliary: the
closures given to `ContinueWith`, and the calls of continuations, each with what the accessors
answered when it was made.
-/

namespace Protoactor.Actor.Reentry
set_option autoImplicit false
open Lib

variable {P U K σ C : Type}

/-- The closure of a call of `ReenterAfter`, with the future it is given to. -/
structure Closure (U K : Type) where
  future : Nat
  continuation : Option K
  message : Ptr U K
  deriving DecidableEq, Repr

/-- `cont_msg`. -/
def Closure.contMsg (closure : Closure U K) : Ptr U K := .continuation closure.continuation closure.message

/-- A call of a continuation. -/
structure Resumption (U K : Type) where
  continuation : K
  result : Ptr U K
  err : ErrorCode
  /-- what the accessors answered -/
  current : Received U K
  deriving DecidableEq, Repr

structure State (P U K σ C : Type) where
  history : Spawn.History P U K σ C
  /-- a completion that is not a closure of this actor is `none` -/
  futures : Nat → FutureImpl U K (Option (Closure U K))
  registered : List (Closure U K)
  /-- the calls that are over, with the message that the context held when the mailbox went on -/
  resumed : List (Resumption U K × Option (Ptr U K))
  running : Option (Resumption U K)

/-- Before the spawn, with futures that nobody has completed. -/
def start (r : ProcessRegistry P) (pids : Nat → PID) : State P U K σ C :=
  ⟨.begin r, fun f => FutureImpl.created (pids f) [], [], [], none⟩

/-- The context of the actor, once it is made. -/
def State.context (s : State P U K σ C) : Option (ActorContext U K σ C) := s.history.state.context

def State.mailbox (s : State P U K σ C) : Interleaving.State (Ptr U K) := s.history.state.mailbox

/-! ## Steps -/

/-- The continuation that is called between the two. -/
def resuming (h h' : Spawn.History P U K σ C) : Option (Resumption U K) :=
  match h.state.context, h'.state.context with
  | some c, some c' => (c'.continued.drop c.continued.length).head?.map fun (continuation, result, err) =>
    ⟨continuation, result, err, c'.current⟩
  | _, _ => none

/-- The records after a step of the actor. -/
def State.observe (s : State P U K σ C) (h : Spawn.History P U K σ C) : State P U K σ C :=
  if h.ended.length = s.history.ended.length then { s with history := h, running := (resuming s.history h).or s.running }
  else
    let left := h.state.context.map ActorContext.messageOrEnvelope
    { s with history := h, resumed := s.resumed ++ (s.running.map (·, left)).toList, running := none }

/-- `self_->SendSystemMessage(actor_system_, cont_msg)`. A null `self_` is dereferenced. -/
def sendSelf (cfg : Spawn.Spawner U K σ C) (message : Ptr U K) (h : Spawn.History P U K σ C) :
    Option (Spawn.History P U K σ C) :=
  match h.state.context.bind ActorContext.self with
  | none => none
  | some self => Machine.exec (Spawn.History.step cfg) [.get (some self), .send h.state.resolved.length .system message] h

/-- The closures run one after the other. -/
def runClosures (cfg : Spawn.Spawner U K σ C) : List (Closure U K) → Spawn.History P U K σ C → Option (Spawn.History P U K σ C)
  | [], h => some h
  | closure :: closures, h => (sendSelf cfg closure.contMsg h).bind (runClosures cfg closures)

/-- The future `f` has changed. -/
def put {F : Type} (futures : Nat → F) (f : Nat) (future : F) : Nat → F := fun i => if i = f then future else futures i

/-- A call of a future. What its completions are given, the closures ignore. -/
def State.act (cfg : Spawn.Spawner U K σ C) (f : Nat) (op : FutureImpl.Op U K (Option (Closure U K))) (s : State P U K σ C) :
    Option (State P U K σ C) :=
  let future := (s.futures f).apply op
  let called := future.called.drop (s.futures f).called.length
  (runClosures cfg (called.filterMap Prod.fst) s.history).map fun h =>
    { s with history := h, futures := put s.futures f future }

/-- The program on top calls `ReenterAfter`: its continuation, and whether the future has completed. -/
def entering (beh : Behaviour U K σ C) (c : ActorContext U K σ C) : Option (Option K × Bool) :=
  match c.stack with
  | .code rest :: _ =>
    match (beh.resume rest c.view c.memory).2 with
    | .performs (.reenterAfter continuation completed) _ => some (continuation, completed)
    | _ => none
  | _ => none

inductive Label (U K : Type) where
  /-- any other step of the actor, its spawner and the threads that post to it -/
  | actor (l : Spawn.Label U K)
  /-- the program on top calls `ReenterAfter` with the future `f` -/
  | reenter (f : Nat)
  /-- somebody calls a method of the future `f` -/
  | future (f : Nat) (op : FutureImpl.Op U K (Option (Closure U K)))

/-- The object is a continuation message. -/
def isContinuation (message : Ptr U K) : Bool :=
  match ActorContext.actualMessage message with
  | .continuation _ _ => true
  | _ => false

/-- Steps of the actor that are calls of `ReenterAfter`, or posts of a continuation message that it did not make. -/
def reserved (cfg : Spawn.Spawner U K σ C) (s : State P U K σ C) : Spawn.Label U K → Bool
  | .run => (s.context.bind (entering cfg.beh)).isSome
  | .send _ _ message => isContinuation message
  | _ => false

def step (cfg : Spawn.Spawner U K σ C) : Machine (State P U K σ C) (Label U K) := fun s l =>
  match l with
  | .actor l => if reserved cfg s l then none else (Spawn.History.step cfg s.history l).map s.observe
  | .reenter f =>
    match s.context with
    | none => none
    | some c =>
      match entering cfg.beh c with
      | none => none
      | some (continuation, completed) =>
        if completed ≠ (s.futures f).done then none
        else
          let closure : Closure U K := ⟨f, continuation, c.messageOrEnvelope⟩
          (Spawn.History.step cfg s.history .run).bind fun h =>
            { s.observe h with registered := s.registered ++ [closure] }.act cfg f (.continueWith (some closure))
  | .future f op =>
    match op with
    | .continueWith (some _) => none
    | op => s.act cfg f op

/-! ## What is promised -/

/-- The call that is due to a closure once its future has completed: with what `Result` returns, and the message
during which `ReenterAfter` was called. -/
def Closure.due (closure : Closure U K) (future : FutureImpl U K (Option (Closure U K))) : Option (Resumption U K) :=
  closure.continuation.bind fun continuation => future.answer.map fun (result, err) =>
    ⟨continuation, result, err, seen closure.message⟩

namespace State

/-- The calls that are due. -/
def expected (s : State P U K σ C) : List (Resumption U K) := s.registered.filterMap fun closure => closure.due (s.futures closure.future)

/-- The calls that have been made. -/
def made (s : State P U K σ C) : List (Resumption U K) := s.resumed.map Prod.fst ++ s.running.toList

end State

/-- The continuation that a message calls. -/
def continuationOf (message : Ptr U K) : Option K := (ActorContext.continuing message).map Prod.fst

/-- **ReenterAfter resumes**: what is called is due, and called once; each call is the invocation of one system message,
while no other message is invoked; until it is over the accessors answer what they answered
at the call, and then the context holds no message. -/
structure Resumes (s : State P U K σ C) : Prop where
  once : s.made.Subperm s.expected
  steps : s.made.map Resumption.continuation = s.mailbox.box.system.invoked.filterMap continuationOf
  alone : ∀ r, s.running = some r → ∃ w message, s.mailbox.calls.filter Worker.invoking = [w] ∧
    w.pc = .invoking .system message ∧ continuationOf message = some r.continuation
  during : ∀ r c, s.running = some r → s.context = some c → c.stack ≠ [] → c.current = r.current
  after : ∀ call ∈ s.resumed, call.2 = some .null

/-! ## When it is kept -/

/-- The PID of the actor resolves to it. -/
def Alive (h : Spawn.History P U K σ C) : Prop :=
  (h.state.context.bind ActorContext.self).map (fun self => (h.state.registry.get (some self)).1) = some .spawned

instance [DecidableEq P] (h : Spawn.History P U K σ C) : Decidable (Alive h) := inferInstanceAs (Decidable (_ = _))

/-- A continuation waits for the future. -/
def State.Awaited (s : State P U K σ C) (f : Nat) : Prop :=
  ∃ closure ∈ s.registered, closure.future = f ∧ closure.continuation.isSome

/-- A future that a continuation waits for is completed without a result and without an error, and so is one that
`ReenterAfter` finds completed; a continuation that runs stays with its message. The actor is alive when a closure runs. -/
def resumable (cfg : Spawn.Spawner U K σ C) (s : State P U K σ C) : Label U K → Prop
  | .actor .run => s.running.isSome → ∀ c, s.context = some c → ActorContext.Stays cfg.beh c
  | .actor _ => True
  | .reenter f => (s.futures f).done = true → (s.context.bind (entering cfg.beh)).any (·.1.isSome) →
    Alive s.history ∧ (s.futures f).answer = some (.null, .success)
  | .future f op => (s.futures f).done = false → op.completes = true → s.Awaited f →
    Alive s.history ∧ FutureImpl.completed op = (.null, .success)

/-- Real messages, a dispatcher that runs every task, handlers that return, and the limits of the mailbox. -/
def processed (s : State P U K σ C) : Label U K → Prop
  | .actor (.mail m) => Interleaving.fairWithin s.mailbox m
  | .actor (.send _ _ message) => message.isNull = false
  | _ => True

end Protoactor.Actor.Reentry
