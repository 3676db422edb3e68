import Protoactor.Actor.Registry
import Protoactor.Actor.Context
import Protoactor.Actor.Mailbox.Interleaving

/-!
# The default spawner among other threads (`src/actor/props.cpp`)

One call of `defaultSpawner`, step by step, with any number of threads that resolve PIDs in
the registry and post to what they get. The mailbox is the machine of `Interleaving`; its
`ProcessMessages` calls make the calls of the `ActorContext`, which runs its own steps
while the worker waits inside the invocation.

`handled` is auxiliary: the calls of `InvokeUserMessage` and `InvokeSystemMessage` that are over.
-/

namespace Protoactor.Actor.Spawn
set_option autoImplicit false
open Lib

variable {P U K σ C : Type}

/-- The next step of `defaultSpawner`. -/
inductive SpawnerPc where
  /-- `ActorContext::New` -/
  | createContext
  /-- `ProduceMailbox`, and the `ActorProcess` around it -/
  | produceMailbox
  /-- `Add` -/
  | add
  | setSelf
  /-- `RegisterHandlers`, the store of `invoker_ptr_` -/
  | setInvoker
  /-- `RegisterHandlers`, the store of `dispatcher_` -/
  | setDispatcher
  /-- `Start`, which does nothing, and the call of `PostSystemMessage` -/
  | postStarted
  /-- inside that call, which is the `n`-th post -/
  | posting (n : Nat)
  /-- the producer threw -/
  | threw
  /-- the id was taken: `std::errc::file_exists` -/
  | failed
  deriving DecidableEq, Repr

/-- A process that a thread can get. -/
inductive Target (P : Type) where
  /-- the `ActorProcess` of this spawn -/
  | spawned
  | other (process : P)
  deriving DecidableEq, Repr

/-- What `RegisterHandlers` has stored: `invoker_ptr_` first, then `dispatcher_`. -/
inductive Registered where
  | nothing
  | invoker
  | handlers
  deriving DecidableEq, Repr

/-- The arguments of the spawner, with what `props` produces. -/
structure Spawner (U K σ C : Type) where
  id : String
  /-- the PID object that `NewPID` makes -/
  ref : Nat
  parent : Option PID
  props : Props U K C
  beh : Behaviour U K σ C
  memory : σ
  dispatcher : Handlers

structure State (P U K σ C : Type) where
  spawner : SpawnerPc
  registry : ProcessRegistry (Target P)
  context : Option (ActorContext U K σ C)
  mailbox : Interleaving.State (Ptr U K)
  registered : Registered
  /-- what the calls of `Get` have answered -/
  resolved : List (Target P)
  /-- a null `dispatcher_` was dereferenced -/
  crashed : Bool
  handled : List (Kind × Ptr U K)

/-- Before the spawn, with whatever the registry holds. -/
def start (registry : ProcessRegistry P) : State P U K σ C where
  spawner := .createContext
  registry := registry.map .other
  context := none
  mailbox := Interleaving.init
  registered := .nothing
  resolved := []
  crashed := false
  handled := []

/-- The `Started` that the spawner posts. -/
def startedEnvelope : Ptr U K := wrapEnvelope .started

/-- A message as it is queued. -/
def item (message : Ptr U K) : Option (Ptr U K) := if message.isNull then none else some message

def postOf (k : Kind) (message : Ptr U K) : PostCall (Ptr U K) := ⟨k, item message, .push⟩

/-- The call that the mailbox makes for a message. -/
def callOf (k : Kind) (message : Ptr U K) : ActorContext.Label U K :=
  match k with
  | .user => .user message
  | .system => .system message

namespace State

/-- A thread calls `PostUserMessage` or `PostSystemMessage` of the mailbox. -/
def post (s : State P U K σ C) (k : Kind) (message : Ptr U K) : State P U K σ C :=
  { s with mailbox := { s.mailbox with posts := s.mailbox.posts ++ [postOf k message] } }

/-- The `n`-th post is about to call `dispatcher_->Schedule`. -/
def dispatching (s : State P U K σ C) (n : Nat) : Bool := s.mailbox.posts[n]?.any Interleaving.dispatching

end State

/-- The steps of `defaultSpawner`. -/
def spawnerStep (cfg : Spawner U K σ C) (s : State P U K σ C) : Option (State P U K σ C) :=
  match s.spawner with
  | .createContext =>
    match cfg.beh.produce cfg.memory with
    | none => some { s with spawner := .threw }
    | some (memory, actor) => some { s with context := some (.new none cfg.parent memory actor), spawner := .produceMailbox }
  | .produceMailbox => some { s with mailbox := Interleaving.init, spawner := .add }
  | .add =>
    match s.registry.add .spawned cfg.id with
    | (false, registry) => some { s with registry := registry, spawner := .failed }
    | (true, registry) => some { s with registry := registry, spawner := .setSelf }
  | .setSelf =>
    let pid : PID := ⟨cfg.ref, s.registry.address, cfg.id⟩
    some { s with context := s.context.map fun c => { c with self := some pid }, spawner := .setInvoker }
  | .setInvoker => some { s with registered := .invoker, spawner := .setDispatcher }
  | .setDispatcher => some { s with registered := .handlers, spawner := .postStarted }
  | .postStarted => some { s.post .system startedEnvelope with spawner := .posting s.mailbox.posts.length }
  | .posting _ | .threw | .failed => none

/-- The atomic steps of the mailbox, with the calls of the context they make. -/
def mailStep (cfg : Spawner U K σ C) (s : State P U K σ C) (l : Interleaving.Label (Ptr U K)) :
    Option (State P U K σ C) :=
  (Interleaving.step cfg.dispatcher s.mailbox l).bind fun mailbox =>
    match l with
    | .post _ _ => none
    | .poster n =>
      if s.dispatching n ∧ s.registered ≠ .handlers then some { s with crashed := true }
      else some { s with mailbox := mailbox }
    | .start | .lose => some { s with mailbox := mailbox }
    | .worker n =>
      match s.mailbox.calls[n]?.map Worker.pc, s.context with
      | some (.invoke k message), some c =>
        (ActorContext.step cfg.props cfg.beh c (callOf k message)).map fun c' =>
          { s with mailbox := mailbox, context := some c' }
      | some (.invoking k message), some c =>
        if c.stack.isEmpty then some { s with mailbox := mailbox, handled := s.handled ++ [(k, message)] } else none
      | _, _ => some { s with mailbox := mailbox }
    | .raise n =>
      match s.mailbox.calls[n]?.map Worker.pc, s.context with
      | some (.invoking k message), some c =>
        if c.stack.isEmpty then some { s with mailbox := mailbox, handled := s.handled ++ [(k, message)] } else none
      | _, _ => none

inductive Label (U K : Type) where
  | spawner
  /-- some thread resolves a PID -/
  | get (pid : Option PID)
  /-- a thread posts to the process that the `n`-th `Get` answered -/
  | send (n : Nat) (k : Kind) (message : Ptr U K)
  | mail (l : Interleaving.Label (Ptr U K))
  /-- the next step of the running call of the context -/
  | run

def step (cfg : Spawner U K σ C) : Machine (State P U K σ C) (Label U K) := fun s l =>
  if s.crashed then none
  else match l with
    | .spawner => spawnerStep cfg s
    | .get pid => some { s with resolved := s.resolved ++ [(s.registry.get pid).1] }
    | .send n k message =>
      match s.resolved[n]? with
      | none => none
      | some .spawned => some (s.post k message)
      | some (.other _) => some s
    | .mail l => mailStep cfg s l
    | .run => s.context.bind fun c => (ActorContext.step cfg.props cfg.beh c .run).map fun c' => { s with context := some c' }

/-- An actor that returns at once, spawned under the name `a`. -/
def idleSpawner : Spawner Nat Nat Unit Unit := ⟨"a", 0, none, .plain, ActorContext.idle, (), ⟨300⟩⟩

/-- A PID with that name. -/
def idlePid : PID := ⟨1, "nonhost", "a"⟩

/-- A registry that holds nothing, with the dead letters as the only process. -/
def emptyRegistry : ProcessRegistry Unit := .new ()

end Protoactor.Actor.Spawn
