import Protoactor.Actor.Registry
import Protoactor.Actor.Context

/-!
# The actors of one system (`src/actor/props.cpp`, `src/actor/pid.cpp`, `src/actor/actor_process.cpp`)

The registry of an `ActorSystem` with the actors that `defaultSpawner` has put into it. Which
message a context is given next is left open: a label may hand any message to any actor
whose last call has returned, so every schedule of the mailboxes is among the runs. The steps of
one spawn are taken together here.

The fields `posted` and `deadLetters` are auxiliary.
-/

namespace Protoactor.Actor
set_option autoImplicit false
open Lib

/-- What a `std::shared_ptr<Process>` points to. -/
inductive Process where
  | deadLetter
  /-- the `ActorProcess` of the `n`-th actor spawned -/
  | actor (n : Nat)
  deriving DecidableEq, Repr

/-- `Props`: what an actor is made from. -/
structure Kit (U K σ C : Type) where
  props : Props U K C
  beh : Behaviour U K σ C
  memory : σ

structure Spawned (U K σ C : Type) where
  pid : PID
  kit : Kit U K σ C
  context : ActorContext U K σ C

structure ActorSystem (U K σ C : Type) where
  registry : ProcessRegistry Process
  actors : List (Spawned U K σ C)
  /-- the messages given to the mailboxes -/
  posted : List (Nat × Kind × Ptr U K)
  /-- the user messages given to the `DeadLetterProcess` -/
  deadLetters : List (PID × Ptr U K)

/-- How a spawn fails: an exception of the producer, or `std::errc::file_exists`. -/
inductive SpawnError where
  | threw
  | fileExists
  deriving DecidableEq, Repr

namespace ActorSystem

variable {U K σ C : Type}

/-- `Initialize`, which registers the dead letters. -/
def start : ActorSystem U K σ C where
  registry := ((ProcessRegistry.new Process.deadLetter).add .deadLetter "deadletter").2
  actors := []
  posted := []
  deadLetters := []

/-- `Props::Spawn` with `defaultSpawner`; `ref` is the PID object that `NewPID` makes. -/
def spawnNamed (ref : Nat) (id : String) (parent : Option PID) (kit : Kit U K σ C) (s : ActorSystem U K σ C) :
    Except SpawnError PID × ActorSystem U K σ C :=
  match kit.beh.produce kit.memory with
  | none => (.error .threw, s)
  | some (memory, actor) =>
    let n := s.actors.length
    let pid : PID := ⟨ref, s.registry.address, id⟩
    match s.registry.add (.actor n) id with
    | (false, _) => (.error .fileExists, s)
    | (true, registry) =>
      (.ok pid, { s with
        registry := registry
        actors := s.actors ++ [⟨pid, kit, .new (some pid) parent memory actor⟩]
        posted := s.posted ++ [(n, .system, wrapEnvelope .started)] })

/-- `PID::SendUserMessage`. -/
def sendUserMessage (pid : PID) (message : Ptr U K) (s : ActorSystem U K σ C) : ActorSystem U K σ C :=
  match s.registry.get (some pid) with
  | (.deadLetter, _) => { s with deadLetters := s.deadLetters ++ [(pid, message)] }
  | (.actor n, _) => { s with posted := s.posted ++ [(n, .user, message)] }

inductive Label (U K σ C : Type) where
  | spawnNamed (ref : Nat) (id : String) (parent : Option PID) (kit : Kit U K σ C)
  /-- a call of the context of the `n`-th actor by its mailbox, or a step of that call -/
  | actor (n : Nat) (l : ActorContext.Label U K)
  | send (pid : PID) (message : Ptr U K)
  /-- `ProcessRegistry::Remove`, which in the code only `FutureImpl::Stop` calls -/
  | remove (pid : Option PID)

def step : Machine (ActorSystem U K σ C) (Label U K σ C) := fun s l =>
  match l with
  | .spawnNamed ref id parent kit => some (s.spawnNamed ref id parent kit).2
  | .actor n l =>
    match s.actors[n]? with
    | none => none
    | some a => (ActorContext.step a.kit.props a.kit.beh a.context l).map fun context =>
        { s with actors := s.actors.set n { a with context := context } }
  | .send pid message => some (s.sendUserMessage pid message)
  | .remove pid => some { s with registry := s.registry.remove pid }

/-- The name of the process is free again. -/
structure Freed (s : ActorSystem U K σ C) (pid : PID) : Prop where
  gone : s.registry.get (some pid) = (.deadLetter, false)
  dead : ∀ message, (s.sendUserMessage pid message).deadLetters = s.deadLetters ++ [(pid, message)]
  again : ∀ ref parent (kit : Kit U K σ C), (kit.beh.produce kit.memory).isSome →
    ∃ pid', (s.spawnNamed ref pid.id parent kit).1 = .ok pid'

end ActorSystem

end Protoactor.Actor
