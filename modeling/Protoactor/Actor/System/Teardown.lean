import Protoactor.Lib.Machine
import Protoactor.Actor.Mailbox
import Protoactor.Actor.EventStream.Casts

/-!
# After a shutdown (`src/actor/actor_system.cpp`)

`Shutdown` resets the pointers to four components while actors, processes, endpoint managers
and member lists that use them live on. A `State` has the pointers and those who follow them;
a label is one call, and a call that follows a pointer that is not there any more is a `fault`,
after which nothing is said.

What a handler, a mailbox or a future does when it is called is a call of its own: sends, the
spawning and stopping of the activator, `UpdateTopology` where `HandleGossipUpdate` calls it.
`RemoteDeliver` copies the pointer to the event stream and does not follow it. Nobody reads
`guardians_` or `extensions_`.
-/

namespace Protoactor.Actor.Teardown
set_option autoImplicit false
open Lib EventStream

variable {U K M P : Type}

/-- The components whose pointers are followed. -/
inductive Component where
  | eventStream
  | deadLetter
  deriving DecidableEq, Repr

/-- `EndpointManager`; the subscription is a position in the stream, as everywhere. -/
structure EndpointManager where
  stopped : Bool
  endpointSub : Option Nat
  deriving DecidableEq, Repr

structure MemberList (M : Type) where
  members : List M
  gossipSub : Option Nat
  deriving DecidableEq, Repr

/-- A system and those who use its components. -/
structure State (U K M P : Type) where
  stopped : Bool
  /-- its `deadLetter` is `dead_letter_` -/
  registry : ProcessRegistry (Option (Recipient P))
  eventStream : Option (EventStream (Event U K M) Subscriber)
  guardians : Bool
  extensions : Bool
  managers : Nat → EndpointManager
  memberLists : Nat → Option (MemberList M)
  /-- auxiliary: the events published -/
  published : List (Event U K M)
  fault : Option Component

namespace State

def setManager (k : Nat) (manager : EndpointManager) (s : State U K M P) : State U K M P :=
  { s with managers := fun j => if j = k then manager else s.managers j }

def setMemberList (k : Nat) (list : Option (MemberList M)) (s : State U K M P) : State U K M P :=
  { s with memberLists := fun j => if j = k then list else s.memberLists j }

/-- `GetEventStream()->…`, a call that may change the stream. -/
def onStream (f : EventStream (Event U K M) Subscriber → EventStream (Event U K M) Subscriber) (s : State U K M P) :
    State U K M P :=
  match s.eventStream with
  | none => { s with fault := some .eventStream }
  | some stream => { s with eventStream := some (f stream) }

def publish (evt : Event U K M) (s : State U K M P) : State U K M P :=
  let s := s.onStream id
  { s with published := s.published ++ [evt] }

/-! ## Processes -/

/-- `SendUserMessage` and `SendSystemMessage` of the `DeadLetterProcess`; its `Stop` is a system message. -/
def deadLetterSend (kind : Kind) (pid : Option PID) (message : Ptr U K) (s : State U K M P) : State U K M P :=
  match kind with
  | .user =>
    let (_, msg, sender) := unwrapEnvelope message
    s.publish (.deadLetter ⟨pid, msg, sender⟩)
  | .system => s.publish (.deadLetter ⟨pid, message, none⟩)

/-- `process->…`, where `if (process)` comes first. -/
def deliver (process : Option (Recipient P)) (kind : Kind) (pid : Option PID) (message : Ptr U K) (s : State U K M P) :
    State U K M P :=
  match process with
  | some .deadLetter => s.deadLetterSend kind pid message
  | some (.process _) | none => s

/-- `PID::SendUserMessage` and `PID::SendSystemMessage`. -/
def pidSend (kind : Kind) (pid : PID) (message : Ptr U K) (s : State U K M P) : State U K M P :=
  s.deliver (s.registry.get (some pid)).1 kind (some pid) message

/-- `Send` of a context without sender middleware; with it, the chain sends by calls of its own. -/
def send (pid : Option PID) (message : Ptr U K) (s : State U K M P) : State U K M P :=
  match pid with
  | none => s
  | some pid => s.pidSend .user pid (.envelope none message none)

/-- `Stop` of a context. -/
def stop (pid : Option PID) (s : State U K M P) : State U K M P :=
  match pid with
  | none => s
  | some pid => s.pidSend .system pid .stop

/-- `Respond`, with the `message_or_envelope_` of the context. -/
def respond (messageOrEnvelope response : Ptr U K) (s : State U K M P) : State U K M P :=
  let (_, _, sender) := unwrapEnvelope messageOrEnvelope
  match sender with
  | some sender => s.send (some sender) response
  | none =>
    match s.registry.deadLetter with
    | none => { s with fault := some .deadLetter }
    | some process => s.deliver (some process) .user none response

/-- `GetLocal`, and the call where `found && process`. -/
def localSend (kind : Kind) (pid : PID) (message : Ptr U K) (s : State U K M P) : State U K M P :=
  let (process, found) := s.registry.getLocal pid.id
  if found then s.deliver process kind (some pid) message else s

/-! ## Components -/

def shutdown (s : State U K M P) : State U K M P :=
  { s with
    stopped := true
    registry := { s.registry.clear with deadLetter := none }
    eventStream := none
    guardians := false
    extensions := false }

/-- `DeadLetterProcess::New`. -/
def newDeadLetterProcess (s : State U K M P) : State U K M P :=
  { s with registry := (s.registry.add (some .deadLetter) "deadletter").2 }.onStream fun stream =>
    (stream.subscribeAs .deadLetterResponse).subscribeAs .deadLetterWatch

/-- `Cluster::SubscribeToTopologyEvents`. -/
def subscribeToTopologyEvents (s : State U K M P) : State U K M P := s.onStream (·.subscribeAs .cluster)

/-- What a subscription made now will be called. -/
def nextSubscription (s : State U K M P) : Option Nat := s.eventStream.map (·.objects.length)

/-- `EndpointManager::Start`. -/
def startManager (k : Nat) (s : State U K M P) : State U K M P :=
  if (s.managers k).stopped then s
  else (s.setManager k ⟨false, s.nextSubscription⟩).onStream (·.subscribeAs .endpointManager)

/-- `EndpointManager::Stop`. -/
def stopManager (k : Nat) (s : State U K M P) : State U K M P :=
  if (s.managers k).stopped then s
  else
    match (s.managers k).endpointSub with
    | none => s.setManager k ⟨true, none⟩
    | some sub => (s.setManager k ⟨true, none⟩).onStream (·.unsubscribe (some sub))

/-- The constructor of `MemberList`. -/
def newMemberList (k : Nat) (s : State U K M P) : State U K M P :=
  match s.memberLists k with
  | some _ => s
  | none => (s.setMemberList k (some ⟨[], s.nextSubscription⟩)).onStream (·.subscribeAs .memberList)

/-- The destructor. -/
def deleteMemberList (k : Nat) (s : State U K M P) : State U K M P :=
  match s.memberLists k with
  | none => s
  | some list =>
    match list.gossipSub with
    | none => s.setMemberList k none
    | some sub => (s.setMemberList k none).onStream (·.unsubscribe (some sub))

def updateTopology (k : Nat) (topology : Option (ClusterTopology M)) (s : State U K M P) : State U K M P :=
  match s.memberLists k, topology with
  | some list, some topology =>
    (s.setMemberList k (some { list with members := topology.members })).publish (.clusterTopology topology)
  | _, _ => s

end State

/-! ## Runs -/

/-- The calls. -/
inductive Label (U K M P : Type) where
  | shutdown
  | add (process : Option (Recipient P)) (id : String)
  | remove (pid : Option PID)
  | registerAddressResolver (resolver : PID → Option (Option (Recipient P)))
  | pidSend (kind : Kind) (pid : PID) (message : Ptr U K)
  | send (pid : Option PID) (message : Ptr U K)
  | stop (pid : Option PID)
  | respond (messageOrEnvelope response : Ptr U K)
  | localSend (kind : Kind) (pid : PID) (message : Ptr U K)
  /-- a call of a `DeadLetterProcess` that the caller has kept -/
  | deadLetterSend (kind : Kind) (pid : Option PID) (message : Ptr U K)
  | newDeadLetterProcess
  | subscribeToTopologyEvents
  | startManager (k : Nat)
  | stopManager (k : Nat)
  | newMemberList (k : Nat)
  | deleteMemberList (k : Nat)
  | updateTopology (k : Nat) (topology : Option (ClusterTopology M))

def State.perform (s : State U K M P) : Label U K M P → State U K M P
  | .shutdown => s.shutdown
  | .add process id => { s with registry := (s.registry.add process id).2 }
  | .remove pid => { s with registry := s.registry.remove pid }
  | .registerAddressResolver resolver =>
    { s with registry := { s.registry with remoteHandlers := s.registry.remoteHandlers ++ [resolver] } }
  | .pidSend kind pid message => s.pidSend kind pid message
  | .send pid message => s.send pid message
  | .stop pid => s.stop pid
  | .respond messageOrEnvelope response => s.respond messageOrEnvelope response
  | .localSend kind pid message => s.localSend kind pid message
  | .deadLetterSend kind pid message => s.deadLetterSend kind pid message
  | .newDeadLetterProcess => s.newDeadLetterProcess
  | .subscribeToTopologyEvents => s.subscribeToTopologyEvents
  | .startManager k => s.startManager k
  | .stopManager k => s.stopManager k
  | .newMemberList k => s.newMemberList k
  | .deleteMemberList k => s.deleteMemberList k
  | .updateTopology k topology => s.updateTopology k topology

def step : Machine (State U K M P) (Label U K M P) := fun s l =>
  match s.fault with
  | some _ => none
  | none => some (s.perform l)

/-- `ActorSystem::New`. -/
def start : State U K M P where
  stopped := false
  registry := ((ProcessRegistry.new (some .deadLetter)).add (some .deadLetter) "deadletter").2
  eventStream := some ((EventStream.new.subscribeAs .deadLetterResponse).subscribeAs .deadLetterWatch)
  guardians := true
  extensions := true
  managers := fun _ => ⟨false, none⟩
  memberLists := fun _ => none
  published := []
  fault := none

end Protoactor.Actor.Teardown
