import Protoactor.Actor.EventStream
import Protoactor.Actor.DeadLetter

/-!
# The subscribers of the framework (`src/actor/deadletter.cpp`, `src/cluster/member_list.cpp`,
`src/cluster/cluster.cpp`, `src/remote/endpoint_manager.cpp`)

Four modules subscribe to the one event stream of a system, and every event is a
`std::shared_ptr<void>`. An `Event` is such a pointer with the dynamic type of the object, a
`static_pointer_cast` to a type that the object does not have is a `Miscast`, and nothing is said
about what happens after one.

Sends and publishes made by a handler are listed as effects: a dead letter or a topology
that is published in turn is an event of its own.
-/

namespace Protoactor.Actor.EventStream
set_option autoImplicit false

variable {U K M : Type}

/-- `ClusterTopology`; `M` stands for the pointers to members. -/
structure ClusterTopology (M : Type) where
  members : List M
  left : List M
  blocked : List String
  deriving DecidableEq, Repr

/-- What can be published. The number and the member of a `GossipUpdate` are read by nobody here. -/
inductive Event (U K M : Type) where
  | null
  | deadLetter (event : DeadLetterProcess.Event U K)
  | clusterTopology (topology : ClusterTopology M)
  | gossipUpdate (key : String) (value : Event U K M)
  | endpointTerminated (address : String)
  | endpointConnected (address : String)
  /-- any other object; `systemMessage` tells whether it is a `SystemMessage` -/
  | object (systemMessage : Bool)
  deriving DecidableEq, Repr

/-- The type that was asked for in vain. -/
inductive Miscast where
  | deadLetterEvent
  | systemMessage
  | watch
  | clusterTopology
  deriving DecidableEq, Repr

/-! ## Casts -/

namespace Event

def isNull : Event U K M → Bool
  | .null => true
  | _ => false

/-- The pointer is null or points to a `SystemMessage`. -/
def isSystem : Event U K M → Bool
  | .deadLetter _ => false
  | .object systemMessage => systemMessage
  | _ => true

/-- `std::static_pointer_cast<DeadLetterEvent>`. -/
def asDeadLetterEvent : Event U K M → Except Miscast (Option (DeadLetterProcess.Event U K))
  | .null => .ok none
  | .deadLetter event => .ok (some event)
  | _ => .error .deadLetterEvent

/-- `std::static_pointer_cast<SystemMessage>`. -/
def asSystemMessage (evt : Event U K M) : Except Miscast (Event U K M) :=
  if evt.isSystem then .ok evt else .error .systemMessage

/-- `std::static_pointer_cast<ClusterTopology>` of a `SystemMessage`. -/
def asClusterTopology : Event U K M → Except Miscast (Option (ClusterTopology M))
  | .null => .ok none
  | .clusterTopology topology => .ok (some topology)
  | _ => .error .clusterTopology

/-- `std::dynamic_pointer_cast<GossipUpdate>`. -/
def toGossipUpdate : Event U K M → Option (String × Event U K M)
  | .gossipUpdate key value => some (key, value)
  | _ => none

/-- `std::dynamic_pointer_cast<ClusterTopology>`. -/
def toClusterTopology : Event U K M → Option (ClusterTopology M)
  | .clusterTopology topology => some topology
  | _ => none

/-- `std::dynamic_pointer_cast<EndpointTerminatedEvent>`. -/
def toEndpointTerminated : Event U K M → Option String
  | .endpointTerminated address => some address
  | _ => none

/-- `std::dynamic_pointer_cast<EndpointConnectedEvent>`. -/
def toEndpointConnected : Event U K M → Option String
  | .endpointConnected address => some address
  | _ => none

end Event

/-- `std::static_pointer_cast<Watch>`, and its watcher. -/
def asWatch : Ptr U K → Except Miscast (Option PID)
  | .null => .ok none
  | .watch watcher => .ok watcher
  | _ => .error .watch

/-! ## Handlers -/

/-- One for each `Subscribe` of the framework. -/
inductive Subscriber where
  | deadLetterResponse
  | deadLetterWatch
  | memberList
  | cluster
  | endpointManager
  deriving DecidableEq, Repr

/-- What a handler does. -/
inductive Effect (U K M : Type) where
  | send (s : DeadLetterProcess.Send U K)
  | setMembers (members : List M)
  | publish (topology : ClusterTopology M)
  | removeEndpoint (address : String)
  | ensureConnected (address : String)
  deriving DecidableEq, Repr

/-- `MemberList::UpdateTopology`. -/
def updateTopology : Option (ClusterTopology M) → List (Effect U K M)
  | none => []
  | some topology => [.setMembers topology.members, .publish topology]

/-- `MemberList::HandleGossipUpdate`. -/
def handleGossipUpdate (update : Event U K M) : Except Miscast (List (Effect U K M)) := do
  let message ← update.asSystemMessage
  match message.toGossipUpdate with
  | none => return []
  | some (key, value) =>
    if key = "topology" ∧ value.isNull = false then
      let message ← value.asSystemMessage
      let topology ← message.asClusterTopology
      return updateTopology topology
    else return []

def handler : Subscriber → Event U K M → Except Miscast (List (Effect U K M))
  | .deadLetterResponse, evt => do
    match ← evt.asDeadLetterEvent with
    | none => return []
    | some deadLetter => return (deadLetter.sender.toList.map (DeadLetterProcess.response deadLetter)).map .send
  | .deadLetterWatch, evt => do
    match ← evt.asDeadLetterEvent with
    | none => return []
    | some deadLetter =>
      let watcher ← asWatch deadLetter.message
      return (watcher.toList.map (DeadLetterProcess.terminated deadLetter)).map .send
  | .memberList, evt => handleGossipUpdate evt
  | .cluster, evt => do
    -- the loop over the members that left is empty
    let _ ← evt.asSystemMessage
    return []
  | .endpointManager, evt => do
    let message ← evt.asSystemMessage
    match message.toEndpointTerminated with
    | some address => return [.removeEndpoint address]
    | none =>
      let message ← evt.asSystemMessage
      match message.toEndpointConnected with
      | some address => return [.ensureConnected address]
      | none => return []

/-- The subscribers without a predicate get every event. -/
def predicate : Subscriber → Option (Event U K M → Except Miscast Bool)
  | .deadLetterResponse | .deadLetterWatch => none
  | .memberList => some fun evt => do return (← evt.asSystemMessage).toGossipUpdate.isSome
  | .cluster => some fun evt => do return (← evt.asSystemMessage).toClusterTopology.isSome
  | .endpointManager => some fun evt => do
    if (← evt.asSystemMessage).toEndpointTerminated.isSome then return true
    return (← evt.asSystemMessage).toEndpointConnected.isSome

/-- The body of the loop in `Publish`. -/
def notify (evt : Event U K M) (sub : Subscriber) : Except Miscast (List (Effect U K M)) := do
  match predicate sub with
  | none => handler sub evt
  | some accepts => if ← accepts evt then handler sub evt else return []

/-- `Publish` to the active subscribers, each effect with the one it comes from. -/
def publishTo (evt : Event U K M) : List Subscriber → Except Miscast (List (Subscriber × Effect U K M))
  | [] => .ok []
  | sub :: subs => do
    let effects ← notify evt sub
    let rest ← publishTo evt subs
    return effects.map (sub, ·) ++ rest

/-! ## Own events -/

/-- The event is one that the subscriber is for. -/
def own : Subscriber → Event U K M → Bool
  | .deadLetterResponse, .deadLetter _ | .deadLetterWatch, .deadLetter _ => true
  | .memberList, .gossipUpdate _ _ => true
  | .cluster, .clusterTopology _ => true
  | .endpointManager, .endpointTerminated _ | .endpointManager, .endpointConnected _ => true
  | _, _ => false

/-- The message of a dead letter can be cast to `Watch`. -/
def fitsWatch : Ptr U K → Bool
  | .null | .watch _ => true
  | _ => false

/-- The value of a `GossipUpdate` can be cast to `ClusterTopology`. -/
def fitsTopology : Event U K M → Bool
  | .null | .clusterTopology _ => true
  | _ => false

/-- The types of the event and of what it carries are those that the subscriber casts to. -/
def fits (evt : Event U K M) : Subscriber → Bool
  | .deadLetterResponse => evt.isNull || own .deadLetterResponse evt
  | .deadLetterWatch =>
    match evt with
    | .null => true
    | .deadLetter deadLetter => fitsWatch deadLetter.message
    | _ => false
  | .memberList =>
    match evt with
    | .gossipUpdate key value => key ≠ "topology" || fitsTopology value
    | evt => evt.isSystem
  | .cluster | .endpointManager => evt.isSystem

/-- Every cast of every subscriber is right, and whatever is done is done by one that the
event is for. -/
def TouchesOwn (evt : Event U K M) (subs : List Subscriber) : Prop :=
  ∃ effects, publishTo evt subs = .ok effects ∧ ∀ sub effect, (sub, effect) ∈ effects → own sub evt = true

end Protoactor.Actor.EventStream
