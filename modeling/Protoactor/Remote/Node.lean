import Protoactor.Remote.EndpointManager

/-!
# Nodes (`src/remote/remote.cpp`, `src/remote/remote_process.cpp`, `src/actor/pid.cpp`)

An actor system with the remote that was started for it, and what is done on it until a message
is sent. Two things never change on a node, whatever is done: starting a remote computes an address
and leaves that of the registry as it is (`run_address`), and no endpoint gets a writer or a
watcher (`run_bare`).
-/

namespace Protoactor.Remote
set_option autoImplicit false
open Actor (Ptr Header ProcessRegistry localAddress unwrapEnvelope)

variable {Q U K : Type}

/-- `Config`, without the kinds. -/
structure Config where
  host : String
  port : Int
  advertisedHost : String
  endpointWriterBatchSize : Int
  endpointWriterQueueSize : Int
  endpointManagerBatchSize : Int
  endpointManagerQueueSize : Int
  maxRetryCount : Int
  deriving DecidableEq, Repr

namespace Config

def new : Config where
  host := "localhost"
  port := 8080
  advertisedHost := ""
  endpointWriterBatchSize := 1000
  endpointWriterQueueSize := 1000000
  endpointManagerBatchSize := 1000
  endpointManagerQueueSize := 1000000
  maxRetryCount := 5

def address (config : Config) : String := config.host ++ ":" ++ toString config.port

end Config

/-- An actor system with its remote, the configuration and the endpoint manager. -/
structure Node (Q : Type) where
  registry : ProcessRegistry (Process Q)
  remote : Option (Config × EndpointManager)

namespace Node

/-- `ActorSystem::New`, with the dead letter process under its name. -/
def new (deadLetter : Q) : Node Q :=
  ⟨((ProcessRegistry.new (.actor deadLetter)).add (.actor deadLetter) "deadletter").2, none⟩

/-- `Remote::Start`; `Initialize` reads the address of the configuration and drops it. -/
def start (host : String) (port : Int) (configOptions : List (Config → Config)) (n : Node Q) : Node Q :=
  let config := configOptions.foldl (fun config opt => opt config) { Config.new with host := host, port := port }
  let _address := config.address
  { n with remote := some (config, .new) }

/-- A call of the endpoint manager, if there is a remote. -/
def withManager (n : Node Q) (call : EndpointManager → List (Effect Q U K) × EndpointManager) : List (Effect Q U K) × Node Q :=
  match n.remote with
  | none => ([], n)
  | some (config, manager) =>
    let (effects, manager) := call manager
    (effects, { n with remote := some (config, manager) })

/-- `Remote::SendMessage`; the endpoint manager gets neither the header nor the serializer id. -/
def sendMessage (pid : Option Actor.PID) (header : Option Header) (message : Ptr U K) (sender : Option Actor.PID)
    (_serializerId : Int) (n : Node Q) : List (Effect Q U K) × Node Q :=
  match pid with
  | none => ([], n)
  | some pid =>
    if pid.address = "" then
      match n.registry.getLocal pid.id with
      | (process, true) =>
        if header.isSome ∨ sender.isSome then ([.sendUserMessage process pid (.envelope header message sender)], n)
        else ([.sendUserMessage process pid message], n)
      | (_, false) => ([], n)
    else n.withManager (EndpointManager.remoteDeliver (some pid) message sender)

/-- `RemoteProcess::SendUserMessage`. -/
def remoteSendUserMessage (pid : Actor.PID) (message : Ptr U K) (n : Node Q) : List (Effect Q U K) × Node Q :=
  let (header, msg, sender) := unwrapEnvelope message
  n.sendMessage (some pid) header msg sender (-1)

/-- `RemoteProcess::SendSystemMessage`. -/
def remoteSendSystemMessage (pid : Actor.PID) (message : Ptr U K) (n : Node Q) : List (Effect Q U K) × Node Q :=
  match message with
  | .watch (some watcher) => n.withManager (EndpointManager.remoteWatch n.registry watcher (some pid))
  | .unwatch (some watcher) => n.withManager (EndpointManager.remoteUnwatch watcher (some pid))
  | _ => n.sendMessage (some pid) none message none (-1)

/-- `PID::SendUserMessage`. -/
def sendUserMessage (pid : Actor.PID) (message : Ptr U K) (n : Node Q) : List (Effect Q U K) × Node Q :=
  match (n.registry.get (some pid)).1 with
  | .actor process => ([.sendUserMessage (.actor process) pid message], n)
  | .remote _ => n.remoteSendUserMessage pid message

/-- `PID::SendSystemMessage`. -/
def sendSystemMessage (pid : Actor.PID) (message : Ptr U K) (n : Node Q) : List (Effect Q U K) × Node Q :=
  match (n.registry.get (some pid)).1 with
  | .actor process => ([.sendSystemMessage (.actor process) pid message], n)
  | .remote _ => n.remoteSendSystemMessage pid message

end Node

/-! ## Runs -/

/-- What is done on a node; an endpoint event connects or removes. -/
inductive Op (Q U K : Type) where
  | start (host : String) (port : Int) (configOptions : List (Config → Config))
  | nextID
  | add (process : Process Q) (id : String)
  | remove (pid : Option Actor.PID)
  | clear
  | registerAddressResolver (resolver : Actor.PID → Option (Process Q))
  | sendUserMessage (pid : Actor.PID) (message : Ptr U K)
  | sendSystemMessage (pid : Actor.PID) (message : Ptr U K)
  | sendMessage (pid : Option Actor.PID) (header : Option Header) (message : Ptr U K) (sender : Option Actor.PID) (serializerId : Int)
  | remoteTerminate (watcher : Actor.PID) (watchee : Option Actor.PID)
  | ensureConnected (address : String)
  | removeEndpoint (address : String)
  | shutdown

namespace Node

def perform (n : Node Q) : Op Q U K → Node Q
  | .start host port configOptions => n.start host port configOptions
  | .nextID => { n with registry := n.registry.nextID.2 }
  | .add process id => { n with registry := (n.registry.add process id).2 }
  | .remove pid => { n with registry := n.registry.remove pid }
  | .clear => { n with registry := n.registry.clear }
  | .registerAddressResolver resolver =>
    { n with registry := { n.registry with remoteHandlers := n.registry.remoteHandlers ++ [resolver] } }
  | .sendUserMessage pid message => (n.sendUserMessage pid message).2
  | .sendSystemMessage pid message => (n.sendSystemMessage pid message).2
  | .sendMessage pid header message sender serializerId => (n.sendMessage pid header message sender serializerId).2
  | .remoteTerminate watcher watchee =>
    (n.withManager (fun m => (m.remoteTerminate n.registry watcher watchee : List (Effect Q U K) × EndpointManager))).2
  | .ensureConnected address => (n.withManager (fun m => (([] : List (Effect Q U K)), (m.ensureConnected address).2))).2
  | .removeEndpoint address => (n.withManager (fun m => (([] : List (Effect Q U K)), m.removeEndpoint address))).2
  | .shutdown => (n.withManager (fun m => (([] : List (Effect Q U K)), m.stop))).2

def run (n : Node Q) (ops : List (Op Q U K)) : Node Q := ops.foldl perform n

/-- What is kept by every operation holds after every run. -/
theorem run_keeps {kept : Node Q → Prop} (keeps : ∀ n (op : Op Q U K), kept n → kept (n.perform op)) {n : Node Q} (now : kept n)
    (ops : List (Op Q U K)) : kept (n.run ops) := by
  induction ops generalizing n with
  | nil => exact now
  | cons op ops ih => exact ih (keeps n op now)

/-! ## The address of the registry -/

theorem withManager_registry (n : Node Q) (call : EndpointManager → List (Effect Q U K) × EndpointManager) :
    (n.withManager call).2.registry = n.registry := by
  unfold withManager
  split <;> rfl

theorem sendMessage_registry (pid : Option Actor.PID) (header : Option Header) (message : Ptr U K) (sender : Option Actor.PID)
    (serializerId : Int) (n : Node Q) : (n.sendMessage pid header message sender serializerId).2.registry = n.registry := by
  unfold sendMessage
  split
  · rfl
  · split
    · split
      · split <;> rfl
      · rfl
    · exact withManager_registry n _

theorem sendUserMessage_registry (pid : Actor.PID) (message : Ptr U K) (n : Node Q) :
    (n.sendUserMessage pid message).2.registry = n.registry := by
  unfold sendUserMessage
  split
  · rfl
  · exact sendMessage_registry ..

theorem sendSystemMessage_registry (pid : Actor.PID) (message : Ptr U K) (n : Node Q) :
    (n.sendSystemMessage pid message).2.registry = n.registry := by
  unfold sendSystemMessage
  split
  · rfl
  · unfold remoteSendSystemMessage
    split
    · exact withManager_registry n _
    · exact withManager_registry n _
    · exact sendMessage_registry ..

theorem perform_address (n : Node Q) (op : Op Q U K) : (n.perform op).registry.address = n.registry.address := by
  cases op with
  | start => rfl
  | nextID => rfl
  | add process id =>
    simp only [perform, ProcessRegistry.add]
    split <;> rfl
  | remove pid => cases pid <;> rfl
  | clear => rfl
  | registerAddressResolver => rfl
  | sendUserMessage pid message => exact congrArg ProcessRegistry.address (sendUserMessage_registry pid message n)
  | sendSystemMessage pid message => exact congrArg ProcessRegistry.address (sendSystemMessage_registry pid message n)
  | sendMessage pid header message sender serializerId =>
    exact congrArg ProcessRegistry.address (sendMessage_registry pid header message sender serializerId n)
  | remoteTerminate => exact congrArg ProcessRegistry.address (withManager_registry n _)
  | ensureConnected => exact congrArg ProcessRegistry.address (withManager_registry n _)
  | removeEndpoint => exact congrArg ProcessRegistry.address (withManager_registry n _)
  | shutdown => exact congrArg ProcessRegistry.address (withManager_registry n _)

/-- **No run gives a registry an address.** -/
theorem run_address (deadLetter : Q) (ops : List (Op Q U K)) : ((new deadLetter).run ops).registry.address = localAddress :=
  run_keeps (fun n op home => (n.perform_address op).trans home) (rfl : (new deadLetter).registry.address = localAddress) ops

/-! ## The endpoints of the manager -/

/-- The remote has no endpoint with an actor. -/
def Bare (n : Node Q) : Prop := ∀ config manager, n.remote = some (config, manager) → manager.Bare

theorem Bare.withManager {n : Node Q} (bare : n.Bare) {call : EndpointManager → List (Effect Q U K) × EndpointManager}
    (keeps : ∀ m, m.Bare → (call m).2.Bare) : (n.withManager call).2.Bare := by
  unfold Node.withManager
  split
  · exact bare
  · rename_i config manager started
    intro config' manager' same
    cases same
    exact keeps manager (bare config manager started)

theorem Bare.sendMessage {n : Node Q} (bare : n.Bare) (pid : Option Actor.PID) (header : Option Header) (message : Ptr U K)
    (sender : Option Actor.PID) (serializerId : Int) : (n.sendMessage pid header message sender serializerId).2.Bare := by
  unfold Node.sendMessage
  split
  · exact bare
  · split
    · split
      · split <;> exact bare
      · exact bare
    · exact bare.withManager fun m kept => kept.remoteDeliver _ _ _

theorem Bare.sendUserMessage {n : Node Q} (bare : n.Bare) (pid : Actor.PID) (message : Ptr U K) :
    (n.sendUserMessage pid message).2.Bare := by
  unfold Node.sendUserMessage
  split
  · exact bare
  · exact bare.sendMessage _ _ _ _ _

theorem Bare.sendSystemMessage {n : Node Q} (bare : n.Bare) (pid : Actor.PID) (message : Ptr U K) :
    (n.sendSystemMessage pid message).2.Bare := by
  unfold Node.sendSystemMessage
  split
  · exact bare
  · unfold remoteSendSystemMessage
    split
    · exact bare.withManager fun m kept => kept.remoteWatch _ _ _
    · exact bare.withManager fun m kept => kept.remoteUnwatch _ _
    · exact bare.sendMessage _ _ _ _ _

theorem Bare.perform {n : Node Q} (op : Op Q U K) (bare : n.Bare) : (n.perform op).Bare := by
  cases op with
  | start host port configOptions =>
    intro config manager same
    cases same
    exact fun _ _ known => absurd known (by simp [EndpointManager.new])
  | nextID => exact bare
  | add process id => exact bare
  | remove pid => exact bare
  | clear => exact bare
  | registerAddressResolver => exact bare
  | sendUserMessage pid message => exact bare.sendUserMessage pid message
  | sendSystemMessage pid message => exact bare.sendSystemMessage pid message
  | sendMessage pid header message sender serializerId => exact bare.sendMessage pid header message sender serializerId
  | remoteTerminate watcher watchee => exact bare.withManager fun m kept => kept.remoteTerminate _ _ _
  | ensureConnected address => exact bare.withManager fun m kept => kept.ensureConnected address
  | removeEndpoint address => exact bare.withManager fun m kept => kept.removeEndpoint address
  | shutdown => exact bare.withManager fun m kept => kept.stop

/-- **No run gives an endpoint a writer or a watcher.** -/
theorem run_bare (deadLetter : Q) (ops : List (Op Q U K)) : ((new deadLetter).run ops).Bare :=
  run_keeps (fun _ op bare => bare.perform op) (fun _ _ none => absurd none (by simp [new])) ops

end Node

end Protoactor.Remote
