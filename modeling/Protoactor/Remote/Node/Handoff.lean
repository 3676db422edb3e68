import Protoactor.Remote.Node

/-!
# From a PID to the endpoint manager (`src/remote/remote_process.cpp`, `Remote::SendMessage` in `src/remote/remote.cpp`)

What becomes of a message to a foreign PID: the registry asks its resolvers for a `RemoteProcess`,
that unwraps the message for `Remote::SendMessage`, and the endpoint manager makes a record for the
writer of the endpoint. The header and the serializer id are lost at the last step whatever the
endpoint is, and on the nodes that can be reached there is no endpoint with a writer to start with.
-/

namespace Protoactor.Remote
set_option autoImplicit false
open Actor (Ptr Header ProcessRegistry localAddress)

variable {Q U K : Type}

/-! ## What is handed on -/

/-- The records for writers. -/
def records (effects : List (Effect Q U K)) : List (RemoteDeliver Actor.PID (Ptr U K)) :=
  effects.filterMap fun
    | .remoteDeliver _ deliver => some deliver
    | _ => none

/-- The watches for watchers of endpoints. -/
def watches (effects : List (Effect Q U K)) : List (Actor.PID × Actor.PID) :=
  effects.filterMap fun
    | .remoteWatch _ watcher watchee => some (watcher, watchee)
    | _ => none

def unwatches (effects : List (Effect Q U K)) : List (Actor.PID × Actor.PID) :=
  effects.filterMap fun
    | .remoteUnwatch _ watcher watchee => some (watcher, watchee)
    | _ => none

theorem watches_sendLocal (registry : ProcessRegistry (Process Q)) (pid : Actor.PID) (message : Ptr U K) :
    watches (sendLocal registry pid message) = [] := by
  unfold sendLocal
  split <;> rfl

namespace Node

/-- A user message to a PID becomes one record with all of its parts. -/
def UserIntact (n : Node Q) (p : Actor.PID) (header : Option Header) (message : Ptr U K) (sender : Option Actor.PID) : Prop :=
  records (n.sendUserMessage p (.envelope header message sender)).1 = [⟨header, message, some p, sender, -1⟩]

/-- So does what is given to `Remote::SendMessage`. -/
def MessageIntact (n : Node Q) (p : Actor.PID) (header : Option Header) (message : Ptr U K) (sender : Option Actor.PID)
    (serializerId : Int) : Prop :=
  records (n.sendMessage (some p) header message sender serializerId).1 = [⟨header, message, some p, sender, serializerId⟩]

/-- A `Watch` becomes one `RemoteWatch`. -/
def WatchIntact (U K : Type) (n : Node Q) (p watcher : Actor.PID) : Prop :=
  watches (n.sendSystemMessage p (.watch (some watcher) : Ptr U K)).1 = [(watcher, p)]

def UnwatchIntact (U K : Type) (n : Node Q) (p watcher : Actor.PID) : Prop :=
  unwatches (n.sendSystemMessage p (.unwatch (some watcher) : Ptr U K)).1 = [(watcher, p)]

/-- The actor of an endpoint of this node. -/
def actor (n : Node Q) (role : Endpoint → Option Actor.PID) (address : String) : Option Actor.PID :=
  match n.remote with
  | none => none
  | some (_, manager) => manager.actor role address

/-! ## For any state of the endpoints -/

theorem sendMessage_records (n : Node Q) (p : Actor.PID) (header : Option Header) (message : Ptr U K) (sender : Option Actor.PID)
    (serializerId : Int) :
    records (n.sendMessage (some p) header message sender serializerId).1 =
      if p.address = "" then []
      else match n.actor Endpoint.writer p.address with
        | none => []
        | some _ => [⟨none, message, some p, sender, -1⟩] := by
  simp only [sendMessage, withManager, actor]
  by_cases here : p.address = ""
  · simp only [if_pos here]
    split
    · split <;> rfl
    · rfl
  · simp only [if_neg here]
    cases n.remote with
    | none => rfl
    | some remote =>
      simp only [EndpointManager.remoteDeliver_eq, if_neg here]
      cases remote.2.actor Endpoint.writer p.address <;> rfl

/-- **What `Remote::SendMessage` keeps** of a message. -/
theorem messageIntact_iff (n : Node Q) (p : Actor.PID) (header : Option Header) (message : Ptr U K) (sender : Option Actor.PID)
    (serializerId : Int) :
    n.MessageIntact p header message sender serializerId ↔
      p.address ≠ "" ∧ (n.actor Endpoint.writer p.address).isSome ∧ header = none ∧ serializerId = -1 := by
  unfold MessageIntact
  rw [sendMessage_records]
  by_cases here : p.address = ""
  · simp [here]
  · rw [if_neg here]
    cases n.actor Endpoint.writer p.address with
    | none => simp
    | some writer =>
      constructor
      · intro same
        cases same
        exact ⟨here, rfl, rfl, rfl⟩
      · rintro ⟨_, _, rfl, rfl⟩
        rfl

/-- A message through a PID gets there if a resolver knows the address. -/
theorem userIntact_iff (n : Node Q) (p : Actor.PID) (header : Option Header) (message : Ptr U K) (sender : Option Actor.PID) :
    n.UserIntact p header message sender ↔
      (∃ q, (n.registry.get (some p)).1 = .remote q) ∧ n.MessageIntact p header message sender (-1) := by
  unfold UserIntact sendUserMessage
  cases (n.registry.get (some p)).1 with
  | actor process => simp [records]
  | remote q => exact ⟨fun intact => ⟨⟨q, rfl⟩, intact⟩, fun both => both.2⟩

/-- The watcher of the endpoint, if the message gets as far. -/
def resolvedWatcher (n : Node Q) (p : Actor.PID) : Option Actor.PID :=
  match (n.registry.get (some p)).1 with
  | .actor _ => none
  | .remote _ => if p.address = "" then none else n.actor Endpoint.watcher p.address

theorem watchIntact_iff (n : Node Q) (p watcher : Actor.PID) : n.WatchIntact U K p watcher ↔ (n.resolvedWatcher p).isSome := by
  unfold WatchIntact sendSystemMessage resolvedWatcher
  cases (n.registry.get (some p)).1 with
  | actor process => simp [watches]
  | remote q =>
    simp only [remoteSendSystemMessage, withManager, actor]
    cases n.remote with
    | none => simp [watches]
    | some remote =>
      simp only [EndpointManager.remoteWatch_eq]
      by_cases stopped : remote.2.stopped
      · simp [stopped, watches_sendLocal, EndpointManager.actor]
      · by_cases here : p.address = ""
        · simp [stopped, here, watches]
        · simp only [if_neg stopped, if_neg here]
          cases remote.2.actor Endpoint.watcher p.address with
          | none => simp [watches_sendLocal]
          | some endpointWatcher => simp [watches]

theorem unwatchIntact_iff (n : Node Q) (p watcher : Actor.PID) : n.UnwatchIntact U K p watcher ↔ (n.resolvedWatcher p).isSome := by
  unfold UnwatchIntact sendSystemMessage resolvedWatcher
  cases (n.registry.get (some p)).1 with
  | actor process => simp [unwatches]
  | remote q =>
    simp only [remoteSendSystemMessage, withManager, actor]
    cases n.remote with
    | none => simp [unwatches]
    | some remote =>
      simp only [EndpointManager.remoteUnwatch_eq]
      by_cases here : p.address = ""
      · simp [here, unwatches]
      · simp only [if_neg here]
        cases remote.2.actor Endpoint.watcher p.address <;> simp [unwatches]

/-! ## On the nodes that there are -/

theorem Bare.actor {n : Node Q} (bare : n.Bare) {role : Endpoint → Option Actor.PID} (fresh : role ⟨none, none⟩ = none)
    (address : String) : n.actor role address = none := by
  unfold Node.actor
  split
  · rfl
  · rename_i config manager started
    exact (bare config manager started).actor fresh address

theorem Bare.resolvedWatcher {n : Node Q} (bare : n.Bare) (p : Actor.PID) : n.resolvedWatcher p = none := by
  unfold Node.resolvedWatcher
  split
  · rfl
  · split
    · rfl
    · exact bare.actor rfl p.address

/-- **Nothing gets to an endpoint**: after no run, and to no PID. -/
theorem never_intact (deadLetter : Q) (ops : List (Op Q U K)) (p : Actor.PID) (header : Option Header) (message : Ptr U K)
    (sender : Option Actor.PID) (serializerId : Int) (watcher : Actor.PID) :
    let n := (new deadLetter).run ops
    ¬ n.UserIntact p header message sender ∧ ¬ n.MessageIntact p header message sender serializerId ∧
      ¬ n.WatchIntact U K p watcher ∧ ¬ n.UnwatchIntact U K p watcher := by
  intro n
  have bare : n.Bare := run_bare deadLetter ops
  have lost : ∀ serializerId, ¬ n.MessageIntact p header message sender serializerId := by
    intro id intact
    have written := ((messageIntact_iff ..).1 intact).2.1
    rw [bare.actor rfl] at written
    cases written
  refine ⟨fun intact => lost (-1) ((userIntact_iff ..).1 intact).2, lost serializerId, fun intact => ?_, fun intact => ?_⟩
  · have watched := (watchIntact_iff ..).1 intact
    rw [bare.resolvedWatcher] at watched
    cases watched
  · have watched := (unwatchIntact_iff ..).1 intact
    rw [bare.resolvedWatcher] at watched
    cases watched

/-- A node with a remote, and a message from one of its actors to an address of another. -/
theorem started_not_intact :
    let n := (new "deadletter").run [(.start "localhost" 8080 [] : Op String String Unit)]
    n.remote.map (fun remote => remote.2.stopped) = some false ∧
      ¬ n.UserIntact ⟨0, "localhost:8081", "remote"⟩ none (.user "hello" : Ptr String Unit) (some ⟨1, "nonhost", "1$"⟩) := by
  refine ⟨rfl, ?_⟩
  unfold UserIntact
  decide

end Node

end Protoactor.Remote
