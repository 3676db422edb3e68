import Mathlib.Data.List.Infix
import Mathlib.Data.List.TakeWhile
import Protoactor.Remote.Batch
import Protoactor.Remote.Node

/-!
# Reading a batch (`GrpcService::HandleMessageBatch` in `src/remote/grpc_service.cpp`, `src/remote/endpoint_reader.cpp`)

The other end of the stream: each envelope is looked up in the tables of its batch, decoded, and
handed to the endpoint manager, to a local process, or to `RootContext::Send`. A batch that was
built by the writer is read back entry by entry (`eachEnvelope_batchOf`). What comes out is what
went in exactly for entries with a serializer id of their own, no header and no sender: the id for
the default serializer is written as it is and not found again, headers are not written at all,
and the envelope with the sender is put in another one by `Send`. A system message also needs a
process to go to, and `Terminated` an endpoint manager that has not been stopped.
-/

namespace Protoactor.Remote
set_option autoImplicit false
open Lib
open Actor (Ptr Header ProcessRegistry)

variable {P Q M U K : Type}

/-! ## The node of the reader -/

/-- What a reader finds on its node: the registry, and the endpoint manager of the remote, none of
whose endpoints has an actor (`Node.run_bare`). -/
structure Host (Q : Type) where
  registry : ProcessRegistry (Process Q)
  manager : EndpointManager
  bare : manager.Bare

/-- A node after any operations, if it has a remote. -/
def Node.host (deadLetter : Q) (ops : List (Op Q U K)) : Option (Host Q) :=
  let n := (Node.new deadLetter).run ops
  match started : n.remote with
  | none => none
  | some (config, manager) => some ⟨n.registry, manager, Node.run_bare deadLetter ops config manager started⟩

/-- `GetLocal` finds a process. -/
def Host.found (host : Host Q) (id : String) : Bool := (host.registry.getLocal id).2

/-! ## The reader -/

/-- A message on the receiving node: one that was decoded, or an envelope around one. -/
inductive Content (U K : Type) where
  | message (message : Ptr U K)
  | envelope (header : Option Header) (message : Content U K) (sender : Option PID)
  deriving DecidableEq, Repr

/-- What is done with a message: `user` is the envelope that the process of the target is given,
`system` what it is given as a system message. -/
inductive Delivery (U K : Type) where
  | user (target : PID) (header : Option Header) (message : Content U K) (sender : Option PID)
  | system (target : PID) (message : Ptr U K)
  deriving DecidableEq, Repr

/-- What was done before a call returned or was left by an exception, and the node after it. -/
structure Handling (Q U K : Type) where
  deliveries : List (Delivery U K)
  host : Host Q
  left : Bool

/-- `EndpointReader::IsSystemMessage`. -/
def isSystemMessage : Ptr U K → Bool
  | .watch _ | .unwatch _ | .terminated _ _ | .stop | .restart | .started | .stopping | .stopped | .restarting => true
  | _ => false

/-- `RootContext::Send` puts any message in an envelope, also an envelope. -/
def rootSend (target : PID) (message : Content U K) : Delivery U K := .user target none message none

/-- A call of the process of the target; there is no endpoint watcher to hand anything on to. -/
def callOf (target : PID) : Effect Q U K → Option (Delivery U K)
  | .sendSystemMessage _ _ message => some (.system target message)
  | _ => none

/-- `EndpointManager::RemoteTerminate`, with a PID that the reader has made. -/
def terminate (target : PID) (who : Option Actor.PID) (host : Host Q) : Handling Q U K :=
  let call : List (Effect Q U K) × EndpointManager :=
    host.manager.remoteTerminate host.registry ⟨0, target.address, target.id⟩ who
  ⟨call.1.filterMap (callOf target), ⟨host.registry, call.2, host.bare.remoteTerminate host.registry _ who⟩, false⟩

/-- A `std::exception` is logged. -/
def deserializeAndDeliver (registry : SerializerRegistry (Ptr U K)) (data : List UInt8) (typeName : String) (serializerId : Int)
    (target : PID) (sender : Option PID) (host : Host Q) : Handling Q U K :=
  match registry.deserialize data typeName serializerId with
  | .error (.exception _) => ⟨[], host, false⟩
  | .error .other => ⟨[], host, true⟩
  | .ok (.terminated who _) => terminate target who host
  | .ok message =>
    if isSystemMessage message then ⟨if host.found target.id then [.system target message] else [], host, false⟩
    else
      match sender with
      | some sender => ⟨[rootSend target (.envelope none (.message message) (some sender))], host, false⟩
      | none => ⟨[rootSend target (.message message)], host, false⟩

/-- A row of a repeated field, if the index is one. -/
def row {α : Type} (rows : List α) (index : Int) : Option α :=
  if 0 ≤ index ∧ index < rows.length then rows[index.toNat]? else none

/-- The target of an envelope; `address` is the address of the receiving system. -/
def decodeTarget (address : String) (batch : MessageBatch) (envelope : MessageEnvelope) : Option PID :=
  (row batch.targets envelope.target).map fun id =>
    ⟨address, id, if 0 < envelope.targetRequestId then envelope.targetRequestId else 0⟩

/-- Its sender, by a 1-based index. -/
def decodeSender (batch : MessageBatch) (envelope : MessageEnvelope) : Option PID :=
  (row batch.senders (envelope.sender - 1)).map fun pid =>
    ⟨pid.1, pid.2, if 0 < envelope.senderRequestId then envelope.senderRequestId else 0⟩

/-- The body of the loop. -/
def handleEnvelope (registry : SerializerRegistry (Ptr U K)) (batch : MessageBatch) (envelope : MessageEnvelope) (host : Host Q) :
    Handling Q U K :=
  let typeName := (row batch.typeNames envelope.typeId).getD ""
  match decodeTarget host.registry.address batch envelope with
  | none => ⟨[], host, false⟩
  | some target =>
    if typeName = "" then ⟨[], host, false⟩
    else deserializeAndDeliver registry envelope.messageData typeName envelope.serializerId target (decodeSender batch envelope) host

def handleEnvelopes (registry : SerializerRegistry (Ptr U K)) (batch : MessageBatch) : List MessageEnvelope → Host Q → Handling Q U K
  | [], host => ⟨[], host, false⟩
  | envelope :: rest, host =>
    let first := handleEnvelope registry batch envelope host
    if first.left then first
    else
      let later := handleEnvelopes registry batch rest first.host
      { later with deliveries := first.deliveries ++ later.deliveries }

def handleMessageBatch (registry : SerializerRegistry (Ptr U K)) (batch : MessageBatch) (host : Host Q) : Handling Q U K :=
  handleEnvelopes registry batch batch.envelopes host

/-- Whether the exception of an envelope leaves the loop, by the batch alone. -/
def uncaught (registry : SerializerRegistry M) (batch : MessageBatch) (envelope : MessageEnvelope) : Bool :=
  let typeName := (row batch.typeNames envelope.typeId).getD ""
  (row batch.targets envelope.target).isSome && typeName != "" &&
    registry.deserialize envelope.messageData typeName envelope.serializerId matches .error .other

/-! ## What the reader does to its node -/

/-- The same node to a reader. -/
structure Host.Same (host host' : Host Q) : Prop where
  registry : host'.registry = host.registry
  stopped : host'.manager.stopped = host.manager.stopped

theorem Host.Same.refl (host : Host Q) : host.Same host := ⟨rfl, rfl⟩

theorem Host.Same.trans {a b c : Host Q} (first : a.Same b) (second : b.Same c) : a.Same c :=
  ⟨second.registry.trans first.registry, second.stopped.trans first.stopped⟩

/-- A `Terminated` comes to a process that is registered, unless the manager has been stopped. -/
theorem terminate_deliveries (target : PID) (who : Option Actor.PID) (host : Host Q) :
    (terminate target who host : Handling Q U K).deliveries =
      if host.manager.stopped = false ∧ host.found target.id = true then [.system target (.terminated who .stopped)] else [] := by
  unfold terminate
  dsimp only
  rw [host.bare.remoteTerminate_eq]
  cases host.manager.stopped with
  | true => rfl
  | false =>
    unfold sendLocal Host.found
    rcases host.registry.getLocal target.id with ⟨process, _ | _⟩ <;> rfl

theorem terminate_same (target : PID) (who : Option Actor.PID) (host : Host Q) :
    host.Same (terminate target who host : Handling Q U K).host :=
  ⟨rfl, EndpointManager.remoteTerminate_stopped ..⟩

section
variable {registry : SerializerRegistry (Ptr U K)} {data : List UInt8} {typeName : String} {serializerId : Int} {target : PID}
  {sender : Option PID} {batch : MessageBatch} {envelope : MessageEnvelope} {host host' : Host Q}

theorem deserializeAndDeliver_same (registry : SerializerRegistry (Ptr U K)) (data : List UInt8) (typeName : String)
    (serializerId : Int) (target : PID) (sender : Option PID) (host : Host Q) :
    host.Same (deserializeAndDeliver registry data typeName serializerId target sender host).host := by
  unfold deserializeAndDeliver
  repeat' split
  all_goals first | exact .refl host | exact terminate_same ..

/-- Of its node a reader sees the registry and whether the manager has been stopped. -/
theorem Host.Same.deserializeAndDeliver (same : host.Same host') :
    (Remote.deserializeAndDeliver registry data typeName serializerId target sender host').deliveries =
        (Remote.deserializeAndDeliver registry data typeName serializerId target sender host).deliveries ∧
      (Remote.deserializeAndDeliver registry data typeName serializerId target sender host').left =
        (Remote.deserializeAndDeliver registry data typeName serializerId target sender host).left := by
  have found (id : String) : host'.found id = host.found id := by
    unfold Host.found
    rw [same.registry]
  unfold Remote.deserializeAndDeliver
  split
  · exact ⟨rfl, rfl⟩
  · exact ⟨rfl, rfl⟩
  · rw [terminate_deliveries, terminate_deliveries, same.stopped, found]
    exact ⟨rfl, rfl⟩
  · split
    · rw [found]
      exact ⟨rfl, rfl⟩
    · cases sender <;> exact ⟨rfl, rfl⟩

theorem handleEnvelope_same (registry : SerializerRegistry (Ptr U K)) (batch : MessageBatch) (envelope : MessageEnvelope) (host : Host Q) :
    host.Same (handleEnvelope registry batch envelope host).host := by
  unfold handleEnvelope
  dsimp only
  repeat' split
  all_goals first | exact .refl host | exact deserializeAndDeliver_same ..

theorem Host.Same.handleEnvelope (same : host.Same host') :
    (Remote.handleEnvelope registry batch envelope host').deliveries = (Remote.handleEnvelope registry batch envelope host).deliveries ∧
      (Remote.handleEnvelope registry batch envelope host').left = (Remote.handleEnvelope registry batch envelope host).left := by
  unfold Remote.handleEnvelope
  rw [same.registry]
  dsimp only
  split
  · exact ⟨rfl, rfl⟩
  · split
    · exact ⟨rfl, rfl⟩
    · exact same.deserializeAndDeliver

/-- The only way to leave the loop. -/
theorem handleEnvelope_left (registry : SerializerRegistry (Ptr U K)) (batch : MessageBatch) (envelope : MessageEnvelope) (host : Host Q) :
    (handleEnvelope registry batch envelope host).left = uncaught registry batch envelope := by
  unfold handleEnvelope uncaught decodeTarget deserializeAndDeliver
  cases row batch.targets envelope.target with
  | none => rfl
  | some id =>
    by_cases unnamed : (row batch.typeNames envelope.typeId).getD "" = ""
    · simp only [Option.map_some, unnamed, if_true, bne_self_eq_false, Bool.and_false, Bool.false_and]
    · simp only [Option.map_some, if_neg unnamed, Option.isSome_some, bne_iff_ne.2 unnamed, Bool.true_and]
      split
      · rename_i made
        rw [made]
      · rename_i made
        rw [made]
      · rename_i made
        rw [made]
        rfl
      · rename_i made
        rw [made]
        split
        · rfl
        · split <;> rfl

/-- What leaves the loop has delivered nothing. -/
theorem deserializeAndDeliver_left (left : (deserializeAndDeliver registry data typeName serializerId target sender host).left = true) :
    (deserializeAndDeliver registry data typeName serializerId target sender host).deliveries = [] := by
  unfold deserializeAndDeliver at left ⊢
  split at left
  · cases left
  · rfl
  · cases left
  · split at left
    · cases left
    · cases sender <;> cases left

theorem handleEnvelope_uncaught (wild : uncaught registry batch envelope = true) :
    (handleEnvelope registry batch envelope host).deliveries = [] := by
  rw [← handleEnvelope_left registry batch envelope host] at wild
  unfold handleEnvelope at wild ⊢
  dsimp only at wild ⊢
  split at wild
  · rfl
  · split at wild
    · rw [if_pos ‹_›]
    · rw [if_neg ‹_›]
      exact deserializeAndDeliver_left wild

/-- **The loop** up to the envelope that leaves it, each envelope as if it were the only one. -/
theorem handleEnvelopes_eq (registry : SerializerRegistry (Ptr U K)) (batch : MessageBatch) (envelopes : List MessageEnvelope)
    {host host' : Host Q} (same : host.Same host') :
    (handleEnvelopes registry batch envelopes host').deliveries =
        ((envelopes.takeWhile fun e => !uncaught registry batch e).flatMap fun e => (handleEnvelope registry batch e host).deliveries) ∧
      (handleEnvelopes registry batch envelopes host').left = envelopes.any (uncaught registry batch) := by
  induction envelopes generalizing host' with
  | nil => exact ⟨rfl, rfl⟩
  | cons envelope rest ih =>
    obtain ⟨later, left⟩ := ih (same.trans (handleEnvelope_same registry batch envelope host'))
    rw [handleEnvelopes, List.takeWhile_cons, List.any_cons]
    dsimp only
    rw [handleEnvelope_left]
    cases wild : uncaught registry batch envelope with
    | true =>
      rw [if_pos rfl]
      exact ⟨handleEnvelope_uncaught wild, (handleEnvelope_left ..).trans wild⟩
    | false =>
      rw [if_neg nofun]
      exact ⟨by rw [later, same.handleEnvelope.1]; rfl, left⟩

end

/-- The loop is left before its end. -/
def escapes (registry : SerializerRegistry M) (batch : MessageBatch) : Bool := batch.envelopes.any (uncaught registry batch)

/-- What the envelopes give one by one. -/
def eachEnvelope (registry : SerializerRegistry (Ptr U K)) (batch : MessageBatch) (host : Host Q) : List (Delivery U K) :=
  batch.envelopes.flatMap fun e => (handleEnvelope registry batch e host).deliveries

/-- All of them are delivered, or the first. -/
theorem handleMessageBatch_prefix (registry : SerializerRegistry (Ptr U K)) (batch : MessageBatch) (host : Host Q) :
    (handleMessageBatch registry batch host).deliveries <+: eachEnvelope registry batch host := by
  rw [handleMessageBatch, (handleEnvelopes_eq registry batch batch.envelopes (.refl host)).1]
  exact List.IsPrefix.flatMap (List.takeWhile_prefix _) _

theorem handleMessageBatch_whole {registry : SerializerRegistry (Ptr U K)} {batch : MessageBatch} (calm : escapes registry batch = false)
    (host : Host Q) : (handleMessageBatch registry batch host).deliveries = eachEnvelope registry batch host := by
  rw [handleMessageBatch, (handleEnvelopes_eq registry batch batch.envelopes (.refl host)).1, eachEnvelope,
    List.takeWhile_eq_self_iff.2]
  intro e member
  have calm := List.any_eq_false.1 calm e member
  simpa using calm

/-! ## A batch of the writer -/

theorem row_some {α : Type} {rows : List α} {i : Nat} {a : α} (there : rows[i]? = some a) : row rows (i : Int) = some a := by
  have bound := (List.getElem?_eq_some_iff.1 there).1
  unfold row
  rw [if_pos ⟨by omega, by omega⟩, Int.toNat_natCast]
  exact there

theorem row_neg {α : Type} (rows : List α) {index : Int} (negative : index < 0) : row rows index = none := by
  unfold row
  rw [if_neg (by omega)]

/-- What the reader makes of an entry. -/
def outcome (registry : SerializerRegistry (Ptr U K)) (host : Host Q) (pids : P → PID) (e : Encoded P (Ptr U K)) :
    List (Delivery U K) :=
  if e.typeName = "" then []
  else (deserializeAndDeliver registry e.bytes e.typeName (orDefault e.deliver.serializerId)
    ⟨host.registry.address, (pids e.target).id, (pids e.target).requestId⟩ (e.deliver.sender.map pids) host).deliveries

section
variable [DecidableEq P]

/-- The target of an entry comes back with the address of the reader. -/
theorem decodeTarget_envelopeOf (address : String) (pids : P → PID) {sent : List (Encoded P M)} {e : Encoded P M}
    (member : e ∈ sent) :
    decodeTarget address (batchOf pids sent)
        (envelopeOf pids (firsts (typeKeys sent)) (firsts (targetKeys pids sent)) (firsts (senderKeys sent)) e) =
      some ⟨address, (pids e.target).id, (pids e.target).requestId⟩ := by
  have known : (pids e.target).id ∈ firsts (targetKeys pids sent) := mem_firsts.2 (List.mem_map.2 ⟨e, member, rfl⟩)
  simp only [decodeTarget, positive_or_zero]
  simp only [batchOf, envelopeOf, row_some (getElem?_idxOf known), Option.map_some]

/-- The sender comes back as it was. -/
theorem decodeSender_envelopeOf (pids : P → PID) {sent : List (Encoded P M)} {e : Encoded P M} (member : e ∈ sent) :
    decodeSender (batchOf pids sent)
        (envelopeOf pids (firsts (typeKeys sent)) (firsts (targetKeys pids sent)) (firsts (senderKeys sent)) e) =
      e.deliver.sender.map pids := by
  simp only [decodeSender, positive_or_zero]
  simp only [batchOf, envelopeOf]
  cases from_ : e.deliver.sender with
  | none => simp only [row_neg _ (by decide : (0 : Int) - 1 < 0), Option.map_none]
  | some s =>
    have inside : s ∈ firsts (senderKeys sent) := mem_firsts.2 (List.mem_filterMap.2 ⟨e, member, from_⟩)
    have there := congrArg (Option.map (senderRow pids)) (getElem?_idxOf inside)
    rw [← List.getElem?_map] at there
    have position : ((1 + (firsts (senderKeys sent)).idxOf s : Nat) : Int) - 1 = ((firsts (senderKeys sent)).idxOf s : Nat) := by
      omega
    simp only [position, row_some there, Option.map_some, senderRow]

/-- So does the type name. -/
theorem typeName_envelopeOf (pids : P → PID) {sent : List (Encoded P M)} {e : Encoded P M} (member : e ∈ sent) :
    row (batchOf pids sent).typeNames
        (envelopeOf pids (firsts (typeKeys sent)) (firsts (targetKeys pids sent)) (firsts (senderKeys sent)) e).typeId =
      some e.typeName := by
  have typed : e.typeName ∈ firsts (typeKeys sent) := mem_firsts.2 (List.mem_map.2 ⟨e, member, rfl⟩)
  exact row_some (getElem?_idxOf typed)

/-- The tables are read the way they were written. -/
theorem handleEnvelope_envelopeOf (registry : SerializerRegistry (Ptr U K)) (host : Host Q) (pids : P → PID)
    {sent : List (Encoded P (Ptr U K))} {e : Encoded P (Ptr U K)} (member : e ∈ sent) :
    (handleEnvelope registry (batchOf pids sent)
        (envelopeOf pids (firsts (typeKeys sent)) (firsts (targetKeys pids sent)) (firsts (senderKeys sent)) e) host).deliveries =
      outcome registry host pids e := by
  simp only [handleEnvelope, decodeTarget_envelopeOf _ pids member, decodeSender_envelopeOf pids member,
    typeName_envelopeOf pids member, Option.getD_some, outcome]
  simp only [envelopeOf]
  split <;> rfl

/-- **Reading what was written**: the entries that went through, one by one and in their order. -/
theorem eachEnvelope_batchOf (registry : SerializerRegistry (Ptr U K)) (host : Host Q) (pids : P → PID)
    (sent : List (Encoded P (Ptr U K))) :
    eachEnvelope registry (batchOf pids sent) host = sent.flatMap (outcome registry host pids) := by
  unfold eachEnvelope
  conv =>
    lhs
    arg 2
    simp only [batchOf]
  rw [List.flatMap_map]
  exact List.flatMap_congr fun e member => handleEnvelope_envelopeOf registry host pids member

end

/-! ## What arrives -/

namespace Delivery

def target : Delivery U K → PID
  | user target _ _ _ | system target _ => target

def message : Delivery U K → Content U K
  | user _ _ message _ => message
  | system _ message => .message message

def sender : Delivery U K → Option PID
  | user _ _ _ sender => sender
  | system _ _ => none

def header : Delivery U K → Option Header
  | user _ header _ _ => header
  | system _ _ => none

end Delivery

/-- An entry with a target, whose payload the chosen serializer round-trips. -/
structure RoundTrips (registry : SerializerRegistry (Ptr U K)) (d : RemoteDeliver P (Ptr U K)) : Prop where
  target : d.target.isSome
  payload : ∃ serializer bytes typeName,
    (d.serializerId = -1 ∧ registry.getSerializer registry.defaultSerializerId = some serializer ∨
      registry.getSerializer d.serializerId = some serializer) ∧
    serializer.serialize d.message = .ok bytes ∧ serializer.getTypeName d.message = .ok typeName ∧ typeName ≠ "" ∧
    serializer.deserialize typeName bytes = .ok d.message

theorem getSerializer_registered {registry : SerializerRegistry (Ptr U K)} {id : Int} {serializer : Serializer (Ptr U K)}
    (there : registry.getSerializer id = some serializer) : 0 ≤ id := by
  unfold SerializerRegistry.getSerializer at there
  split at there
  · cases there
  · omega

/-- An entry that round-trips goes through. -/
theorem RoundTrips.encode {registry : SerializerRegistry (Ptr U K)} {d : RemoteDeliver P (Ptr U K)}
    (trips : RoundTrips registry d) :
    ∃ e : Encoded P (Ptr U K), Remote.encode registry (some d) = .ok (some e) ∧ e.deliver = d ∧ d.target = some e.target ∧
      e.typeName ≠ "" ∧
      registry.deserialize e.bytes e.typeName (orDefault d.serializerId) =
        if 0 ≤ d.serializerId then .ok d.message else .error (.exception "Serializer not found: -1") := by
  obtain ⟨target, targeted⟩ := Option.isSome_iff_exists.1 trips.target
  obtain ⟨serializer, bytes, typeName, chosen, serialized, named, full, back⟩ := trips.payload
  refine ⟨⟨d, target, bytes, typeName⟩, ?_, rfl, targeted, full, ?_⟩
  · have written : registry.serialize d.message (orDefault d.serializerId) = .ok (bytes, typeName) := by
      unfold SerializerRegistry.serialize
      rcases chosen with ⟨default, there⟩ | there
      · have negative : orDefault d.serializerId < 0 := by rw [default]; decide
        simp only [if_pos negative, there, serialized, named]
        rfl
      · have own := getSerializer_registered there
        have positive : ¬ d.serializerId < 0 := by omega
        simp only [orDefault, if_pos own, if_neg positive, there, serialized, named]
        rfl
    simp only [Remote.encode, targeted, written]
  · unfold SerializerRegistry.deserialize
    rcases chosen with ⟨default, _⟩ | there
    · simp only [default]
      rfl
    · have own := getSerializer_registered there
      simp only [orDefault, if_pos own, there, back]

section
variable {registry : SerializerRegistry (Ptr U K)} {data : List UInt8} {typeName : String} {serializerId : Int} {pids : P → PID}
  {d : RemoteDeliver P (Ptr U K)} {target : P}

end

/-- What arrives for an entry. -/
def arrivals (registry : SerializerRegistry (Ptr U K)) (host : Host Q) (pids : P → PID) (d : RemoteDeliver P (Ptr U K)) :
    List (Delivery U K) :=
  match encoded registry (some d) with
  | none => []
  | some e => outcome registry host pids e

theorem flatMap_outcome (registry : SerializerRegistry (Ptr U K)) (host : Host Q) (pids : P → PID)
    (batch : List (RemoteDeliver P (Ptr U K))) :
    ((batch.map some).filterMap (encoded registry)).flatMap (outcome registry host pids) =
      batch.flatMap (arrivals registry host pids) := by
  induction batch with
  | nil => rfl
  | cons d batch ih =>
    rw [List.map_cons, List.filterMap_cons, List.flatMap_cons, ← ih]
    unfold arrivals
    cases encoded registry (some d) with
    | none => rfl
    | some e => rfl

variable [DecidableEq P]

/-- A serializer for user messages of one byte. -/
def byteSerializer : Serializer (Ptr UInt8 Unit) where
  serialize
    | .user byte => .ok [byte]
    | _ => .error (.exception "not a byte")
  deserialize
    | "Byte", [byte] => .ok (.user byte)
    | _, _ => .error (.exception "not a byte")
  getTypeName
    | .user _ => .ok "Byte"
    | _ => .error (.exception "not a byte")

def byteRegistry : SerializerRegistry (Ptr UInt8 Unit) := (SerializerRegistry.new.registerSerializer byteSerializer).2

/-- A node with a remote and one actor. -/
def byteHost : Host String :=
  (Node.host "deadletter" [(.start "b" 8080 [] : Op String UInt8 Unit), .add (.actor "actor") "$1"]).get (by decide)

end Protoactor.Remote
