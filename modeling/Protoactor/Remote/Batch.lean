import Mathlib.Data.List.Forall2
import Protoactor.Lib.Interning
import Protoactor.Remote.Messages

/-!
# The batch that is sent (`EndpointWriter::SendMessageBatch` in `src/remote/endpoint_writer.cpp`)

The loop that builds a `MessageBatch`. Type names and targets are shared between envelopes by
value, senders by pointer, with indices that start at one. An entry whose serialization throws a
`std::exception` is left before anything has been added for it, so what the loop builds can be told
from the entries that went through. Anything else that is thrown leaves the loop, and the batch
with it (`messageBatch_eq`).
-/

namespace Protoactor.Remote
set_option autoImplicit false
open Lib

variable {P M : Type}

/-- The maps of the loop and what has been added to the message. -/
structure Tables (P : Type) where
  typeNames : Table String String
  targets : Table String String
  senders : Table P (String × String)
  envelopes : List MessageEnvelope

def Tables.empty : Tables P := ⟨.empty, .empty, .empty, []⟩

/-- `serializer_id >= 0 ? serializer_id : -1`. -/
def orDefault (serializerId : Int) : Int := if 0 ≤ serializerId then serializerId else -1

/-- The row of a sender. -/
def senderRow (pids : P → PID) (sender : P) : String × String := ((pids sender).address, (pids sender).id)

/-- An entry that goes through, with what the serializer has made of it. -/
structure Encoded (P M : Type) where
  deliver : RemoteDeliver P M
  target : P
  bytes : List UInt8
  typeName : String

/-- The begin of the loop body: null entries and entries without a target are left out, and
so are those where `Serialize` throws a `std::exception`. -/
def encode (registry : SerializerRegistry M) (deliver : Option (RemoteDeliver P M)) : Except Exception (Option (Encoded P M)) :=
  match deliver with
  | none => .ok none
  | some deliver =>
    match deliver.target with
    | none => .ok none
    | some target =>
      match registry.serialize deliver.message (orDefault deliver.serializerId) with
      | .error (.exception _) => .ok none
      | .error .other => .error .other
      | .ok (bytes, typeName) => .ok (some ⟨deliver, target, bytes, typeName⟩)

section
variable [DecidableEq P]

/-- The rest of the body; `pids` are the objects behind the pointers. -/
def addEncoded (pids : P → PID) (tables : Tables P) (e : Encoded P M) : Tables P :=
  let (typeId, typeNames) := tables.typeNames.intern 0 id e.typeName
  let (targetIdx, targets) := tables.targets.intern 0 id (pids e.target).id
  -- 0 means no sender
  let (senderIdx, senders) :=
    match e.deliver.sender with
    | none => (0, tables.senders)
    | some sender => tables.senders.intern 1 (senderRow pids) sender
  { typeNames := typeNames
    targets := targets
    senders := senders
    envelopes := tables.envelopes ++ [
      { typeId := typeId
        messageData := e.bytes
        target := targetIdx
        sender := senderIdx
        serializerId := orDefault e.deliver.serializerId
        targetRequestId := if 0 < (pids e.target).requestId then (pids e.target).requestId else 0
        senderRequestId :=
          match e.deliver.sender with
          | none => 0
          | some sender => if 0 < (pids sender).requestId then (pids sender).requestId else 0 }] }

def addDeliver (registry : SerializerRegistry M) (pids : P → PID) (tables : Tables P) (deliver : Option (RemoteDeliver P M)) :
    Except Exception (Tables P) := do
  match ← encode registry deliver with
  | none => return tables
  | some e => return addEncoded pids tables e

def messageBatch (registry : SerializerRegistry M) (pids : P → PID) (batch : List (Option (RemoteDeliver P M))) :
    Except Exception MessageBatch := do
  let tables ← batch.foldlM (addDeliver registry pids) Tables.empty
  return ⟨tables.typeNames.rows, tables.targets.rows, tables.envelopes, tables.senders.rows⟩

end

/-! ## What the loop builds -/

/-- The keys of the three tables, in the order in which they are asked for. -/
def typeKeys (sent : List (Encoded P M)) : List String := sent.map Encoded.typeName

def targetKeys (pids : P → PID) (sent : List (Encoded P M)) : List String := sent.map fun e => (pids e.target).id

def senderKeys (sent : List (Encoded P M)) : List P := sent.filterMap fun e => e.deliver.sender

/-- The keys of one more entry. -/
theorem firsts_typeKeys (sent : List (Encoded P M)) (e : Encoded P M) :
    firsts (typeKeys (sent ++ [e])) = grow (firsts (typeKeys sent)) e.typeName := by
  rw [← firsts_concat]
  simp [typeKeys]

theorem firsts_targetKeys (pids : P → PID) (sent : List (Encoded P M)) (e : Encoded P M) :
    firsts (targetKeys pids (sent ++ [e])) = grow (firsts (targetKeys pids sent)) (pids e.target).id := by
  rw [← firsts_concat]
  simp [targetKeys]

section
variable [DecidableEq P]

/-- The envelope of an entry, with its indices among the first occurrences. -/
def envelopeOf (pids : P → PID) (types targets : List String) (senders : List P) (e : Encoded P M) : MessageEnvelope where
  typeId := types.idxOf e.typeName
  messageData := e.bytes
  target := targets.idxOf (pids e.target).id
  sender :=
    match e.deliver.sender with
    | none => 0
    | some sender => (1 + senders.idxOf sender : Nat)
  serializerId := orDefault e.deliver.serializerId
  targetRequestId := (pids e.target).requestId
  senderRequestId :=
    match e.deliver.sender with
    | none => 0
    | some sender => (pids sender).requestId

/-- Indices of keys that are there do not move when keys are added. -/
theorem envelopeOf_longer {pids : P → PID} {types types' targets targets' : List String} {senders senders' : List P}
    (older : types <+: types') (older' : targets <+: targets') (older'' : senders <+: senders') {e : Encoded P M}
    (typed : e.typeName ∈ types) (targeted : (pids e.target).id ∈ targets) (sent : ∀ s, e.deliver.sender = some s → s ∈ senders) :
    envelopeOf pids types' targets' senders' e = envelopeOf pids types targets senders e := by
  unfold envelopeOf
  rw [idxOf_longer older typed, idxOf_longer older' targeted]
  cases from_ : e.deliver.sender with
  | none => rfl
  | some s => simp only [idxOf_longer older'' (sent s from_)]

/-- The tables hold the keys of the entries so far, and the envelopes point into them. -/
structure Built (pids : P → PID) (sent : List (Encoded P M)) (t : Tables P) : Prop where
  types : t.typeNames.Holds 0 id (firsts (typeKeys sent))
  targets : t.targets.Holds 0 id (firsts (targetKeys pids sent))
  senders : t.senders.Holds 1 (senderRow pids) (firsts (senderKeys sent))
  envelopes : t.envelopes =
    sent.map (envelopeOf pids (firsts (typeKeys sent)) (firsts (targetKeys pids sent)) (firsts (senderKeys sent)))

theorem built_empty (pids : P → PID) : Built pids ([] : List (Encoded P M)) Tables.empty where
  types := Table.holds_empty 0 id
  targets := Table.holds_empty 0 id
  senders := Table.holds_empty 1 _
  envelopes := rfl

/-- Storing a request id only when it is positive stores it. -/
theorem positive_or_zero (n : UInt32) : (if 0 < n then n else 0) = n := by
  by_cases zero : n = 0
  · simp [zero]
  · rw [if_pos (UInt32.pos_iff_ne_zero.2 zero)]

theorem envelopeOf_positive (pids : P → PID) (types targets : List String) (senders : List P) (e : Encoded P M) :
    envelopeOf pids types targets senders e =
      { typeId := types.idxOf e.typeName
        messageData := e.bytes
        target := targets.idxOf (pids e.target).id
        sender :=
          match e.deliver.sender with
          | none => 0
          | some sender => (1 + senders.idxOf sender : Nat)
        serializerId := orDefault e.deliver.serializerId
        targetRequestId := if 0 < (pids e.target).requestId then (pids e.target).requestId else 0
        senderRequestId :=
          match e.deliver.sender with
          | none => 0
          | some sender => if 0 < (pids sender).requestId then (pids sender).requestId else 0 } := by
  simp only [envelopeOf, positive_or_zero]

theorem firsts_senderKeys (sent : List (Encoded P M)) (e : Encoded P M) :
    firsts (senderKeys (sent ++ [e])) =
      match e.deliver.sender with
      | none => firsts (senderKeys sent)
      | some sender => grow (firsts (senderKeys sent)) sender := by
  cases from_ : e.deliver.sender with
  | none => simp [senderKeys, from_]
  | some sender =>
    simp only
    rw [← firsts_concat]
    simp [senderKeys, from_]

theorem Built.step {pids : P → PID} {sent : List (Encoded P M)} {t : Tables P} (built : Built pids sent t) (e : Encoded P M) :
    Built pids (sent ++ [e]) (addEncoded pids t e) := by
  obtain ⟨typeId, types⟩ := built.types.intern e.typeName
  obtain ⟨targetIdx, targets⟩ := built.targets.intern (pids e.target).id
  rw [← firsts_typeKeys] at typeId types
  rw [← firsts_targetKeys] at targetIdx targets
  -- the entries so far keep their envelopes
  have old : sent.map (envelopeOf pids (firsts (typeKeys sent)) (firsts (targetKeys pids sent)) (firsts (senderKeys sent))) =
      sent.map (envelopeOf pids (firsts (typeKeys (sent ++ [e]))) (firsts (targetKeys pids (sent ++ [e])))
        (firsts (senderKeys (sent ++ [e])))) := by
    refine List.map_congr_left fun e' member => (envelopeOf_longer ?_ ?_ ?_ ?_ ?_ ?_).symm
    · exact firsts_typeKeys sent e ▸ prefix_grow _ _
    · exact firsts_targetKeys pids sent e ▸ prefix_grow _ _
    · rw [firsts_senderKeys]
      split
      · exact List.prefix_refl _
      · exact prefix_grow _ _
    · exact mem_firsts.2 (List.mem_map.2 ⟨e', member, rfl⟩)
    · exact mem_firsts.2 (List.mem_map.2 ⟨e', member, rfl⟩)
    · exact fun s from_ => mem_firsts.2 (List.mem_filterMap.2 ⟨e', member, from_⟩)
  cases from_ : e.deliver.sender with
  | none =>
    have senders : firsts (senderKeys (sent ++ [e])) = firsts (senderKeys sent) := by rw [firsts_senderKeys, from_]
    constructor
    case types => simpa only [addEncoded, from_] using types
    case targets => simpa only [addEncoded, from_] using targets
    case senders => simpa only [addEncoded, from_, senders] using built.senders
    case envelopes =>
      rw [List.map_append, ← old, ← built.envelopes, List.map_singleton, envelopeOf_positive]
      simp only [addEncoded, from_, typeId, targetIdx, Nat.zero_add]
      rfl
  | some sender =>
    obtain ⟨senderIdx, senders⟩ := built.senders.intern sender
    have more : firsts (senderKeys (sent ++ [e])) = grow (firsts (senderKeys sent)) sender := by rw [firsts_senderKeys, from_]
    rw [← more] at senderIdx senders
    constructor
    case types => simpa only [addEncoded, from_] using types
    case targets => simpa only [addEncoded, from_] using targets
    case senders => simpa only [addEncoded, from_] using senders
    case envelopes =>
      rw [List.map_append, ← old, ← built.envelopes, List.map_singleton, envelopeOf_positive]
      simp only [addEncoded, from_, typeId, targetIdx, senderIdx, Nat.zero_add]

/-- What the entry adds if the loop goes on behind it. -/
def encoded (registry : SerializerRegistry M) (d : Option (RemoteDeliver P M)) : Option (Encoded P M) :=
  (encode registry d).toOption.join

/-- An entry that nothing is thrown for but a `std::exception`. -/
def caught (registry : SerializerRegistry M) (d : Option (RemoteDeliver P M)) : Bool := (encode registry d).toOption.isSome

omit [DecidableEq P] in
theorem encode_caught {registry : SerializerRegistry M} {d : Option (RemoteDeliver P M)} (calm : caught registry d = true) :
    encode registry d = .ok (encoded registry d) := by
  unfold caught at calm
  unfold encoded
  cases made : encode registry d with
  | error thrown =>
    rw [made] at calm
    cases calm
  | ok e => rfl

omit [DecidableEq P] in
/-- What is thrown on is no `std::exception`. -/
theorem encode_error {registry : SerializerRegistry M} {d : Option (RemoteDeliver P M)} {thrown : Exception}
    (left : encode registry d = .error thrown) : thrown = .other := by
  unfold encode at left
  repeat' split at left
  all_goals cases left
  rfl

omit [DecidableEq P] in
theorem encode_uncaught {registry : SerializerRegistry M} {d : Option (RemoteDeliver P M)} (wild : caught registry d = false) :
    encode registry d = .error .other := by
  unfold caught at wild
  cases made : encode registry d with
  | error thrown => rw [encode_error made]
  | ok e =>
    rw [made] at wild
    cases wild

/-- The loop over entries that are caught. -/
theorem built_foldlM {registry : SerializerRegistry M} {pids : P → PID} {sent : List (Encoded P M)} {t : Tables P}
    (built : Built pids sent t) {batch : List (Option (RemoteDeliver P M))} (calm : ∀ d ∈ batch, caught registry d = true) :
    ∃ t', batch.foldlM (addDeliver registry pids) t = .ok t' ∧ Built pids (sent ++ batch.filterMap (encoded registry)) t' := by
  induction batch generalizing sent t with
  | nil => exact ⟨t, rfl, by simpa using built⟩
  | cons deliver rest ih =>
    obtain ⟨first, later⟩ := List.forall_mem_cons.1 calm
    rw [List.foldlM_cons, List.filterMap_cons, addDeliver, encode_caught first]
    cases encoded registry deliver with
    | none => exact ih built later
    | some e =>
      obtain ⟨t', folded, next⟩ := ih (built.step e) later
      rw [List.append_assoc, List.singleton_append] at next
      exact ⟨t', folded, next⟩

/-- An entry that is not caught ends the loop. -/
theorem foldlM_uncaught {registry : SerializerRegistry M} {pids : P → PID} {batch : List (Option (RemoteDeliver P M))}
    (wild : ∃ d ∈ batch, caught registry d = false) (t : Tables P) :
    batch.foldlM (addDeliver registry pids) t = .error .other := by
  induction batch generalizing t with
  | nil =>
    obtain ⟨d, member, _⟩ := wild
    cases member
  | cons deliver rest ih =>
    rw [List.foldlM_cons, addDeliver]
    cases first : caught registry deliver with
    | false =>
      rw [encode_uncaught first]
      rfl
    | true =>
      rw [encode_caught first]
      have later : ∃ d ∈ rest, caught registry d = false := by
        obtain ⟨d, member, uncaught⟩ := wild
        rcases List.mem_cons.1 member with rfl | member
        · rw [first] at uncaught
          cases uncaught
        · exact ⟨d, member, uncaught⟩
      cases encoded registry deliver with
      | none => exact ih later t
      | some e => exact ih later (addEncoded pids t e)

/-- The envelopes of the entries that go through, in their order, and tables of the first
occurrences of their keys. -/
def batchOf (pids : P → PID) (sent : List (Encoded P M)) : MessageBatch where
  typeNames := firsts (typeKeys sent)
  targets := firsts (targetKeys pids sent)
  envelopes := sent.map (envelopeOf pids (firsts (typeKeys sent)) (firsts (targetKeys pids sent)) (firsts (senderKeys sent)))
  senders := (firsts (senderKeys sent)).map (senderRow pids)

/-- **What is sent**: the entries that go through, unless one of the entries leaves the loop. -/
theorem messageBatch_eq (registry : SerializerRegistry M) (pids : P → PID) (batch : List (Option (RemoteDeliver P M))) :
    messageBatch registry pids batch =
      if batch.all (caught registry) then .ok (batchOf pids (batch.filterMap (encoded registry))) else .error .other := by
  split
  · rename_i calm
    obtain ⟨t, folded, built⟩ := built_foldlM (built_empty pids) (List.all_eq_true.1 calm)
    rw [List.nil_append] at built
    rw [messageBatch, folded, batchOf, ← built.envelopes]
    show (.ok ⟨t.typeNames.rows, t.targets.rows, t.envelopes, t.senders.rows⟩ : Except Exception MessageBatch) = _
    rw [built.types.rows, built.targets.rows, built.senders.rows, List.map_id_fun, id, id]
  · rename_i wild
    rw [messageBatch, foldlM_uncaught (by simpa using wild)]
    rfl

/-- The batch of a loop that is not left. -/
theorem messageBatch_ok {registry : SerializerRegistry M} {pids : P → PID} {batch : List (Option (RemoteDeliver P M))}
    {b : MessageBatch} (sent : messageBatch registry pids batch = .ok b) : b = batchOf pids (batch.filterMap (encoded registry)) := by
  rw [messageBatch_eq] at sent
  split at sent
  · cases sent
    rfl
  · cases sent

end

/-! ## The tables are well formed -/

/-- The entry has a target and its serialization does not throw. -/
def goesThrough (registry : SerializerRegistry M) (deliver : RemoteDeliver P M) : Bool :=
  deliver.target.isSome && (registry.serialize deliver.message (orDefault deliver.serializerId)).isOk

/-- An envelope with the rows it points to, against the entry it is for. -/
structure StandsFor (registry : SerializerRegistry M) (pids : P → PID) (b : MessageBatch) (d : RemoteDeliver P M)
    (envelope : MessageEnvelope) : Prop where
  payload : ∃ typeName, registry.serialize d.message (orDefault d.serializerId) = .ok (envelope.messageData, typeName) ∧
    ∃ i : Nat, envelope.typeId = i ∧ b.typeNames[i]? = some typeName
  target : ∃ target, d.target = some target ∧ ∃ i : Nat, envelope.target = i ∧ b.targets[i]? = some (pids target).id
  noSender : envelope.sender = 0 ↔ d.sender = none
  sender : ∀ s, d.sender = some s → ∃ i : Nat, envelope.sender = i + 1 ∧ b.senders[i]? = some ((pids s).address, (pids s).id)

structure WellFormed (registry : SerializerRegistry M) (pids : P → PID) (batch : List (Option (RemoteDeliver P M)))
    (b : MessageBatch) : Prop where
  entries : List.Forall₂ (StandsFor registry pids b) (batch.filterMap fun d => d.filter (goesThrough registry)) b.envelopes
  typeNames : b.typeNames.Nodup
  targets : b.targets.Nodup
  typesUsed : ∀ i < b.typeNames.length, ∃ envelope ∈ b.envelopes, envelope.typeId = i
  targetsUsed : ∀ i < b.targets.length, ∃ envelope ∈ b.envelopes, envelope.target = i

theorem encoded_some {registry : SerializerRegistry M} {d : Option (RemoteDeliver P M)} {e : Encoded P M}
    (through : encoded registry d = some e) :
    d = some e.deliver ∧ e.deliver.target = some e.target ∧
      registry.serialize e.deliver.message (orDefault e.deliver.serializerId) = .ok (e.bytes, e.typeName) := by
  unfold encoded encode at through
  split at through
  · cases through
  · split at through
    · cases through
    · rename_i target targeted
      split at through
      · cases through
      · cases through
      · rename_i bytes typeName serialized
        cases through
        exact ⟨rfl, targeted, serialized⟩

/-- An entry is encoded exactly if it goes through. -/
theorem map_deliver_encoded (registry : SerializerRegistry M) (d : Option (RemoteDeliver P M)) :
    (encoded registry d).map Encoded.deliver = d.filter (goesThrough registry) := by
  cases d with
  | none => rfl
  | some d =>
    rw [Option.filter_some]
    unfold encoded encode goesThrough
    simp only
    cases d.target with
    | none => rfl
    | some target =>
      cases registry.serialize d.message (orDefault d.serializerId) with
      | error thrown => cases thrown <;> rfl
      | ok pair => rfl

theorem map_deliver_sent (registry : SerializerRegistry M) (batch : List (Option (RemoteDeliver P M))) :
    (batch.filterMap (encoded registry)).map Encoded.deliver = batch.filterMap fun d => d.filter (goesThrough registry) := by
  rw [List.map_filterMap]
  simp only [map_deliver_encoded]

/-- What it takes to be caught. -/
theorem caught_some (registry : SerializerRegistry M) (d : RemoteDeliver P M) :
    caught registry (some d) = true ↔
      (d.target.isSome → registry.serialize d.message (orDefault d.serializerId) ≠ .error .other) := by
  unfold caught encode
  cases targeted : d.target with
  | none =>
    simp only [targeted]
    exact iff_of_true rfl nofun
  | some target =>
    cases made : registry.serialize d.message (orDefault d.serializerId) with
    | error thrown =>
      simp only [targeted, made]
      cases thrown with
      | exception what => exact iff_of_true rfl fun _ same => by cases same
      | other => exact iff_of_false nofun fun calm => calm rfl rfl
    | ok pair =>
      simp only [targeted, made]
      exact iff_of_true rfl fun _ same => by cases same

theorem caught_of_goesThrough {registry : SerializerRegistry M} {d : RemoteDeliver P M} (through : goesThrough registry d = true) :
    caught registry (some d) = true := by
  refine (caught_some registry d).2 fun _ thrown => ?_
  unfold goesThrough at through
  rw [thrown, Bool.and_eq_true] at through
  cases through.2

/-- A row of a table of first occurrences is the row of one of the keys. -/
theorem row_used {K : Type} [DecidableEq K] {keys : List K} {i : Nat} (bound : i < (firsts keys).length) :
    ∃ key ∈ keys, (firsts keys).idxOf key = i :=
  ⟨(firsts keys)[i], mem_firsts.1 (List.getElem_mem bound), (nodup_firsts keys).idxOf_getElem i bound⟩

variable [DecidableEq P]

theorem envelopeOf_standsFor {registry : SerializerRegistry M} (pids : P → PID) {batch : List (Option (RemoteDeliver P M))}
    {e : Encoded P M} (member : e ∈ batch.filterMap (encoded registry)) :
    let sent := batch.filterMap (encoded registry)
    StandsFor registry pids (batchOf pids sent) e.deliver
      (envelopeOf pids (firsts (typeKeys sent)) (firsts (targetKeys pids sent)) (firsts (senderKeys sent)) e) := by
  intro sent
  obtain ⟨entry, _, through⟩ := List.mem_filterMap.1 member
  obtain ⟨_, targeted, serialized⟩ := encoded_some through
  have typed : e.typeName ∈ firsts (typeKeys sent) := mem_firsts.2 (List.mem_map.2 ⟨e, member, rfl⟩)
  have known : (pids e.target).id ∈ firsts (targetKeys pids sent) := mem_firsts.2 (List.mem_map.2 ⟨e, member, rfl⟩)
  constructor
  case payload => exact ⟨e.typeName, serialized, _, rfl, getElem?_idxOf typed⟩
  case target => exact ⟨e.target, targeted, _, rfl, getElem?_idxOf known⟩
  case noSender =>
    cases from_ : e.deliver.sender with
    | none => simp [envelopeOf, from_]
    | some s =>
      simp only [envelopeOf, from_]
      constructor <;> intro absurd
      · omega
      · cases absurd
  case sender =>
    intro s from_
    have inside : s ∈ firsts (senderKeys sent) := mem_firsts.2 (List.mem_filterMap.2 ⟨e, member, from_⟩)
    refine ⟨(firsts (senderKeys sent)).idxOf s, ?_, ?_⟩
    · simp only [envelopeOf, from_]
      omega
    · have row := congrArg (Option.map (senderRow pids)) (getElem?_idxOf inside)
      exact (List.getElem?_map ..).trans row

/-- The envelopes stand for the entries that go through, one by one. -/
theorem batchOf_entries (registry : SerializerRegistry M) (pids : P → PID) (batch : List (Option (RemoteDeliver P M))) :
    List.Forall₂ (StandsFor registry pids (batchOf pids (batch.filterMap (encoded registry))))
      (batch.filterMap fun d => d.filter (goesThrough registry)) (batchOf pids (batch.filterMap (encoded registry))).envelopes := by
  rw [← map_deliver_sent, List.forall₂_map_left_iff]
  exact List.forall₂_map_right_iff.2 (List.forall₂_same.2 fun e member => envelopeOf_standsFor pids member)

theorem batchOf_wellFormed (registry : SerializerRegistry M) (pids : P → PID) (batch : List (Option (RemoteDeliver P M))) :
    WellFormed registry pids batch (batchOf pids (batch.filterMap (encoded registry))) := by
  constructor
  case entries => exact batchOf_entries registry pids batch
  case typeNames => exact nodup_firsts _
  case targets => exact nodup_firsts _
  case typesUsed =>
    intro i bound
    obtain ⟨key, inside, position⟩ := row_used bound
    obtain ⟨e, member, rfl⟩ := List.mem_map.1 inside
    exact ⟨_, List.mem_map.2 ⟨e, member, rfl⟩, by simp only [envelopeOf, position]⟩
  case targetsUsed =>
    intro i bound
    obtain ⟨key, inside, position⟩ := row_used bound
    obtain ⟨e, member, rfl⟩ := List.mem_map.1 inside
    exact ⟨_, List.mem_map.2 ⟨e, member, rfl⟩, by simp only [envelopeOf, position]⟩

/-- **When there is a well-formed batch**, whatever is in the queue: if no entry with a target throws
anything but a `std::exception`. -/
theorem wellFormed_iff_caught (registry : SerializerRegistry M) (pids : P → PID) (batch : List (Option (RemoteDeliver P M))) :
    (∃ b, messageBatch registry pids batch = .ok b ∧ WellFormed registry pids batch b) ↔
      ∀ d, some d ∈ batch → d.target.isSome → registry.serialize d.message (orDefault d.serializerId) ≠ .error .other := by
  have each : (∀ d ∈ batch, caught registry d = true) ↔
      ∀ d, some d ∈ batch → d.target.isSome → registry.serialize d.message (orDefault d.serializerId) ≠ .error .other := by
    constructor
    · exact fun calm d member => (caught_some registry d).1 (calm (some d) member)
    · intro calm d member
      cases d with
      | none => rfl
      | some d => exact (caught_some registry d).2 (calm d member)
  rw [messageBatch_eq, ← each, ← List.all_eq_true]
  constructor
  · rintro ⟨b, sent, _⟩
    split at sent
    · assumption
    · cases sent
  · intro calm
    rw [if_pos calm]
    exact ⟨_, rfl, batchOf_wellFormed registry pids batch⟩

/-- A serializer for numbers that throws an integer at `0`. -/
def throwing : Serializer Nat where
  serialize
    | 0 => .error .other
    | n => .ok [n.toUInt8]
  deserialize _ _ := .error (.exception "not read")
  getTypeName _ := .ok "Number"

/-- Its entry takes the one before it along: there is no batch. -/
theorem not_wellFormed_throwing :
    ¬ ∃ b, messageBatch (SerializerRegistry.new.registerSerializer throwing).2 (fun _ : Nat => ⟨"b:8080", "1$", 0⟩)
          [some ⟨none, 1, some 0, none, 0⟩, some ⟨none, 0, some 0, none, 0⟩] = .ok b ∧
        WellFormed (SerializerRegistry.new.registerSerializer throwing).2 (fun _ : Nat => ⟨"b:8080", "1$", 0⟩)
          [some ⟨none, 1, some 0, none, 0⟩, some ⟨none, 0, some 0, none, 0⟩] b := by
  rintro ⟨b, sent, _⟩
  cases sent

end Protoactor.Remote
