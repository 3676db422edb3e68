import Protoactor.Actor.Messages

/-!
# Messages between nodes (`include/internal/remote/messages.h`, `src/remote/serializer.cpp`, `proto/remote.proto`)

`RemoteDeliver`, the serializers, and a `MessageBatch` with its repeated fields as lists. `P` is
the type of the pointers to PIDs, `M` that of the pointers to messages. The integers of the wire
are `int32`, so indices are integers here too.
-/

namespace Protoactor.Remote
set_option autoImplicit false

variable {P M : Type}

/-- The object behind a `std::shared_ptr<PID>`, with its `request_id`. -/
structure PID where
  address : String
  id : String
  requestId : UInt32
  deriving DecidableEq, Repr

structure RemoteDeliver (P M : Type) where
  header : Option Actor.Header
  message : M
  target : Option P
  sender : Option P
  serializerId : Int
  deriving DecidableEq, Repr

/-! ## Serializers -/

/-- What is thrown: a `std::exception` with its text, or anything else. -/
inductive Exception where
  | exception (what : String)
  | other
  deriving DecidableEq, Repr

structure Serializer (M : Type) where
  serialize : M → Except Exception (List UInt8)
  deserialize : String → List UInt8 → Except Exception M
  getTypeName : M → Except Exception String

structure SerializerRegistry (M : Type) where
  serializers : List (Serializer M)
  defaultSerializerId : Int

namespace SerializerRegistry

/-- Before anything is registered. -/
def new : SerializerRegistry M := ⟨[], 0⟩

def registerSerializer (serializer : Serializer M) (r : SerializerRegistry M) : Int × SerializerRegistry M :=
  let id : Int := r.serializers.length
  (id, ⟨r.serializers ++ [serializer], if id = 0 then 0 else r.defaultSerializerId⟩)

def getSerializer (r : SerializerRegistry M) (serializerId : Int) : Option (Serializer M) :=
  if serializerId < 0 ∨ (r.serializers.length : Int) ≤ serializerId then none else r.serializers[serializerId.toNat]?

/-- A negative id stands for the default serializer. -/
def serialize (r : SerializerRegistry M) (message : M) (serializerId : Int) : Except Exception (List UInt8 × String) :=
  let id := if serializerId < 0 then r.defaultSerializerId else serializerId
  match r.getSerializer id with
  | none => .error (.exception ("Serializer not found: " ++ toString id))
  | some serializer => do
    let bytes ← serializer.serialize message
    let typeName ← serializer.getTypeName message
    return (bytes, typeName)

/-- Here it does not. -/
def deserialize (r : SerializerRegistry M) (bytes : List UInt8) (typeName : String) (serializerId : Int) : Except Exception M :=
  match r.getSerializer serializerId with
  | none => .error (.exception ("Serializer not found: " ++ toString serializerId))
  | some serializer => serializer.deserialize typeName bytes

end SerializerRegistry

/-! ## The wire -/

/-- `MessageEnvelope`; the message header is neither written nor read. -/
structure MessageEnvelope where
  typeId : Int
  messageData : List UInt8
  target : Int
  sender : Int
  serializerId : Int
  targetRequestId : UInt32
  senderRequestId : UInt32
  deriving DecidableEq, Repr

/-- `MessageBatch`; of a sender the address and the id are written. -/
structure MessageBatch where
  typeNames : List String
  targets : List String
  envelopes : List MessageEnvelope
  senders : List (String × String)
  deriving DecidableEq, Repr

end Protoactor.Remote
