/-!
# Messages (`src/actor/messages.cpp`, `include/external/messages.h`)

Messages travel as `std::shared_ptr<void>`. A `Ptr` is such a pointer together with the
dynamic type and the contents of what it points to, so the casts of the code are
pattern matches; reading an object as a type it does not have is not defined here either.
`U` is the type of the user payloads, `K` of the closures given to `ReenterAfter`.
-/

namespace Protoactor.Actor
set_option autoImplicit false

/-- A non-null `std::shared_ptr<PID>`: the object it points to and the fields that name
the process. Two pointers can be equal as names and differ as pointers. -/
structure PID where
  ref : Nat
  address : String
  id : String
  deriving DecidableEq, Repr

/-- What a watcher is identified by. -/
def PID.name (p : PID) : String × String := (p.address, p.id)

/-- The entries of a message header. -/
abbrev Header := List (String × String)

/-- `std::error_code`; `success` is the default one. -/
inductive ErrorCode where
  | success
  | timedOut
  | hostUnreachable
  deriving DecidableEq, Repr

/-- `Terminated::Reason`. -/
inductive Reason where
  | stopped
  | addressTerminated
  | disassociated
  deriving DecidableEq, Repr

/-- `std::shared_ptr<void>`. -/
inductive Ptr (U K : Type) where
  | null
  | envelope (header : Option Header) (message : Ptr U K) (sender : Option PID)
  | user (payload : U)
  | started
  | stopping
  | stopped
  | restarting
  | receiveTimeout
  | stop
  | poisonPill
  | restart
  | watch (watcher : Option PID)
  | unwatch (watcher : Option PID)
  | terminated (who : Option PID) (reason : Reason)
  | failure (who : Option PID) (reason message : Ptr U K) (parent : Option PID)
  | continuation (continuation : Option K) (message : Ptr U K)
  | deadLetterResponse (target : Option PID)
  | errorCode (code : ErrorCode)
  deriving DecidableEq, Repr

namespace Ptr

variable {U K : Type}

def isNull : Ptr U K → Bool
  | .null => true
  | _ => false

/-- `MessageEnvelope::IsEnvelope`, the test of the magic number. -/
def isEnvelope : Ptr U K → Bool
  | .envelope _ _ _ => true
  | _ => false

/-- The object is a `SystemMessage`. -/
def isSystem : Ptr U K → Bool
  | .started | .stopping | .stopped | .restarting | .receiveTimeout | .stop | .poisonPill | .restart | .watch _
  | .unwatch _ | .terminated _ _ | .failure _ _ _ _ | .continuation _ _ => true
  | _ => false

end Ptr

/-- The object behind a `std::shared_ptr<MessageEnvelope>`. -/
structure MessageEnvelope (U K : Type) where
  header : Option Header
  message : Ptr U K
  sender : Option PID
  deriving DecidableEq, Repr

variable {U K : Type}

/-- `WrapEnvelope`. -/
def wrapEnvelope (message : Ptr U K) : Ptr U K :=
  match message with
  | .null => .null
  | .envelope header inner sender => .envelope header inner sender
  | raw => .envelope none raw none

/-- `UnwrapEnvelope`: one layer, if there is one. -/
def unwrapEnvelope (message : Ptr U K) : Option Header × Ptr U K × Option PID :=
  match message with
  | .null => (none, .null, none)
  | .envelope header inner sender => (header, inner, sender)
  | raw => (none, raw, none)

@[simp] theorem unwrapEnvelope_envelope (header : Option Header) (message : Ptr U K) (sender : Option PID) :
    unwrapEnvelope (.envelope header message sender) = (header, message, sender) := rfl

/-- Unwrapping does not see whether a message was wrapped first. -/
@[simp] theorem unwrapEnvelope_wrapEnvelope (message : Ptr U K) :
    unwrapEnvelope (wrapEnvelope message) = unwrapEnvelope message := by
  cases message <;> rfl

end Protoactor.Actor
