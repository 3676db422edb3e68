import Protoactor.Lib.Machine
import Protoactor.Actor.Context

/-!
# Receiver middleware (`src/actor/props.cpp`, `src/actor/middleware_chain.cpp`)

Envelopes as objects: `WrapEnvelope` hands on the envelope that the context holds, or makes a new
one around a raw message, and whoever has the pointer can write to the object. A handler is
a function from its context and its envelope to the code of its call; a middleware is
a function from handlers to handlers. The code is resumable, as in `ActorContext`,
and does what it does through `Next`; everything else it does is in its memory.

A context is its number; `none` is a context that is no `ActorContext`, which the last receiver
leaves alone. The calls under way on one thread are the stack.
-/

namespace Protoactor.Actor.Middleware
set_option autoImplicit false
open Lib

variable {U K σ C : Type}

/-- `message_or_envelope_`; an envelope is its position on the heap. -/
inductive Held (U K : Type) where
  | null
  | raw (message : Ptr U K) (plain : message.isNull = false ∧ message.isEnvelope = false)
  | envelope (r : Nat)

/-- The object and all it contains, as it is now. -/
def Held.toPtr (heap : List (MessageEnvelope U K)) : Held U K → Ptr U K
  | .null => .null
  | .raw message _ => message
  | .envelope r =>
    match heap[r]? with
    | none => .null
    | some object => .envelope object.header object.message object.sender

/-- The call of a handler: its own code, or the last receiver. -/
inductive Code (C : Type) where
  | own (c : C)
  | last (ctx : Option Nat) (envelope : Option Nat)

/-- `std::function<void(std::shared_ptr<Context>, std::shared_ptr<MessageEnvelope>)>`. -/
abbrev Handler (C : Type) := Option Nat → Option Nat → Code C

abbrev ReceiverMiddleware (C : Type) := Handler C → Handler C

/-- `MakeReceiverMiddlewareChain`, from the last middleware to the first. -/
def makeReceiverMiddlewareChain (middleware : List (ReceiverMiddleware C)) (lastReceiver : Handler C) : Handler C :=
  match middleware.reverse with
  | [] => lastReceiver
  | m :: rest => rest.foldl (fun h m => m h) (m lastReceiver)

/-- The chain that `Props::WithReceiverMiddleware` builds. -/
def withReceiverMiddleware (middleware : List (ReceiverMiddleware C)) : Handler C :=
  makeReceiverMiddlewareChain middleware .last

/-- What a program sees: the accessors of the contexts, and the envelopes. -/
structure View (U K : Type) where
  current : Nat → Received U K
  heap : List (MessageEnvelope U K)

/-- What a program does next. -/
inductive Next (U K C : Type) where
  | returns
  | throws
  /-- a middleware calls its `next` -/
  | calls (code : Code C) (rest : C)
  /-- `std::make_shared<MessageEnvelope>`; the new envelope is the last one of the heap -/
  | allocates (envelope : MessageEnvelope U K) (rest : C)
  | writes (r : Nat) (envelope : MessageEnvelope U K) (rest : C)
  /-- `Apply` of a context -/
  | applies (k : Nat) (message : Held U K) (rest : C)
  /-- `InvokeUserMessage` of a context, as `Unstash` calls it -/
  | invokes (k : Nat) (message : Held U K) (rest : C)

structure Behaviour (U K σ C : Type) where
  /-- the `Props` of a context; without middleware there is no chain -/
  middleware : Nat → Option (List (ReceiverMiddleware C))
  /-- `Receive` of the actor of a context -/
  receive : Nat → C
  resume : C → View U K → σ → σ × Next U K C
  /-- what goes on where an exception reaches the program; `none` lets it pass -/
  caught : C → Option C

/-- A call on the stack. -/
inductive Frame (C : Type) where
  /-- `DefaultReceive` -/
  | receive (k : Nat)
  /-- `message_or_envelope_ = nullptr` at the end of `ProcessMessage` -/
  | clear (k : Nat)
  /-- a handler -/
  | code (code : Code C)
  /-- `Receive`, called by the last receiver with the envelope -/
  | actor (k : Nat) (envelope : Option Nat) (c : C)

structure State (U K σ C : Type) where
  heap : List (MessageEnvelope U K)
  /-- `message_or_envelope_` of each context -/
  messages : Nat → Held U K
  /-- `state_` is `STATE_STOPPED` -/
  stopped : Nat → Bool
  /-- `actor_` is not null -/
  actors : Nat → Bool
  memory : σ
  stack : List (Frame C)

namespace State

/-- `Message()`, `MessageHeader()` and `Sender()`. -/
def current (s : State U K σ C) (k : Nat) : Received U K :=
  match unwrapEnvelope ((s.messages k).toPtr s.heap) with
  | (header, message, sender) => ⟨message, header, sender⟩

def view (s : State U K σ C) : View U K := ⟨s.current, s.heap⟩

def setMessage (k : Nat) (message : Held U K) (s : State U K σ C) : State U K σ C :=
  { s with messages := fun j => if j = k then message else s.messages j }

def call (s : State U K σ C) (frames : List (Frame C)) : State U K σ C := { s with stack := frames ++ s.stack }

/-- `WrapEnvelope(message_or_envelope_)`. -/
def wrap (k : Nat) (s : State U K σ C) : Option Nat × State U K σ C :=
  match s.messages k with
  | .null => (none, s)
  | .envelope r => (some r, s)
  | .raw message _ => (some s.heap.length, { s with heap := s.heap ++ [⟨none, message, none⟩] })

/-- `ProcessMessage`. -/
def processMessage (k : Nat) (message : Held U K) (s : State U K σ C) : State U K σ C :=
  (s.setMessage k message).call [.receive k, .clear k]

def invokeUserMessage (k : Nat) (message : Held U K) (s : State U K σ C) : State U K σ C :=
  if s.stopped k then s else s.processMessage k message

def defaultReceive (beh : Behaviour U K σ C) (k : Nat) (s : State U K σ C) : State U K σ C :=
  match beh.middleware k with
  | some middleware =>
    let (envelope, s) := s.wrap k
    s.call [.code (withReceiverMiddleware middleware (some k) envelope)]
  | none => if s.actors k then s.call [.code (.own (beh.receive k))] else s

/-- The last receiver of `Props::WithReceiverMiddleware`; the envelope is only remembered here. -/
def lastReceiver (beh : Behaviour U K σ C) (ctx : Option Nat) (envelope : Option Nat) (s : State U K σ C) : State U K σ C :=
  match ctx with
  | none => s
  | some k => if s.actors k then s.call [.actor k envelope (beh.receive k)] else s

/-- An exception leaves the frames on the stack, up to a program that catches it. -/
def unwind (caught : C → Option C) : List (Frame C) → List (Frame C)
  | [] => []
  | .code (.own c) :: below =>
    match caught c with
    | some c' => .code (.own c') :: below
    | none => unwind caught below
  | .actor k envelope c :: below =>
    match caught c with
    | some c' => .actor k envelope c' :: below
    | none => unwind caught below
  | _ :: below => unwind caught below

/-- The program of a frame, taken off the stack, makes its next step; `again` is the frame with the rest. -/
def resume (beh : Behaviour U K σ C) (c : C) (again : C → Frame C) (s : State U K σ C) : State U K σ C :=
  let (memory, next) := beh.resume c s.view s.memory
  let s := { s with memory := memory }
  match next with
  | .returns => s
  | .throws => { s with stack := unwind beh.caught s.stack }
  | .calls code rest => s.call [.code code, again rest]
  | .allocates envelope rest => { s with heap := s.heap ++ [envelope] }.call [again rest]
  | .writes r envelope rest => { s with heap := s.heap.set r envelope }.call [again rest]
  | .applies k message rest => (s.setMessage k message).call [again rest]
  | .invokes k message rest => (s.call [again rest]).invokeUserMessage k message

def runFrame (beh : Behaviour U K σ C) (frame : Frame C) (s : State U K σ C) : State U K σ C :=
  match frame with
  | .receive k => s.defaultReceive beh k
  | .clear k => s.setMessage k .null
  | .code (.last ctx envelope) => s.lastReceiver beh ctx envelope
  | .code (.own c) => s.resume beh c fun rest => .code (.own rest)
  | .actor k envelope c => s.resume beh c (.actor k envelope)

end State

/-- A call of `InvokeUserMessage` by a mailbox, or the next step of the call that is running. -/
inductive Label (U K : Type) where
  | invoke (k : Nat) (message : Held U K)
  | run

def step (beh : Behaviour U K σ C) : Machine (State U K σ C) (Label U K) := fun s l =>
  match l, s.stack with
  | .invoke k message, [] => some (s.invokeUserMessage k message)
  | .run, frame :: below => some ({ s with stack := below }.runFrame beh frame)
  | _, _ => none

/-- No message is being processed. -/
def start (heap : List (MessageEnvelope U K)) (stopped actors : Nat → Bool) (memory : σ) : State U K σ C where
  heap := heap
  messages := fun _ => .null
  stopped := stopped
  actors := actors
  memory := memory
  stack := []

end Protoactor.Actor.Middleware
