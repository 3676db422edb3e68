import Protoactor.Actor.Context

/-!
# Sending and receiving (`src/actor/root_context.cpp`, `src/actor/actor_context.cpp`)

The two contexts a message can be sent from, and what the actor at the other end reads of it
in `Receive`. `RootContext` wraps a message once. `ActorContext::SendUserMessage` wraps every
message, also the envelopes that the `Request` family hands it, and the receiver takes off
one layer only.
-/

namespace Protoactor.Actor
set_option autoImplicit false
open Lib

variable {U K σ C : Type}

namespace RootContext

def send (pid : Option PID) (message : Ptr U K) : List (Sent U K) :=
  match pid with
  | none => []
  | some target => [⟨some target, .user, .envelope none message none⟩]

def request (pid : Option PID) (message : Ptr U K) : List (Sent U K) :=
  match pid with
  | none => []
  | some target => [⟨some target, .user, .envelope none message none⟩]

def requestWithCustomSender (pid : Option PID) (message : Ptr U K) (sender : Option PID) : List (Sent U K) :=
  match pid with
  | none => []
  | some target => [⟨some target, .user, .envelope none message sender⟩]

/-- The PID is not tested here. -/
def requestFuture (fresh : PID) (pid : PID) (message : Ptr U K) : Except FutureImpl.BadWeakPtr (List (Sent U K)) := do
  let future : FutureImpl U K K ← FutureImpl.newFuture fresh []
  return [⟨some pid, .user, .envelope none message (some future.pid)⟩]

end RootContext

/-- The context a message is sent from. -/
inductive SendingContext (U K σ C : Type) where
  | root
  | actor (context : ActorContext U K σ C)

/-- The ways to send it. -/
inductive SendingCall where
  | send
  | request
  | requestWithCustomSender (sender : PID)
  /-- `fresh`: the PID under which `NewFuture` registers -/
  | requestFuture (fresh : PID)
  deriving DecidableEq, Repr

namespace SendingContext

/-- `Self()`. -/
def self : SendingContext U K σ C → Option PID
  | .root => none
  | .actor context => context.self

/-- The messages that a call without middleware hands to the PIDs. -/
def posts (call : SendingCall) (target : PID) (message : Ptr U K) :
    SendingContext U K σ C → Except FutureImpl.BadWeakPtr (List (Sent U K))
  | .root =>
    match call with
    | .send => .ok (RootContext.send (some target) message)
    | .request => .ok (RootContext.request (some target) message)
    | .requestWithCustomSender sender => .ok (RootContext.requestWithCustomSender (some target) message (some sender))
    | .requestFuture fresh => RootContext.requestFuture fresh target message
  | .actor context =>
    let made (after : ActorContext U K σ C) : List (Sent U K) := after.sent.drop context.sent.length
    match call with
    | .send => .ok (made (context.send .plain (some target) message))
    | .request => .ok (made (context.request .plain (some target) message))
    | .requestWithCustomSender sender =>
      .ok (made (context.requestWithCustomSender .plain (some target) message (some sender)))
    | .requestFuture fresh => (context.requestFuture .plain fresh (some target) message).map made

/-- The sender that the receiver is to see. -/
def expectedSender (call : SendingCall) (caller : SendingContext U K σ C) : Option PID :=
  match call with
  | .send => none
  | .request => caller.self
  | .requestWithCustomSender sender => some sender
  | .requestFuture fresh => some fresh

/-- An actor that can take a message: alive, no call running. -/
structure Live (receiver : ActorContext U K σ C) : Prop where
  running : receiver.state ≠ .stopped
  returned : receiver.stack = []
  actor : receiver.actor = true

/-- The call sends one message to the target, and any live actor without middleware that is
handed it reads the payload and the sender as they were given. -/
def Agrees (call : SendingCall) (target : PID) (message : Ptr U K) (caller : SendingContext U K σ C) : Prop :=
  ∃ envelope, caller.posts call target message = .ok [⟨some target, .user, envelope⟩] ∧
    ∀ (τ D : Type) (beh : Behaviour U K τ D) (receiver : ActorContext U K τ D), Live receiver →
      ∃ receiver' entry, Machine.exec (ActorContext.step .plain beh) [.user envelope, .run] receiver = some receiver' ∧
        receiver'.received = receiver.received ++ [entry] ∧ receiver'.current = entry ∧
        entry.message = message ∧ entry.sender = caller.expectedSender call

/-! ## What arrives -/

/-- A live actor reads one layer of what it is handed. -/
theorem exec_receive (beh : Behaviour U K σ C) {receiver : ActorContext U K σ C} (live : Live receiver)
    (header : Option Header) (message : Ptr U K) (sender : Option PID) :
    ∃ receiver', Machine.exec (ActorContext.step .plain beh) [.user (.envelope header message sender), .run] receiver =
        some receiver' ∧
      receiver'.received = receiver.received ++ [⟨message, header, sender⟩] ∧
      receiver'.current = ⟨message, header, sender⟩ := by
  obtain ⟨running, returned, actor⟩ := live
  have first : ActorContext.step .plain beh receiver (.user (.envelope header message sender)) =
      some (receiver.processMessage (.envelope header message sender)) := by
    simp only [ActorContext.step, returned, ActorContext.invokeUserMessage, if_neg running]
  rw [Machine.exec_cons first]
  refine ⟨_, rfl, ?_, ?_⟩
  · simp [ActorContext.runFrame, ActorContext.defaultReceive, Props.plain, ActorContext.receive,
      ActorContext.processMessage, ActorContext.call, actor, ActorContext.current]
  · simp [ActorContext.runFrame, ActorContext.defaultReceive, Props.plain, ActorContext.receive,
      ActorContext.processMessage, ActorContext.call, actor, ActorContext.current]

/-- A message wrapped once arrives as it was given. -/
theorem agrees_of_posts {call : SendingCall} {target : PID} {message : Ptr U K} {caller : SendingContext U K σ C}
    {sender : Option PID} (posts : caller.posts call target message = .ok [⟨some target, .user, .envelope none message sender⟩])
    (expected : sender = caller.expectedSender call) : Agrees call target message caller := by
  refine ⟨_, posts, fun τ D beh receiver live => ?_⟩
  obtain ⟨receiver', exec, received, current⟩ := exec_receive beh live none message sender
  exact ⟨receiver', _, exec, received, current, rfl, expected⟩

/-- A message wrapped twice arrives as an envelope. -/
theorem not_agrees_of_posts {call : SendingCall} {target : PID} {message : Ptr U K} {caller : SendingContext U K σ C}
    {sender : Option PID} (raw : message.isEnvelope = false)
    (posts : caller.posts call target message =
      .ok [⟨some target, .user, .envelope none (.envelope none message sender) none⟩]) :
    ¬ Agrees call target message caller := by
  rintro ⟨envelope, posts', arrives⟩
  have same : envelope = .envelope none (.envelope none message sender) none := by
    have lists := Except.ok.inj (posts'.symm.trans posts)
    simpa using lists
  subst same
  -- one live actor is enough: any will read the inner envelope
  have live : Live (ActorContext.new none none () true : ActorContext U K Unit Unit) := ⟨nofun, rfl, rfl⟩
  obtain ⟨receiver', exec, received, -⟩ :=
    exec_receive ActorContext.idle live none (.envelope none message sender) none
  obtain ⟨other, entry, exec', received', -, read, -⟩ := arrives Unit Unit ActorContext.idle _ live
  have same : other = receiver' := Option.some.inj (exec'.symm.trans exec)
  rw [same, received] at received'
  have entries := List.append_cancel_left received'
  rw [← read, ← List.cons.inj entries |>.1] at raw
  cases raw

/-- `NewFuture` throws, so a call that needs a future sends nothing. -/
theorem not_agrees_of_throws {call : SendingCall} {target : PID} {message : Ptr U K} {caller : SendingContext U K σ C}
    (posts : caller.posts call target message = .error .thrown) : ¬ Agrees call target message caller := by
  rintro ⟨envelope, posts', -⟩
  cases posts.symm.trans posts'

/-- The calls that wrap their message once. -/
def wrapsOnce (call : SendingCall) : SendingContext U K σ C → Bool
  | .root => match call with
    | .requestFuture _ => false
    | _ => true
  | .actor _ => call = .send

/-- **Sending and receiving agree** for `Send` from everywhere and for `Request` and
`RequestWithCustomSender` from a `RootContext`, and for no other call. -/
theorem agrees_iff {message : Ptr U K} (raw : message.isEnvelope = false) (call : SendingCall) (target : PID)
    (caller : SendingContext U K σ C) : Agrees call target message caller ↔ caller.wrapsOnce call = true := by
  cases caller with
  | root =>
    cases call with
    | send => exact iff_of_true (agrees_of_posts rfl rfl) rfl
    | request => exact iff_of_true (agrees_of_posts rfl rfl) rfl
    | requestWithCustomSender sender => exact iff_of_true (agrees_of_posts rfl rfl) rfl
    | requestFuture fresh => exact iff_of_false (not_agrees_of_throws rfl) nofun
  | actor context =>
    have made : ∀ inner, ((context.sendUserMessage .plain (some target) inner).sent.drop context.sent.length) =
        [⟨some target, .user, .envelope none inner none⟩] := by
      intro inner
      exact List.drop_left
    cases call with
    | send => exact iff_of_true (agrees_of_posts (congrArg Except.ok (made message)) rfl) rfl
    | request => exact iff_of_false (not_agrees_of_posts raw (congrArg Except.ok (made _))) nofun
    | requestWithCustomSender sender => exact iff_of_false (not_agrees_of_posts raw (congrArg Except.ok (made _))) nofun
    | requestFuture fresh => exact iff_of_false (not_agrees_of_throws rfl) nofun

theorem agrees_iff_request : (Ptr.user 7 : Ptr Nat Nat).isEnvelope = false ∧
    (Agrees .request ⟨0, "nonhost", "b"⟩ (.user 7 : Ptr Nat Nat) (.root : SendingContext Nat Nat Unit Unit) ↔
      (.root : SendingContext Nat Nat Unit Unit).wrapsOnce .request = true) :=
  ⟨rfl, agrees_iff rfl .request ⟨0, "nonhost", "b"⟩ .root⟩

/-- A request made by an actor: the receiver reads an envelope, and no sender. -/
theorem request_arrives_wrapped :
    let caller : ActorContext Nat Nat Unit Unit := ActorContext.new (some ⟨1, "nonhost", "a"⟩) none () true
    let target : PID := ⟨0, "nonhost", "b"⟩
    ¬ Agrees .request target (.user 7) (.actor caller) ∧
    ∃ envelope receiver, (SendingContext.actor caller).posts .request target (.user 7) = .ok [⟨some target, .user, envelope⟩] ∧
      Machine.exec (ActorContext.step .plain ActorContext.idle) [.user envelope, .run]
        (ActorContext.new (some target) none () true : ActorContext Nat Nat Unit Unit) = some receiver ∧
      receiver.received = [⟨.envelope none (.user 7) (some ⟨1, "nonhost", "a"⟩), none, none⟩] := by
  intro caller target
  exact ⟨not_agrees_of_posts rfl rfl, _, _, rfl, rfl, rfl⟩

end SendingContext

end Protoactor.Actor
