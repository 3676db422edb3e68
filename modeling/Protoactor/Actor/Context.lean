import Protoactor.Lib.Machine
import Protoactor.Actor.Mailbox
import Protoactor.Actor.Future

/-!
# The actor context (`src/actor/actor_context.cpp`)

One `ActorContext` as a machine: a label is a call of `InvokeUserMessage` or
`InvokeSystemMessage` by the mailbox, made when no earlier call is running, or the next
step of the frame on top of the call stack. The actor, its middleware and the closures
given to `ReenterAfter` are resumable programs over a memory of their own; what
they do to the context they do through its methods (`Op`), and exceptions leave through
the frames below. `InvokeSystemMessage` casts the pointer it is given to
`SystemMessage` unchecked; a call with a pointer to anything else has no step.

The fields `received`, `continued` and `sent` are auxiliary.
-/

namespace Protoactor.Actor
set_option autoImplicit false
open Lib

/-- `state_`. -/
inductive LifecycleState where
  | alive
  | restarting
  | stopping
  | stopped
  deriving DecidableEq, Repr

/-- The value of the enumerator. -/
def LifecycleState.toNat : LifecycleState → Nat
  | .alive => 0
  | .restarting => 1
  | .stopping => 2
  | .stopped => 3

/-- `Extras`, as far as messages reach it; `stash_` has its top first. -/
structure Extras (U K : Type) where
  children : List PID
  watchers : List PID
  stash : List (Ptr U K)
  deriving DecidableEq, Repr

/-- A message given to `SendUserMessage` or `SendSystemMessage`; without a target it
went to the dead-letter process. -/
structure Sent (U K : Type) where
  target : Option PID
  kind : Kind
  message : Ptr U K
  deriving DecidableEq, Repr

/-- What the accessors answer during a call of `Receive`. -/
structure Received (U K : Type) where
  message : Ptr U K
  header : Option Header
  sender : Option PID
  deriving DecidableEq, Repr

/-- A call on the stack. -/
inductive Frame (C : Type) where
  /-- `DefaultReceive` -/
  | receive
  /-- `message_or_envelope_ = nullptr` at the end of a call -/
  | clear
  /-- the actor, a middleware or a closure -/
  | code (rest : C)
  /-- the loop of `UnstashAll` -/
  | unstashAll
  /-- `HandleRestart` from `IncarnateActor` on -/
  | incarnate
  /-- the loop at the end of `HandleRestart` -/
  | restore
  deriving DecidableEq, Repr

structure ActorContext (U K σ C : Type) where
  self : Option PID
  parent : Option PID
  state : LifecycleState
  messageOrEnvelope : Ptr U K
  extras : Option (Extras U K)
  /-- `actor_` is not null -/
  actor : Bool
  memory : σ
  stack : List (Frame C)
  received : List (Received U K)
  continued : List (K × Ptr U K × ErrorCode)
  sent : List (Sent U K)
  deriving DecidableEq, Repr

variable {U K σ C : Type}

/-- The methods of the context, as a program calls them. -/
inductive Op (U K : Type) where
  /-- `actor_->Receive(ctx)`, by the last receiver of a middleware chain -/
  | receive
  | send (pid : Option PID) (message : Ptr U K)
  | request (pid : Option PID) (message : Ptr U K)
  | requestWithCustomSender (pid : Option PID) (message : Ptr U K) (sender : Option PID)
  /-- `fresh`: the PID under which `NewFuture` registers -/
  | requestFuture (fresh : PID) (pid : Option PID) (message : Ptr U K)
  | respond (response : Ptr U K)
  | forward (pid : Option PID)
  | watch (pid : Option PID)
  | unwatch (pid : Option PID)
  | stash
  | unstash
  | unstashAll
  /-- `completed`: the future has completed already -/
  | reenterAfter (continuation : Option K) (completed : Bool)
  /-- `Apply` with the envelope of a captured context -/
  | apply (envelope : Ptr U K)
  /-- the `children_` of a `SpawnNamed` that succeeded -/
  | spawned (pid : PID)
  /-- a message sent through a PID and not through the context -/
  | post (pid : PID) (kind : Kind) (message : Ptr U K)
  deriving DecidableEq, Repr

/-- What a program can read of its context. -/
structure View (U K : Type) where
  received : Received U K
  self : Option PID
  parent : Option PID
  children : List PID

inductive Next (U K C : Type) where
  | returns
  | throws
  | performs (op : Op U K) (rest : C)

/-- The programs of an actor. -/
structure Behaviour (U K σ C : Type) where
  /-- `Receive` -/
  receive : C
  continuation : K → Ptr U K → ErrorCode → C
  /-- up to the next call of a method of the context, the return or an exception -/
  resume : C → View U K → σ → σ × Next U K C
  /-- what goes on where an exception reaches the program; `none` lets it pass -/
  caught : C → Option C
  /-- the producer: whether the new instance is non-null; `none` is an exception -/
  produce : σ → Option (σ × Bool)

/-- The middleware chains of `Props`. -/
structure Props (U K C : Type) where
  receiverMiddlewareChain : Option (Ptr U K → C)
  senderMiddlewareChain : Option (PID → Ptr U K → C)

/-- `Props` without middleware. -/
def Props.plain : Props U K C := ⟨none, none⟩

namespace ActorContext

/-! ## Accessors -/

/-- `Message()`, `MessageHeader()` and `Sender()`. -/
def current (c : ActorContext U K σ C) : Received U K :=
  match unwrapEnvelope c.messageOrEnvelope with
  | (header, message, sender) => ⟨message, header, sender⟩

def sender (c : ActorContext U K σ C) : Option PID := c.current.sender

def ensureExtras (c : ActorContext U K σ C) : Extras U K := c.extras.getD ⟨[], [], []⟩

def children (c : ActorContext U K σ C) : List PID :=
  match c.extras with
  | none => []
  | some extras => extras.children

def view (c : ActorContext U K σ C) : View U K := ⟨c.current, c.self, c.parent, c.children⟩

def call (c : ActorContext U K σ C) (frames : List (Frame C)) : ActorContext U K σ C :=
  { c with stack := frames ++ c.stack }

/-- `SendUserMessage` or `SendSystemMessage` of a PID. -/
def post (c : ActorContext U K σ C) (target : Option PID) (kind : Kind) (message : Ptr U K) : ActorContext U K σ C :=
  { c with sent := c.sent ++ [⟨target, kind, message⟩] }

/-! ## Sending -/

def sendUserMessage (props : Props U K C) (pid : Option PID) (message : Ptr U K) (c : ActorContext U K σ C) :
    ActorContext U K σ C :=
  match pid with
  | none => c
  | some target =>
    let envelope := .envelope none message none
    match props.senderMiddlewareChain with
    | some chain => c.call [.code (chain target envelope)]
    | none => c.post (some target) .user envelope

def send (props : Props U K C) (pid : Option PID) (message : Ptr U K) (c : ActorContext U K σ C) : ActorContext U K σ C :=
  c.sendUserMessage props pid message

def request (props : Props U K C) (pid : Option PID) (message : Ptr U K) (c : ActorContext U K σ C) :
    ActorContext U K σ C :=
  c.sendUserMessage props pid (.envelope none message c.self)

def requestWithCustomSender (props : Props U K C) (pid : Option PID) (message : Ptr U K) (sender : Option PID)
    (c : ActorContext U K σ C) : ActorContext U K σ C :=
  c.sendUserMessage props pid (.envelope none message sender)

def requestFuture (props : Props U K C) (fresh : PID) (pid : Option PID) (message : Ptr U K)
    (c : ActorContext U K σ C) : Except FutureImpl.BadWeakPtr (ActorContext U K σ C) := do
  let future : FutureImpl U K K ← FutureImpl.newFuture fresh []
  return c.sendUserMessage props pid (.envelope none message (some future.pid))

def respond (props : Props U K C) (response : Ptr U K) (c : ActorContext U K σ C) : ActorContext U K σ C :=
  match c.sender with
  | none => c.post none .user response
  | some sender => c.send props (some sender) response

/-- The guard only casts the pointer, so it holds for every message, system or not. -/
def forward (props : Props U K C) (pid : Option PID) (c : ActorContext U K σ C) : ActorContext U K σ C :=
  if ¬ c.messageOrEnvelope.isNull then c else c.sendUserMessage props pid c.messageOrEnvelope

/-! ## Invocation -/

def processMessage (message : Ptr U K) (c : ActorContext U K σ C) : ActorContext U K σ C :=
  { c with messageOrEnvelope := message }.call [.receive, .clear]

def invokeUserMessage (message : Ptr U K) (c : ActorContext U K σ C) : ActorContext U K σ C :=
  if c.state = .stopped then c else c.processMessage message

def handleWatch (watcher : PID) (c : ActorContext U K σ C) : ActorContext U K σ C :=
  if LifecycleState.stopping.toNat ≤ c.state.toNat then c.post (some watcher) .system (.terminated c.self .stopped)
  else
    let extras := c.ensureExtras
    { c with extras := some { extras with watchers := extras.watchers ++ [watcher] } }

/-- `std::remove` compares the pointers. -/
def handleUnwatch (watcher : PID) (c : ActorContext U K σ C) : ActorContext U K σ C :=
  match c.extras with
  | none => c
  | some extras =>
    { c with extras := some { extras with watchers := extras.watchers.filter (·.ref ≠ watcher.ref) } }

/-- Nobody is told between the two stores. -/
def handleStop (c : ActorContext U K σ C) : ActorContext U K σ C :=
  { { c with state := .stopping } with state := .stopped }

def handleTerminated (who : PID) (message : Ptr U K) (c : ActorContext U K σ C) : ActorContext U K σ C :=
  let c : ActorContext U K σ C :=
    match c.extras with
    | none => c
    | some extras =>
      { c with extras := some { extras with children := extras.children.filter (·.ref ≠ who.ref) } }
  c.invokeUserMessage message

def handleFailure (message : Ptr U K) (c : ActorContext U K σ C) : ActorContext U K σ C :=
  match c.parent with
  | none => c
  | some parent => c.post (some parent) .system message

/-- Up to the first message, `Restarting`; the rest waits on the stack. -/
def handleRestart (c : ActorContext U K σ C) : ActorContext U K σ C :=
  ({ c with state := .restarting }.call [.incarnate]).invokeUserMessage .restarting

def handleContinuation (beh : Behaviour U K σ C) (continuation : K) (message : Ptr U K) (c : ActorContext U K σ C) :
    ActorContext U K σ C :=
  { c with messageOrEnvelope := message, continued := c.continued ++ [(continuation, Ptr.null, ErrorCode.success)] }.call
    [.code (beh.continuation continuation .null .success), .clear]

/-- The object whose type is looked at: the payload of an envelope that has one. -/
def actualMessage (message : Ptr U K) : Ptr U K :=
  if (unwrapEnvelope message).2.1.isNull then message else (unwrapEnvelope message).2.1

def invokeSystemMessage (beh : Behaviour U K σ C) (message : Ptr U K) (c : ActorContext U K σ C) :
    Option (ActorContext U K σ C) :=
  if message.isNull then some c
  else
    match actualMessage message with
    | .started => some (c.processMessage message)
    | .watch (some watcher) => some (c.handleWatch watcher)
    | .unwatch (some watcher) => some (c.handleUnwatch watcher)
    | .stop => some c.handleStop
    | .terminated (some who) reason => some (c.handleTerminated who (.terminated (some who) reason))
    | .failure (some who) reason inner parent => some (c.handleFailure (.failure (some who) reason inner parent))
    | .restart => some c.handleRestart
    | .continuation (some continuation) inner => some (c.handleContinuation beh continuation inner)
    | other => if other.isSystem then some c else none

/-- No handler takes a message of this type. -/
def unhandled : Ptr U K → Bool
  | .started | .watch (some _) | .unwatch (some _) | .stop | .terminated (some _) _ | .failure (some _) _ _ _ | .restart
  | .continuation (some _) _ => false
  | _ => true

/-- What `InvokeSystemMessage` can do: one handler, chosen by the type of the message, or nothing. -/
inductive Handled (beh : Behaviour U K σ C) (message : Ptr U K) (c : ActorContext U K σ C) :
    ActorContext U K σ C → Prop where
  | ignored (nothing : unhandled (actualMessage message) = true) : Handled beh message c c
  | started (actual : actualMessage message = .started) : Handled beh message c (c.processMessage message)
  | watch {watcher : PID} (actual : actualMessage message = .watch (some watcher)) :
      Handled beh message c (c.handleWatch watcher)
  | unwatch {watcher : PID} (actual : actualMessage message = .unwatch (some watcher)) :
      Handled beh message c (c.handleUnwatch watcher)
  | stop (actual : actualMessage message = .stop) : Handled beh message c c.handleStop
  | terminated {who : PID} {reason : Reason} (actual : actualMessage message = .terminated (some who) reason) :
      Handled beh message c (c.handleTerminated who (.terminated (some who) reason))
  | failure {who : PID} {reason inner : Ptr U K} {parent : Option PID}
      (actual : actualMessage message = .failure (some who) reason inner parent) :
      Handled beh message c (c.handleFailure (.failure (some who) reason inner parent))
  | restart (actual : actualMessage message = .restart) : Handled beh message c c.handleRestart
  | continuation {continuation : K} {inner : Ptr U K}
      (actual : actualMessage message = .continuation (some continuation) inner) :
      Handled beh message c (c.handleContinuation beh continuation inner)

theorem handled {beh : Behaviour U K σ C} {message : Ptr U K} {c c' : ActorContext U K σ C}
    (act : c.invokeSystemMessage beh message = some c') : Handled beh message c c' := by
  simp only [invokeSystemMessage] at act
  split at act
  · rename_i null
    cases act
    cases message <;> first | exact .ignored rfl | cases null
  · split at act
    · rename_i actual; cases act; exact .started actual
    · rename_i actual; cases act; exact .watch actual
    · rename_i actual; cases act; exact .unwatch actual
    · rename_i actual; cases act; exact .stop actual
    · rename_i actual; cases act; exact .terminated actual
    · rename_i actual; cases act; exact .failure actual
    · rename_i actual; cases act; exact .restart actual
    · rename_i actual; cases act; exact .continuation actual
    · split at act
      · cases act
        refine .ignored ?_
        unfold unhandled
        split <;> first | rfl | grind
      · cases act

/-! ## The steps of the calls -/

/-- An exception leaves the frames on the stack, up to a program that catches it. -/
def unwind (beh : Behaviour U K σ C) : List (Frame C) → List (Frame C)
  | [] => []
  | .code rest :: below =>
    match beh.caught rest with
    | some rest' => .code rest' :: below
    | none => unwind beh below
  | _ :: below => unwind beh below

def throw (beh : Behaviour U K σ C) (c : ActorContext U K σ C) : ActorContext U K σ C :=
  { c with stack := unwind beh c.stack }

/-- `actor_->Receive(ctx)`. -/
def receive (beh : Behaviour U K σ C) (c : ActorContext U K σ C) : ActorContext U K σ C :=
  if c.actor then { c with received := c.received ++ [c.current] }.call [.code beh.receive] else c

def defaultReceive (props : Props U K C) (beh : Behaviour U K σ C) (c : ActorContext U K σ C) : ActorContext U K σ C :=
  match props.receiverMiddlewareChain with
  | some chain => c.call [.code (chain (wrapEnvelope c.messageOrEnvelope))]
  | none => c.receive beh

/-- The top of the stash is taken off and invoked; `again` is the loop it is
taken off in. -/
def popStash (again : List (Frame C)) (c : ActorContext U K σ C) : Option (ActorContext U K σ C) :=
  match c.extras with
  | none => none
  | some extras =>
    match extras.stash with
    | [] => none
    | top :: rest =>
      some (({ c with extras := some { extras with stash := rest } }.call again).invokeUserMessage top)

def stash (c : ActorContext U K σ C) : ActorContext U K σ C :=
  let extras := c.ensureExtras
  { c with extras := some { extras with stash := c.messageOrEnvelope :: extras.stash } }

/-- `ReenterAfter`: the closure sends the continuation message once the future has completed. -/
def reenterAfter (continuation : Option K) (completed : Bool) (c : ActorContext U K σ C) : ActorContext U K σ C :=
  if completed then c.post c.self .system (.continuation continuation c.messageOrEnvelope) else c

def watch (pid : Option PID) (c : ActorContext U K σ C) : ActorContext U K σ C :=
  if pid.isSome then c.post pid .system (.watch c.self) else c

def unwatch (pid : Option PID) (c : ActorContext U K σ C) : ActorContext U K σ C :=
  if pid.isSome then c.post pid .system (.unwatch c.self) else c

def perform (props : Props U K C) (beh : Behaviour U K σ C) (op : Op U K) (c : ActorContext U K σ C) :
    ActorContext U K σ C :=
  match op with
  | .receive => c.receive beh
  | .send pid message => c.send props pid message
  | .request pid message => c.request props pid message
  | .requestWithCustomSender pid message sender => c.requestWithCustomSender props pid message sender
  | .requestFuture fresh pid message =>
    match c.requestFuture props fresh pid message with
    | .error _ => c.throw beh
    | .ok c => c
  | .respond response => c.respond props response
  | .forward pid => c.forward props pid
  | .watch pid => c.watch pid
  | .unwatch pid => c.unwatch pid
  | .stash => c.stash
  | .unstash => (c.popStash []).getD c
  | .unstashAll => c.call [.unstashAll]
  | .reenterAfter continuation completed => c.reenterAfter continuation completed
  | .apply envelope => { c with messageOrEnvelope := envelope }
  | .spawned pid =>
    let extras := c.ensureExtras
    { c with extras := some { extras with children := extras.children ++ [pid] } }
  | .post pid kind message => c.post (some pid) kind message

/-- The frame on top, taken off the stack, makes its next step. -/
def runFrame (props : Props U K C) (beh : Behaviour U K σ C) (frame : Frame C) (c : ActorContext U K σ C) :
    ActorContext U K σ C :=
  match frame with
  | .receive => c.defaultReceive props beh
  | .clear => { c with messageOrEnvelope := .null }
  | .code rest =>
    match beh.resume rest c.view c.memory with
    | (memory, .returns) => { c with memory := memory }
    | (memory, .throws) => { c with memory := memory }.throw beh
    | (memory, .performs op rest') => ({ c with memory := memory }.call [.code rest']).perform props beh op
  | .unstashAll => (c.popStash [.unstashAll]).getD c
  | .incarnate =>
    let c : ActorContext U K σ C := { c with state := .alive }
    match beh.produce c.memory with
    | none => c.throw beh
    | some (memory, actor) => ({ c with memory := memory, actor := actor }.call [.restore]).invokeUserMessage .started
  | .restore => (c.popStash [.restore]).getD { c with state := .alive }

/-- A call by the mailbox, or the next step of the running call. -/
inductive Label (U K : Type) where
  | user (message : Ptr U K)
  | system (message : Ptr U K)
  | run
  deriving DecidableEq, Repr

def step (props : Props U K C) (beh : Behaviour U K σ C) : Machine (ActorContext U K σ C) (Label U K) := fun c l =>
  match l, c.stack with
  | .user message, [] => some (c.invokeUserMessage message)
  | .system message, [] => c.invokeSystemMessage beh message
  | .run, frame :: below => some ({ c with stack := below }.runFrame props beh frame)
  | _, _ => none

/-- A context whose actor has been produced and whose PID has been set. -/
def new (self parent : Option PID) (memory : σ) (actor : Bool) : ActorContext U K σ C where
  self := self
  parent := parent
  state := .alive
  messageOrEnvelope := .null
  extras := none
  actor := actor
  memory := memory
  stack := []
  received := []
  continued := []
  sent := []

/-- An actor that returns at once. -/
def idle : Behaviour U K Unit Unit where
  receive := ()
  continuation := fun _ _ _ => ()
  resume := fun _ _ memory => (memory, .returns)
  caught := fun _ => none
  produce := fun memory => some (memory, true)

end ActorContext

end Protoactor.Actor
