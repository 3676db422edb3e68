import Protoactor.Lib.Simulation
import Protoactor.Actor.Context

/-!
# Middleware that passes everything on (`src/actor/props.cpp`, `src/actor/middleware_chain.cpp`)

The chains of `Props` around an actor. A handler is a function from its arguments to the code of
its call; a middleware is a function from handlers to handlers. `CallsNextOnce` is the middleware
that calls its `next` once, with what it got: before and after that it may read the context and
work on memory of its own, and it may catch an exception of `next`. `PassesThrough` is one that
lets every exception go on.

`erase` forgets the layers: a call of the actor by the last receiver becomes the direct call of
`DefaultReceive`, a message on its way to the last sender counts as sent, and an exception that
has reached a layer has gone on to where the actor catches it.
-/

namespace Protoactor.Actor.PassThrough
set_option autoImplicit false
open Lib ActorContext

variable {U K σ τ C A : Type}

/-! ## The chains -/

/-- What a middleware does about the call of its `next`. -/
structure Layer (U K τ : Type) where
  before : View U K → τ → τ
  after : View U K → τ → τ
  /-- where `next` throws, with whether the exception goes on -/
  failed : View U K → τ → τ × Bool

/-- The code of a handler's call. -/
inductive Program (U K τ C : Type) where
  /-- the actor, a closure, or any other middleware -/
  | own (c : C)
  | lastReceiver
  | lastSender (target : Option PID) (envelope : Ptr U K)
  /-- a middleware that works, calls its `next` and works again -/
  | around (layer : Layer U K τ) (next : Program U K τ C)
  /-- a middleware that has caught an exception of its `next` -/
  | failing (failed : View U K → τ → τ × Bool)
  | returned

/-- `std::function<void(...)>` of a chain, from its arguments but the context. -/
abbrev Handler (A U K τ C : Type) := A → Program U K τ C

abbrev Middleware (A U K τ C : Type) := Handler A U K τ C → Handler A U K τ C

abbrev ReceiverMiddleware (U K τ C : Type) := Middleware (Ptr U K) U K τ C

abbrev SenderMiddleware (U K τ C : Type) := Middleware (Option PID × Ptr U K) U K τ C

/-- The chain of either kind, from the last middleware to the first. -/
def makeMiddlewareChain {H : Type} (middleware : List (H → H)) (last : H) : H :=
  match middleware.reverse with
  | [] => last
  | m :: rest => rest.foldl (fun h m => m h) (m last)

def makeReceiverMiddlewareChain (middleware : List (ReceiverMiddleware U K τ C))
    (lastReceiver : Handler (Ptr U K) U K τ C) : Handler (Ptr U K) U K τ C :=
  makeMiddlewareChain middleware lastReceiver

def makeSenderMiddlewareChain (middleware : List (SenderMiddleware U K τ C))
    (lastSender : Handler (Option PID × Ptr U K) U K τ C) : Handler (Option PID × Ptr U K) U K τ C :=
  makeMiddlewareChain middleware lastSender

/-- The last receiver asks the context for the actor; the envelope is not looked at. -/
def withReceiverMiddleware (middleware : List (ReceiverMiddleware U K τ C)) : Handler (Ptr U K) U K τ C :=
  makeReceiverMiddlewareChain middleware fun _ => .lastReceiver

def withSenderMiddleware (middleware : List (SenderMiddleware U K τ C)) : Handler (Option PID × Ptr U K) U K τ C :=
  makeSenderMiddlewareChain middleware fun (target, envelope) => .lastSender target envelope

/-- `Props` with the middleware that has been set. -/
def props (receivers : Option (List (ReceiverMiddleware U K τ C))) (senders : Option (List (SenderMiddleware U K τ C))) :
    Props U K (Program U K τ C) where
  receiverMiddlewareChain := receivers.map withReceiverMiddleware
  senderMiddlewareChain := senders.map fun middleware target envelope => withSenderMiddleware middleware (some target, envelope)

/-- The middleware calls its `next` once, with its own arguments, and leaves the context alone. -/
def CallsNextOnce (m : Middleware A U K τ C) : Prop :=
  ∃ layer : A → Layer U K τ, ∀ next args, m next args = .around (layer args) (next args)

/-- An exception of `next` goes on. -/
def Layer.Rethrows (layer : Layer U K τ) : Prop := ∀ view work, (layer.failed view work).2 = true

/-- The middleware calls its `next` once, and ends as that does. -/
def PassesThrough (m : Middleware A U K τ C) : Prop :=
  ∃ layer : A → Layer U K τ, (∀ args, (layer args).Rethrows) ∧ ∀ next args, m next args = .around (layer args) (next args)

theorem PassesThrough.callsNextOnce {m : Middleware A U K τ C} (passes : PassesThrough m) : CallsNextOnce m :=
  passes.imp fun _ both => both.2

/-! ## Programs -/

/-- How a layer ends that has caught an exception. -/
def ending (throws : Bool) : Next U K (Program U K τ C) := if throws then .throws else .returns

/-- Up to the next call of a method of the context; the work before `next` is done on the way. -/
def Program.resume (beh : Behaviour U K σ C) :
    Program U K τ C → View U K → σ × τ → (σ × τ) × Next U K (Program U K τ C)
  | .own c, view, (memory, work) =>
    match beh.resume c view memory with
    | (memory, .returns) => ((memory, work), .returns)
    | (memory, .throws) => ((memory, work), .throws)
    | (memory, .performs op rest) => ((memory, work), .performs op (.own rest))
  | .lastReceiver, _, memory => (memory, .performs .receive .returned)
  | .lastSender none _, _, memory => (memory, .returns)
  | .lastSender (some target) envelope, _, memory => (memory, .performs (.post target .user envelope) .returned)
  | .around layer next, view, (memory, work) =>
    match next.resume beh view (memory, layer.before view work) with
    | ((memory, work), .returns) => ((memory, layer.after view work), .returns)
    | ((memory, work), .throws) => ((memory, (layer.failed view work).1), ending (layer.failed view work).2)
    | (memory, .performs op rest) => (memory, .performs op (.around { layer with before := fun _ work => work } rest))
  | .failing failed, view, (memory, work) => ((memory, (failed view work).1), ending (failed view work).2)
  | .returned, _, memory => (memory, .returns)

/-- An exception comes to the actor's own code first, and then to the layers from the inside. -/
def Program.caught (beh : Behaviour U K σ C) : Program U K τ C → Option (Program U K τ C)
  | .own c => (beh.caught c).map .own
  | .around layer next =>
    match next.caught beh with
    | some next => some (.around layer next)
    | none => some (.failing layer.failed)
  | .lastReceiver | .lastSender _ _ | .failing _ | .returned => none

/-- The actor among its middleware. -/
def layered (beh : Behaviour U K σ C) : Behaviour U K (σ × τ) (Program U K τ C) where
  receive := .own beh.receive
  continuation := fun continuation message code => .own (beh.continuation continuation message code)
  resume := Program.resume beh
  caught := Program.caught beh
  produce := fun (memory, work) => (beh.produce memory).map fun (memory, actor) => ((memory, work), actor)

/-! ## Without the layers -/

/-- What a program is without middleware. -/
def Program.frames : Program U K τ C → List (Frame C)
  | .own c => [.code c]
  | .lastReceiver => [.receive]
  | .around _ next => next.frames
  | .lastSender _ _ | .failing _ | .returned => []

/-- The message it is about to send. -/
def Program.owed : Program U K τ C → List (Sent U K)
  | .lastSender (some target) envelope => [⟨some target, .user, envelope⟩]
  | .around _ next => next.owed
  | _ => []

/-- An exception has reached one of its layers. -/
def Program.raising : Program U K τ C → Bool
  | .around _ next => next.raising
  | .failing _ => true
  | _ => false

/-- Its layers let exceptions go on. -/
def Program.Passing : Program U K τ C → Prop
  | .around layer next => layer.Rethrows ∧ next.Passing
  | .failing failed => ∀ view work, (failed view work).2 = true
  | _ => True

/-- The steps it takes beyond those of its frames. -/
def Program.weight : Program U K τ C → Nat
  | .lastSender _ _ => 2
  | .around _ next => next.weight
  | _ => 1

def frames : Frame (Program U K τ C) → List (Frame C)
  | .receive => [.receive]
  | .clear => [.clear]
  | .code rest => rest.frames
  | .unstashAll => [.unstashAll]
  | .incarnate => [.incarnate]
  | .restore => [.restore]

def owed : Frame (Program U K τ C) → List (Sent U K)
  | .code rest => rest.owed
  | _ => []

/-- An exception is on its way through the frame on top. -/
def raising : List (Frame (Program U K τ C)) → Bool
  | .code rest :: _ => rest.raising
  | _ => false

/-- `DefaultReceive` may have to enter the chain. -/
def weight : Frame (Program U K τ C) → Nat
  | .receive => 2
  | .code rest => rest.weight
  | _ => 0

/-- The frames without the layers; an exception has left those that let it pass. -/
def eraseStack (beh : Behaviour U K σ C) (stack : List (Frame (Program U K τ C))) : List (Frame C) :=
  if raising stack then unwind beh (stack.flatMap frames) else stack.flatMap frames

/-- The context without its middleware; what is owed counts as sent. -/
def erase (beh : Behaviour U K σ C) (d : ActorContext U K (σ × τ) (Program U K τ C)) : ActorContext U K σ C where
  self := d.self
  parent := d.parent
  state := d.state
  messageOrEnvelope := d.messageOrEnvelope
  extras := d.extras
  actor := d.actor
  memory := d.memory.1
  stack := eraseStack beh d.stack
  received := d.received
  continued := d.continued
  sent := d.sent ++ d.stack.flatMap owed

def rank (stack : List (Frame (Program U K τ C))) : Nat := (stack.map weight).sum

/-! ## Stacks -/

/-- A frame of the actor's own, or a program that passes exceptions on. -/
def Passing : Frame (Program U K τ C) → Prop
  | .code rest => rest.Passing
  | _ => True

/-- Nothing is owed, and no exception is on its way. -/
structure Program.Quiet (p : Program U K τ C) : Prop where
  passes : p.Passing
  settled : p.owed = []
  sound : p.raising = false

def Quiet : Frame (Program U K τ C) → Prop
  | .code rest => rest.Quiet
  | _ => True

def Calm (stack : List (Frame (Program U K τ C))) : Prop := ∀ frame ∈ stack, Quiet frame

theorem calm_cons {frame : Frame (Program U K τ C)} {below : List (Frame (Program U K τ C))} :
    Calm (frame :: below) ↔ Quiet frame ∧ Calm below := List.forall_mem_cons

theorem Calm.append {above below : List (Frame (Program U K τ C))} (calm : Calm above) (calm' : Calm below) : Calm (above ++ below) :=
  List.forall_mem_append.2 ⟨calm, calm'⟩

theorem owed_of_quiet {frame : Frame (Program U K τ C)} (quiet : Quiet frame) : owed frame = [] := by
  cases frame with
  | code rest => exact quiet.settled
  | receive | clear | unstashAll | incarnate | restore => rfl

theorem Calm.owed {stack : List (Frame (Program U K τ C))} (calm : Calm stack) : stack.flatMap owed = [] :=
  List.flatMap_eq_nil_iff.2 fun frame member => owed_of_quiet (calm frame member)

theorem Calm.raising {stack : List (Frame (Program U K τ C))} (calm : Calm stack) : raising stack = false := by
  cases stack with
  | nil => rfl
  | cons frame below =>
    cases frame with
    | code rest => exact (calm_cons.1 calm).1.sound
    | receive | clear | unstashAll | incarnate | restore => rfl

theorem Calm.eraseStack {stack : List (Frame (Program U K τ C))} (beh : Behaviour U K σ C) (calm : Calm stack) :
    eraseStack beh stack = stack.flatMap frames := if_neg (by rw [calm.raising]; exact Bool.false_ne_true)

/-- Only the program on top owes a message or has an exception on its way. -/
structure Settled (stack : List (Frame (Program U K τ C))) : Prop where
  top : ∀ frame ∈ stack.head?, Passing frame
  below : Calm stack.tail

theorem passing_of_quiet {frame : Frame (Program U K τ C)} (quiet : Quiet frame) : Passing frame := by
  cases frame with
  | code rest => exact quiet.passes
  | receive | clear | unstashAll | incarnate | restore => trivial

theorem Calm.settled {stack : List (Frame (Program U K τ C))} (calm : Calm stack) : Settled stack := by
  cases stack with
  | nil => exact ⟨nofun, calm⟩
  | cons frame below =>
    obtain ⟨quiet, calm'⟩ := calm_cons.1 calm
    exact ⟨fun _ is => Option.some.inj is ▸ passing_of_quiet quiet, calm'⟩

theorem settled_code {p : Program U K τ C} {below : List (Frame (Program U K τ C))} (passes : p.Passing) (calm : Calm below) :
    Settled (.code p :: below) := ⟨fun _ is => Option.some.inj is ▸ passes, calm⟩

/-! ## The layers of a chain -/

/-- Middleware around a program. -/
inductive Wraps (core : Program U K τ C) : Program U K τ C → Prop where
  | core : Wraps core core
  | layer {layer : Layer U K τ} {next : Program U K τ C} (rethrows : layer.Rethrows) : Wraps core next → Wraps core (.around layer next)

theorem makeMiddlewareChain_eq {H : Type} (middleware : List (H → H)) (last : H) :
    makeMiddlewareChain middleware last = middleware.foldr (fun m h => m h) last := by
  unfold makeMiddlewareChain
  rw [← List.foldl_reverse]
  cases middleware.reverse <;> rfl

/-- A chain that passes everything on has the last handler at its core, called with the arguments of the chain. -/
theorem chain_wraps {middleware : List (Middleware A U K τ C)} (passes : ∀ m ∈ middleware, PassesThrough m)
    (last : Handler A U K τ C) (args : A) : Wraps (last args) (makeMiddlewareChain middleware last args) := by
  rw [makeMiddlewareChain_eq]
  induction middleware with
  | nil => exact .core
  | cons m rest ih =>
    obtain ⟨layer, rethrows, calls⟩ := passes m List.mem_cons_self
    rw [List.foldr_cons, calls]
    exact .layer (rethrows args) (ih fun m' inside => passes m' (List.mem_cons_of_mem _ inside))

/-- The layers change nothing about a program but its work. -/
structure Program.Same (core p : Program U K τ C) : Prop where
  frames : p.frames = core.frames
  owed : p.owed = core.owed
  weight : p.weight = core.weight
  raising : p.raising = core.raising
  passes : core.Passing → p.Passing

theorem Wraps.same {core p : Program U K τ C} (wraps : Wraps core p) : core.Same p := by
  induction wraps with
  | core => exact ⟨rfl, rfl, rfl, rfl, id⟩
  | layer rethrows _ ih => exact ⟨ih.frames, ih.owed, ih.weight, ih.raising, fun passes => ⟨rethrows, ih.passes passes⟩⟩

/-! ## What a program does next -/

/-- What is left of a program with frames are its layers. -/
theorem Program.quiet_of_frames {p : Program U K τ C} {frame : Frame C} {rest : List (Frame C)} (passes : p.Passing)
    (left : p.frames = frame :: rest) : p.Quiet := by
  refine ⟨passes, ?_, ?_⟩
  all_goals
    clear passes
    induction p with
    | lastSender | failing | returned => cases left
    | around _ _ ih => exact ih left
    | own | lastReceiver => rfl

/-- The outcomes of `Program.resume`, by what the program is without its layers. -/
inductive Resumed (beh : Behaviour U K σ C) (view : View U K) (memory : σ) (p : Program U K τ C) :
    (σ × τ) × Next U K (Program U K τ C) → Prop where
  | returns {c : C} {memory' : σ} {work : τ} (left : p.frames = [.code c])
      (own : beh.resume c view memory = (memory', .returns)) : Resumed beh view memory p ((memory', work), .returns)
  | throws {c : C} {memory' : σ} {work : τ} (left : p.frames = [.code c])
      (own : beh.resume c view memory = (memory', .throws)) : Resumed beh view memory p ((memory', work), .throws)
  | performs {c rest : C} {op : Op U K} {memory' : σ} {work : τ} {rest' : Program U K τ C} (left : p.frames = [.code c])
      (own : beh.resume c view memory = (memory', .performs op rest)) (after : rest'.frames = [.code rest])
      (passes : rest'.Passing) : Resumed beh view memory p ((memory', work), .performs op rest')
  | receives {work : τ} {rest' : Program U K τ C} (left : p.frames = [.receive]) (after : rest'.frames = [])
      (quiet : rest'.Quiet) : Resumed beh view memory p ((memory, work), .performs .receive rest')
  | finished {work : τ} (left : p.frames = []) (quiet : p.Quiet) : Resumed beh view memory p ((memory, work), .returns)
  | sends {target : PID} {envelope : Ptr U K} {work : τ} {rest' : Program U K τ C} (left : p.frames = [])
      (owes : p.owed = [⟨some target, .user, envelope⟩]) (sound : p.raising = false) (after : rest'.frames = [])
      (quiet : rest'.Quiet) (lower : rest'.weight < p.weight) :
      Resumed beh view memory p ((memory, work), .performs (.post target .user envelope) rest')
  | raises {work : τ} (left : p.frames = []) (settled : p.owed = []) (raising : p.raising = true) :
      Resumed beh view memory p ((memory, work), .throws)

theorem Program.Quiet.around {next : Program U K τ C} {layer : Layer U K τ} (rethrows : layer.Rethrows) (quiet : next.Quiet) :
    (Program.around layer next).Quiet := ⟨⟨rethrows, quiet.passes⟩, quiet.settled, quiet.sound⟩

theorem Program.resumed (beh : Behaviour U K σ C) {p : Program U K τ C} (passes : p.Passing) (view : View U K) (memory : σ) (work : τ) :
    Resumed beh view memory p (p.resume beh view (memory, work)) := by
  induction p generalizing work with
  | own c =>
    simp only [Program.resume]
    cases own : beh.resume c view memory with
    | mk memory' next =>
      cases next with
      | returns => exact .returns rfl own
      | throws => exact .throws rfl own
      | performs op rest => exact .performs rfl own rfl trivial
  | lastReceiver => exact .receives rfl rfl ⟨trivial, rfl, rfl⟩
  | lastSender target envelope =>
    cases target with
    | none => exact .finished rfl ⟨trivial, rfl, rfl⟩
    | some target => exact .sends rfl rfl rfl rfl ⟨trivial, rfl, rfl⟩ (by simp [Program.weight])
  | returned => exact .finished rfl ⟨trivial, rfl, rfl⟩
  | failing failed =>
    simp only [Program.resume, ending, passes view work, if_true]
    exact .raises rfl rfl rfl
  | around layer next ih =>
    obtain ⟨rethrows, passes⟩ := passes
    have inner := ih passes (layer.before view work)
    simp only [Program.resume]
    generalize next.resume beh view (memory, layer.before view work) = result at inner
    -- the layer goes on as its `next` does
    cases inner with
    | returns left own => exact .returns left own
    | @throws c memory' work left own =>
      simp only [ending, rethrows view work, if_true]
      exact .throws left own
    | performs left own after passes => exact .performs left own after ⟨rethrows, passes⟩
    | receives left after quiet => exact .receives left after (quiet.around rethrows)
    | finished left quiet => exact .finished left (quiet.around rethrows)
    | sends left owes sound after quiet lower => exact .sends left owes sound after (quiet.around rethrows) lower
    | @raises work left settled raising =>
      simp only [ending, rethrows view work, if_true]
      exact .raises left settled raising

/-! ## Exceptions -/

theorem Program.weight_pos (p : Program U K τ C) : 0 < p.weight := by
  induction p with
  | around _ _ ih => exact ih
  | own | lastReceiver | lastSender | failing | returned => simp [Program.weight]

/-- Where an exception reaches a program: its own code catches it, or a layer, or it has none of both. -/
inductive Caught (beh : Behaviour U K σ C) (p : Program U K τ C) : Option (Program U K τ C) → Prop where
  | own {c c' : C} {p' : Program U K τ C} (left : p.frames = [.code c]) (here : beh.caught c = some c')
      (after : p'.frames = [.code c']) (quiet : p'.Quiet) (light : p'.weight ≤ p.weight) : Caught beh p (some p')
  | layer {p' : Program U K τ C} (left : ∀ below, unwind beh (p.frames ++ below) = unwind beh below) (after : p'.frames = [])
      (passes : p'.Passing) (settled : p'.owed = []) (raising : p'.raising = true) (light : p'.weight ≤ p.weight) :
      Caught beh p (some p')
  | none (left : ∀ below, unwind beh (p.frames ++ below) = unwind beh below) : Caught beh p none

theorem Program.caught_cases (beh : Behaviour U K σ C) {p : Program U K τ C} (passes : p.Passing) : Caught beh p (p.caught beh) := by
  induction p with
  | own c =>
    cases here : beh.caught c with
    | none =>
      simp only [Program.caught, here, Option.map_none]
      exact .none fun below => by simp [Program.frames, unwind, here]
    | some c' =>
      simp only [Program.caught, here, Option.map_some]
      exact .own rfl here rfl ⟨trivial, rfl, rfl⟩ (Nat.le_refl _)
  | lastReceiver | lastSender | failing | returned => exact .none fun below => rfl
  | around layer next ih =>
    obtain ⟨rethrows, passes⟩ := passes
    have inner := ih passes
    simp only [Program.caught]
    generalize next.caught beh = result at inner
    cases inner with
    | own left here after quiet light => exact .own left here after (quiet.around rethrows) light
    | layer left after passes settled raising light => exact .layer left after ⟨rethrows, passes⟩ settled raising light
    | none left => exact .layer left rfl rethrows rfl rfl next.weight_pos

/-- **An exception passes the layers.** -/
theorem erase_unwind (beh : Behaviour U K σ C) {stack : List (Frame (Program U K τ C))} (calm : Calm stack) :
    eraseStack beh (unwind (layered beh) stack) = unwind beh (stack.flatMap frames) ∧ Settled (unwind (layered beh) stack) ∧
      (unwind (layered beh) stack).flatMap owed = [] ∧ rank (unwind (layered beh) stack) ≤ rank stack := by
  induction stack with
  | nil => exact ⟨rfl, calm.settled, rfl, Nat.le_refl _⟩
  | cons frame below ih =>
    obtain ⟨quiet, calm'⟩ := calm_cons.1 calm
    obtain ⟨same, settled, none, light⟩ := ih calm'
    have lighter : rank (unwind (layered beh) below) ≤ rank (frame :: below) := by
      simp only [rank, List.map_cons, List.sum_cons] at light ⊢
      omega
    cases frame with
    | code p =>
      have spec := p.caught_cases beh quiet.passes
      have here : (layered beh (τ := τ)).caught p = p.caught beh := rfl
      simp only [unwind, here, List.flatMap_cons, frames]
      generalize p.caught beh = result at spec
      cases spec with
      | @own c c' p' left here after quiet' light =>
        have calm : Calm (.code p' :: below) := calm_cons.2 ⟨quiet', calm'⟩
        refine ⟨?_, calm.settled, calm.owed, ?_⟩
        · rw [calm.eraseStack, left]
          simp [frames, after, unwind, here]
        · simp only [rank, List.map_cons, List.sum_cons, weight]
          omega
      | @layer p' left after passes settled' raises light =>
        refine ⟨?_, settled_code passes calm', ?_, ?_⟩
        · rw [left, eraseStack, raising, raises, if_pos rfl, List.flatMap_cons, frames, after, List.nil_append]
        · rw [List.flatMap_cons, PassThrough.owed, settled', calm'.owed, List.nil_append]
        · simp only [rank, List.map_cons, List.sum_cons, weight]
          omega
      | none left => exact ⟨same.trans (left _).symm, settled, none, lighter⟩
    | receive | clear | unstashAll | incarnate | restore => exact ⟨same, settled, none, lighter⟩

end Protoactor.Actor.PassThrough
