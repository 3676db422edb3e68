import Protoactor.Actor.Context.PassThrough

/-!
# Middleware that passes everything on is invisible

Each step of the actor among its middleware is a step of the actor alone, or one of the layers
(`step_run`). A message that has been given to a chain counts as sent before the last sender has
it, and an exception of a call that goes through the layers one by one leaves the actor at once: at
such a moment the actor alone is taken one step back.

A layer that keeps an exception to itself can be told: after a restart whose `Restarting` is
thrown at, the actor goes on to `Started` (`not_invisible_swallowing`).
-/

namespace Protoactor.Actor.PassThrough
set_option autoImplicit false
open Lib ActorContext

variable {U K σ τ C A : Type} {beh : Behaviour U K σ C} {d d' : ActorContext U K (σ × τ) (Program U K τ C)}
  {c : ActorContext U K σ C} {receivers : Option (List (ReceiverMiddleware U K τ C))}
  {senders : Option (List (SenderMiddleware U K τ C))}

/-- What an outsider sees of the labels: the calls of the mailbox. -/
def isCall : Label U K → Bool
  | .run => false
  | _ => true

/-- The calls of `Receive`, and those of `PID::SendUserMessage` and `PID::SendSystemMessage`. -/
def observed {D M : Type} (c : ActorContext U K M D) : List (Received U K) × List (Sent U K) := (c.received, c.sent)

/-! ## The operations -/

/-- `d` is `c` among its layers, and nothing is on its way in these. -/
structure Mirrors (beh : Behaviour U K σ C) (d : ActorContext U K (σ × τ) (Program U K τ C)) (c : ActorContext U K σ C) : Prop where
  erased : erase beh d = c
  calm : Calm d.stack

/-- An operation led from `d` to `d'`, and without the layers to `c`; if a message or an exception
is on its way now that is the only thing that has happened. -/
structure Becomes (beh : Behaviour U K σ C) (d d' : ActorContext U K (σ × τ) (Program U K τ C)) (c : ActorContext U K σ C) : Prop where
  erased : erase beh d' = c
  settled : Settled d'.stack
  kept : Calm d'.stack ∨ d'.sent = d.sent ∧ d'.received = d.received

theorem Mirrors.becomes (mirrors : Mirrors beh d' c) : Becomes beh d d' c :=
  ⟨mirrors.erased, mirrors.calm.settled, .inl mirrors.calm⟩

/-- What comes before an operation without a trace in `sent` or `received`. -/
theorem Becomes.after {d₁ : ActorContext U K (σ × τ) (Program U K τ C)} (becomes : Becomes beh d₁ d' c)
    (sent : d₁.sent = d.sent) (received : d₁.received = d.received) : Becomes beh d d' c :=
  ⟨becomes.erased, becomes.settled, by rw [← sent, ← received]; exact becomes.kept⟩

/-- A context whose layers are calm is erased frame by frame. -/
theorem erase_of_calm (calm : Calm d.stack) : erase beh d =
    { self := d.self, parent := d.parent, state := d.state, messageOrEnvelope := d.messageOrEnvelope, extras := d.extras,
      actor := d.actor, memory := d.memory.1, stack := d.stack.flatMap frames, received := d.received, continued := d.continued,
      sent := d.sent } := by
  rw [erase, calm.eraseStack, calm.owed, List.append_nil]

theorem post_mirrors (calm : Calm d.stack) (target : Option PID) (kind : Kind) (message : Ptr U K) :
    Mirrors beh (d.post target kind message) ((erase beh d).post target kind message) := by
  have calm' : Calm (d.post target kind message).stack := calm
  refine ⟨?_, calm'⟩
  rw [erase_of_calm calm', erase_of_calm calm]
  rfl

theorem call_mirrors (fs : List (Frame (Program U K τ C))) (own : Calm fs) (calm : Calm d.stack) :
    Mirrors beh (d.call fs) ((erase beh d).call (fs.flatMap frames)) := by
  have calm' : Calm (d.call fs).stack := own.append calm
  refine ⟨?_, calm'⟩
  rw [erase_of_calm calm', erase_of_calm calm]
  simp only [call, List.flatMap_append]

/-- The frames of the context's own. -/
theorem calm_own {fs : List (Frame (Program U K τ C))} (own : ∀ f ∈ fs, ∀ p, f ≠ .code p) : Calm fs := by
  intro frame member
  cases frame with
  | code p => exact absurd rfl (own _ member p)
  | receive | clear | unstashAll | incarnate | restore => trivial

theorem invokeUserMessage_mirrors (calm : Calm d.stack) (message : Ptr U K) :
    Mirrors beh (d.invokeUserMessage message) ((erase beh d).invokeUserMessage message) := by
  have state : (erase beh d).state = d.state := rfl
  simp only [invokeUserMessage, state]
  split
  · exact ⟨rfl, calm⟩
  · exact call_mirrors (d := { d with messageOrEnvelope := message }) [.receive, .clear] (calm_own (by simp)) calm

/-- The exception may have to go through some layers yet. -/
theorem throw_becomes (calm : Calm d.stack) : Becomes beh d (d.throw (layered beh)) ((erase beh d).throw beh) := by
  obtain ⟨left, settled, none, -⟩ := erase_unwind beh calm
  refine ⟨?_, settled, .inr ⟨rfl, rfl⟩⟩
  rw [erase_of_calm calm]
  simp only [ActorContext.throw, erase, left, none, List.append_nil]

theorem receive_mirrors (calm : Calm d.stack) : Mirrors beh (d.receive (layered beh)) ((erase beh d).receive beh) := by
  have actor : (erase beh d).actor = d.actor := rfl
  simp only [receive, actor]
  split
  · refine call_mirrors (d := { d with received := d.received ++ [d.current] }) [.code (.own beh.receive)] ?_ calm
    exact calm_cons.2 ⟨⟨trivial, rfl, rfl⟩, nofun⟩
  · exact ⟨rfl, calm⟩

/-- The stash is taken from in the loop `again`; where it is empty, the context goes on as `d'`. -/
theorem popStash_mirrors (again : List (Frame (Program U K τ C))) (loop : Calm again) (calm : Calm d.stack)
    (otherwise : Mirrors beh d' c) :
    Mirrors beh ((d.popStash again).getD d') (((erase beh d).popStash (again.flatMap frames)).getD c) := by
  have same : (erase beh d).extras = d.extras := rfl
  simp only [popStash, same]
  cases d.extras with
  | none => exact otherwise
  | some extras =>
    cases top : extras.stash with
    | nil =>
      simp only [top]
      exact otherwise
    | cons message rest =>
      simp only [top]
      have popped : Mirrors beh _ _ := call_mirrors (d := { d with extras := some { extras with stash := rest } }) again loop calm
      have invoked : Mirrors beh _ _ := invokeUserMessage_mirrors popped.calm message
      rw [popped.erased] at invoked
      exact invoked

/-! ## What the actor does to its context -/

/-- The chain owes the message until its core is reached. -/
theorem sendUserMessage_becomes (passes : ∀ ms ∈ senders, ∀ m ∈ ms, PassesThrough m) (calm : Calm d.stack)
    (pid : Option PID) (message : Ptr U K) :
    Becomes beh d (d.sendUserMessage (props receivers senders) pid message) ((erase beh d).sendUserMessage .plain pid message) := by
  cases pid with
  | none => exact Mirrors.becomes ⟨rfl, calm⟩
  | some target =>
    cases set : senders with
    | none => exact (post_mirrors calm _ _ _).becomes
    | some middleware =>
      have core := (chain_wraps (passes middleware set) (fun call => .lastSender call.1 call.2)
        (some target, .envelope none message none)).same
      constructor
      case settled => exact settled_code (core.passes trivial) calm
      case kept => exact .inr ⟨rfl, rfl⟩
      case erased =>
        rw [erase_of_calm calm]
        simp only [sendUserMessage, props, Option.map_some, Props.plain, withSenderMiddleware, makeSenderMiddlewareChain]
        simp only [erase, eraseStack, call, post, raising, List.singleton_append, List.flatMap_cons, frames, owed, core.frames,
          core.owed, core.raising, calm.owed]
        simp [Program.frames, Program.owed, Program.raising]

theorem perform_becomes (passes : ∀ ms ∈ senders, ∀ m ∈ ms, PassesThrough m) (calm : Calm d.stack) (op : Op U K) :
    Becomes beh d (d.perform (props receivers senders) (layered beh) op) ((erase beh d).perform .plain beh op) := by
  have unchanged : Becomes beh d d (erase beh d) := Mirrors.becomes ⟨rfl, calm⟩
  cases op with
  | receive => exact (receive_mirrors calm).becomes
  | send pid message => exact sendUserMessage_becomes passes calm pid message
  | request pid message => exact sendUserMessage_becomes passes calm pid _
  | requestWithCustomSender pid message sender => exact sendUserMessage_becomes passes calm pid _
  | requestFuture fresh pid message =>
    simp only [perform, requestFuture]
    cases (FutureImpl.newFuture fresh [] : Except FutureImpl.BadWeakPtr (FutureImpl U K K)) with
    | error => exact throw_becomes calm
    | ok future => exact sendUserMessage_becomes passes calm pid _
  | respond response =>
    have same : (erase beh d).sender = d.sender := rfl
    simp only [perform, respond, same]
    cases d.sender with
    | none => exact (post_mirrors calm _ _ _).becomes
    | some sender => exact sendUserMessage_becomes passes calm _ _
  | forward pid =>
    have same : (erase beh d).messageOrEnvelope = d.messageOrEnvelope := rfl
    simp only [perform, forward, same]
    split
    · exact unchanged
    · exact sendUserMessage_becomes passes calm _ _
  | watch pid =>
    simp only [perform, watch]
    split
    · exact (post_mirrors calm _ _ _).becomes
    · exact unchanged
  | unwatch pid =>
    simp only [perform, unwatch]
    split
    · exact (post_mirrors calm _ _ _).becomes
    · exact unchanged
  | stash => exact Mirrors.becomes ⟨rfl, calm⟩
  | unstash => exact (popStash_mirrors [] nofun calm ⟨rfl, calm⟩).becomes
  | unstashAll => exact (call_mirrors [.unstashAll] (calm_own (by simp)) calm).becomes
  | reenterAfter continuation completed =>
    simp only [perform, reenterAfter]
    split
    · exact (post_mirrors calm _ _ _).becomes
    · exact unchanged
  | apply envelope => exact Mirrors.becomes ⟨rfl, calm⟩
  | spawned pid => exact Mirrors.becomes ⟨rfl, calm⟩
  | post pid kind message => exact (post_mirrors calm _ _ _).becomes

/-! ## The calls of the mailbox -/

theorem handleTerminated_mirrors (calm : Calm d.stack) (who : PID) (message : Ptr U K) :
    Mirrors beh (d.handleTerminated who message) ((erase beh d).handleTerminated who message) := by
  have same : (erase beh d).extras = d.extras := rfl
  simp only [handleTerminated, same]
  cases d.extras with
  | none => exact invokeUserMessage_mirrors calm _
  | some extras =>
    let d₁ : ActorContext U K (σ × τ) (Program U K τ C) :=
      { d with extras := some { extras with children := extras.children.filter (·.ref ≠ who.ref) } }
    exact invokeUserMessage_mirrors (d := d₁) calm message

theorem handleRestart_mirrors (calm : Calm d.stack) : Mirrors beh d.handleRestart (erase beh d).handleRestart := by
  have begun : Mirrors beh _ _ := call_mirrors (d := { d with state := .restarting }) [.incarnate] (calm_own (by simp)) calm
  have invoked : Mirrors beh _ _ := invokeUserMessage_mirrors begun.calm .restarting
  rw [begun.erased] at invoked
  exact invoked

/-- A system message has no handler on either side, or the same one on both. -/
theorem invokeSystemMessage_mirrors (calm : Calm d.stack) (message : Ptr U K) :
    (d.invokeSystemMessage (layered beh) message = none ∧ (erase beh d).invokeSystemMessage beh message = none) ∨
      ∃ d' c, d.invokeSystemMessage (layered beh) message = some d' ∧
        (erase beh d).invokeSystemMessage beh message = some c ∧ Mirrors beh d' c := by
  simp only [invokeSystemMessage]
  split
  · exact .inr ⟨_, _, rfl, rfl, rfl, calm⟩
  · split
    · exact .inr ⟨_, _, rfl, rfl,
        call_mirrors (d := { d with messageOrEnvelope := message }) [.receive, .clear] (calm_own (by simp)) calm⟩
    · refine .inr ⟨_, _, rfl, rfl, ?_⟩
      have same : (erase beh d).state = d.state := rfl
      simp only [handleWatch, same]
      split
      · exact post_mirrors calm _ _ _
      · exact ⟨rfl, calm⟩
    · refine .inr ⟨_, _, rfl, rfl, ?_⟩
      have same : (erase beh d).extras = d.extras := rfl
      simp only [handleUnwatch, same]
      split <;> exact ⟨rfl, calm⟩
    · exact .inr ⟨_, _, rfl, rfl, rfl, calm⟩
    · exact .inr ⟨_, _, rfl, rfl, handleTerminated_mirrors calm _ _⟩
    · refine .inr ⟨_, _, rfl, rfl, ?_⟩
      have same : (erase beh d).parent = d.parent := rfl
      simp only [handleFailure, same]
      split
      · exact ⟨rfl, calm⟩
      · exact post_mirrors calm _ _ _
    · exact .inr ⟨_, _, rfl, rfl, handleRestart_mirrors calm⟩
    · rename_i continuation inner _
      refine .inr ⟨_, _, rfl, rfl, ?_⟩
      exact call_mirrors (d := { d with messageOrEnvelope := inner, continued := d.continued ++ [(continuation, Ptr.null, ErrorCode.success)] })
        [.code (.own (beh.continuation continuation .null .success)), .clear]
        (calm_cons.2 ⟨⟨trivial, rfl, rfl⟩, calm_own (by simp)⟩) calm
    · split
      · exact .inr ⟨_, _, rfl, rfl, rfl, calm⟩
      · exact .inl ⟨rfl, rfl⟩

/-! ## The steps of the running call -/

/-- A step of the running call, seen from the actor. -/
inductive Moved (beh : Behaviour U K σ C) (d d' : ActorContext U K (σ × τ) (Program U K τ C)) : Prop where
  | layer (same : erase beh d' = erase beh d) (lower : rank d'.stack < rank d.stack) (settled : Settled d'.stack)
      (kept : Calm d'.stack ∨ ¬ Calm d.stack ∧ observed d' = observed d)
  | actor (calm : Calm d.stack) (own : step .plain beh (erase beh d) .run = some (erase beh d')) (settled : Settled d'.stack)
      (kept : Calm d'.stack ∨ observed d' = observed d)

/-- The frame on top is one of the actor's own. -/
theorem moved_of_becomes {frame : Frame (Program U K τ C)} {below : List (Frame (Program U K τ C))} {f : Frame C}
    (top : d.stack = frame :: below) (quiet : Quiet frame) (calm : Calm below) (left : frames frame = [f])
    (becomes : Becomes beh { d with stack := below } d' ((erase beh { d with stack := below }).runFrame .plain beh f)) :
    Moved beh d d' := by
  have calm' : Calm d.stack := top ▸ calm_cons.2 ⟨quiet, calm⟩
  refine .actor calm' ?_ becomes.settled (becomes.kept.imp id fun ⟨sent, received⟩ => ?_)
  · rw [becomes.erased, erase_of_calm calm', erase_of_calm (d := { d with stack := below }) calm]
    simp only [step, top, List.flatMap_cons, left, List.singleton_append]
  · exact Prod.ext received sent

/-- The program on top: the actor's step with the layers around it, or one of the layers. -/
theorem step_code {p : Program U K τ C} {below : List (Frame (Program U K τ C))}
    (passes : ∀ ms ∈ senders, ∀ m ∈ ms, PassesThrough m) (top : d.stack = .code p :: below) (passing : p.Passing) (calm : Calm below) :
    Moved beh d (({ d with stack := below } : ActorContext U K (σ × τ) (Program U K τ C)).runFrame
      (props receivers senders) (layered beh) (.code p)) := by
  have spec := p.resumed beh passing d.view d.memory.1 d.memory.2
  have same : (layered beh).resume p (ActorContext.view { d with stack := below }) d.memory =
      p.resume beh d.view (d.memory.1, d.memory.2) := rfl
  have light : rank d.stack = p.weight + rank below := by rw [top]; rfl
  simp only [runFrame, same]
  generalize p.resume beh d.view (d.memory.1, d.memory.2) = result at spec
  -- the actor sees the same context
  have view : (erase beh { d with stack := below }).view = d.view := rfl
  have memory : (erase beh { d with stack := below }).memory = d.memory.1 := rfl
  cases spec with
  | returns left own =>
    refine moved_of_becomes top (Program.quiet_of_frames passing left) calm left ?_
    simp only [runFrame, view, memory, own]
    exact Mirrors.becomes ⟨rfl, calm⟩
  | throws left own =>
    refine moved_of_becomes top (Program.quiet_of_frames passing left) calm left ?_
    simp only [runFrame, view, memory, own]
    exact (throw_becomes (d := { d with stack := below, memory := _ }) calm).after rfl rfl
  | @performs c rest op memory' work rest' left own after passes' =>
    refine moved_of_becomes top (Program.quiet_of_frames passing left) calm left ?_
    simp only [runFrame, view, memory, own]
    let d₁ : ActorContext U K (σ × τ) (Program U K τ C) :=
      { d with stack := .code rest' :: below, memory := (memory', work) }
    have calm₁ : Calm d₁.stack := calm_cons.2 ⟨Program.quiet_of_frames passes' after, calm⟩
    have erased : erase beh d₁ = { erase beh { d with stack := below } with memory := memory' }.call [.code rest] := by
      rw [erase_of_calm calm₁, erase_of_calm (d := { d with stack := below }) calm]
      simp [d₁, call, frames, after]
    exact (erased ▸ perform_becomes passes calm₁ op).after rfl rfl
  | @receives work rest' left after quiet =>
    refine moved_of_becomes top (Program.quiet_of_frames passing left) calm left ?_
    let d₁ : ActorContext U K (σ × τ) (Program U K τ C) :=
      { d with stack := .code rest' :: below, memory := (d.memory.1, work) }
    have calm₁ : Calm d₁.stack := calm_cons.2 ⟨quiet, calm⟩
    have erased : erase beh d₁ = erase beh { d with stack := below } := by
      rw [erase_of_calm calm₁, erase_of_calm (d := { d with stack := below }) calm]
      simp [d₁, frames, after]
    exact (erased ▸ receive_mirrors calm₁).becomes
  | finished left quiet =>
    have calm₀ : Calm d.stack := top ▸ calm_cons.2 ⟨quiet, calm⟩
    refine .layer ?_ ?_ calm.settled (.inl calm)
    · rw [erase_of_calm (d := { d with stack := below, memory := _ }) calm, erase_of_calm calm₀]
      simp only [top, List.flatMap_cons, frames, left, List.nil_append]
    · have positive := p.weight_pos
      show rank below < _
      omega
  | @sends target envelope work rest' left owes sound after quiet lower =>
    have calm₁ : Calm (.code rest' :: below) := calm_cons.2 ⟨quiet, calm⟩
    refine .layer ?_ ?_ calm₁.settled (.inl calm₁)
    · simp only [erase, eraseStack, perform, post, call, top, raising, quiet.sound, sound, List.singleton_append, List.flatMap_cons,
        frames, owed, left, after, owes, quiet.settled, calm.owed]
      simp
    · rw [light]
      show rest'.weight + rank below < _
      omega
  | @raises work left settled raises =>
    obtain ⟨unwound, settled', none, lighter⟩ := erase_unwind beh calm
    refine .layer ?_ ?_ settled' (.inr ⟨fun calm₀ => ?_, rfl⟩)
    · simp only [erase, ActorContext.throw, unwound, none]
      simp only [eraseStack, top, raising, raises, if_true, List.flatMap_cons, frames, owed, left, settled, calm.owed, List.nil_append]
    · have positive := p.weight_pos
      show rank (unwind (layered beh) below) < _
      omega
    · have sound := calm₀.raising
      rw [top, raising, raises] at sound
      cases sound

/-- `DefaultReceive` enters the chain. -/
theorem runFrame_receive (middleware : List (ReceiverMiddleware U K τ C)) (senders : Option (List (SenderMiddleware U K τ C)))
    (below : List (Frame (Program U K τ C))) :
    ({ d with stack := below } : ActorContext U K (σ × τ) (Program U K τ C)).runFrame (props (some middleware) senders) (layered beh)
        .receive =
      { d with stack := .code (withReceiverMiddleware middleware (wrapEnvelope d.messageOrEnvelope)) :: below } := rfl

theorem step_run (passes : ∀ ms ∈ receivers, ∀ m ∈ ms, PassesThrough m)
    (passes' : ∀ ms ∈ senders, ∀ m ∈ ms, PassesThrough m) (settled : Settled d.stack)
    (act : step (props receivers senders) (layered beh) d .run = some d') : Moved beh d d' := by
  cases top : d.stack with
  | nil => simp [step, top] at act
  | cons frame below =>
    have calm : Calm below := by simpa only [top, List.tail_cons] using settled.below
    have passing : Passing frame := settled.top frame (by rw [top]; rfl)
    have here : some (({ d with stack := below } : ActorContext U K (σ × τ) (Program U K τ C)).runFrame
        (props receivers senders) (layered beh) frame) = some d' := by simpa only [step, top] using act
    obtain rfl := Option.some.inj here
    cases frame with
    | receive =>
      cases set : receivers with
      | none => exact moved_of_becomes top trivial calm rfl (receive_mirrors calm).becomes
      | some middleware =>
        have core := (chain_wraps (passes middleware set) (fun _ => .lastReceiver) (wrapEnvelope d.messageOrEnvelope)).same
        have entered : Calm (.code (withReceiverMiddleware middleware (wrapEnvelope d.messageOrEnvelope)) :: below) :=
          calm_cons.2 ⟨⟨core.passes trivial, core.owed, core.raising⟩, calm⟩
        have calm₀ : Calm d.stack := top ▸ calm_cons.2 ⟨trivial, calm⟩
        rw [runFrame_receive]
        refine .layer ?_ ?_ entered.settled (.inl entered)
        · have left : (withReceiverMiddleware middleware (wrapEnvelope d.messageOrEnvelope)).frames = [.receive] := core.frames
          rw [erase_of_calm calm₀, erase_of_calm (d := { d with stack := _ }) entered]
          simp only [top, List.flatMap_cons, frames, left]
        · have light : (withReceiverMiddleware middleware (wrapEnvelope d.messageOrEnvelope)).weight = 1 := core.weight
          simp only [rank, top, List.map_cons, List.sum_cons, weight, light]
          omega
    | clear => exact moved_of_becomes top trivial calm rfl (Mirrors.becomes ⟨rfl, calm⟩)
    | unstashAll =>
      exact moved_of_becomes top trivial calm rfl (popStash_mirrors [.unstashAll] (calm_own (by simp)) calm ⟨rfl, calm⟩).becomes
    | restore =>
      exact moved_of_becomes top trivial calm rfl (popStash_mirrors [.restore] (calm_own (by simp)) calm ⟨rfl, calm⟩).becomes
    | incarnate =>
      refine moved_of_becomes top trivial calm rfl ?_
      simp only [runFrame]
      have produced : (layered beh (τ := τ)).produce d.memory =
          (beh.produce d.memory.1).map fun made => ((made.1, d.memory.2), made.2) := rfl
      have same : (erase beh { d with stack := below }).memory = d.memory.1 := rfl
      rw [produced, same]
      cases beh.produce d.memory.1 with
      | none => exact (throw_becomes (d := { d with stack := below, state := .alive }) calm).after rfl rfl
      | some made =>
        let d₁ : ActorContext U K (σ × τ) (Program U K τ C) :=
          { d with stack := below, state := .alive, memory := (made.1, d.memory.2), actor := made.2 }
        have begun : Mirrors beh _ _ := call_mirrors (d := d₁) [.restore] (calm_own (by simp)) calm
        have invoked : Mirrors beh _ _ := invokeUserMessage_mirrors begun.calm .started
        rw [begun.erased] at invoked
        exact invoked.becomes
    | code p => exact step_code passes' top passing calm

/-- A call by the mailbox, made when no other is running. -/
theorem step_call (receivers : Option (List (ReceiverMiddleware U K τ C)))
    (senders : Option (List (SenderMiddleware U K τ C))) (beh : Behaviour U K σ C) {l : Label U K} (call : l ≠ .run) (idle : d.stack = []) :
    (step (props receivers senders) (layered beh) d l = none ∧ step .plain beh (erase beh d) l = none) ∨
      ∃ d' c, step (props receivers senders) (layered beh) d l = some d' ∧ step .plain beh (erase beh d) l = some c ∧
        Mirrors beh d' c := by
  have calm : Calm d.stack := by rw [idle]; exact nofun
  have idle' : (erase beh d).stack = [] := by rw [erase_of_calm calm, idle]; rfl
  cases l with
  | run => exact absurd rfl call
  | user message =>
    simp only [step, idle, idle']
    exact .inr ⟨_, _, rfl, rfl, invokeUserMessage_mirrors calm message⟩
  | system message =>
    simp only [step, idle, idle']
    exact invokeSystemMessage_mirrors calm message

/-! ## Runs -/

theorem call_stack {M D : Type} {p : Props U K D} {b : Behaviour U K M D} {e e' : ActorContext U K M D} {l : Label U K}
    (call : l ≠ .run) (act : step p b e l = some e') : e.stack = [] := by
  cases l with
  | run => exact absurd rfl call
  | user | system =>
    cases top : e.stack with
    | nil => rfl
    | cons => simp [step, top] at act

/-- The actor alone is where the actor among its layers is, or one step before a message is sent or
an exception thrown. -/
inductive Follows (beh : Behaviour U K σ C) (d : ActorContext U K (σ × τ) (Program U K τ C)) (c : ActorContext U K σ C) :
    Prop where
  | even (mirrors : Mirrors beh d c)
  | behind (settled : Settled d.stack) (busy : ¬ Calm d.stack) (next : step .plain beh c .run = some (erase beh d))
      (seen : observed c = observed d)

theorem Mirrors.seen (mirrors : Mirrors beh d c) : observed c = observed d := by
  obtain ⟨rfl, calm⟩ := mirrors
  rw [erase_of_calm calm]
  rfl

theorem Follows.settled (follows : Follows beh d c) : Settled d.stack := by
  cases follows with
  | even mirrors => exact mirrors.calm.settled
  | behind settled => exact settled

theorem Follows.seen (follows : Follows beh d c) : observed c = observed d := by
  cases follows with
  | even mirrors => exact mirrors.seen
  | behind _ _ _ seen => exact seen

/-- The actor alone does what the actor among its layers does. -/
theorem follows_answers (passes : ∀ ms ∈ receivers, ∀ m ∈ ms, PassesThrough m)
    (passes' : ∀ ms ∈ senders, ∀ m ∈ ms, PassesThrough m) :
    Machine.Answers (step (props receivers senders) (layered beh)) (step .plain beh) isCall (Follows (τ := τ) beh) := by
  intro d c l d' follows act
  by_cases running : l = .run
  · subst running
    cases step_run passes passes' follows.settled act with
    | layer same lower settled kept =>
      cases follows with
      | even mirrors =>
        have calm' := kept.resolve_right fun busy => busy.1 mirrors.calm
        exact ⟨[], c, .nil c, rfl, .even ⟨same.trans mirrors.erased, calm'⟩⟩
      | behind _ _ next seen =>
        by_cases calm' : Calm d'.stack
        · exact ⟨[.run], erase beh d, .cons next trivial (.nil _), rfl, .even ⟨same, calm'⟩⟩
        · have unseen := (kept.resolve_left calm').2
          exact ⟨[], c, .nil c, rfl, .behind settled calm' (next.trans (congrArg some same.symm)) (seen.trans unseen.symm)⟩
    | actor calm own settled kept =>
      cases follows with
      | behind _ busy => exact absurd calm busy
      | even mirrors =>
        obtain ⟨rfl, -⟩ := mirrors
        by_cases calm' : Calm d'.stack
        · exact ⟨[.run], erase beh d', .cons own trivial (.nil _), rfl, .even ⟨rfl, calm'⟩⟩
        · have seen : observed (erase beh d) = observed d' :=
            (Mirrors.seen ⟨rfl, calm⟩).trans (kept.resolve_left calm').symm
          exact ⟨[], erase beh d, .nil _, rfl, .behind settled calm' own seen⟩
  · have idle := call_stack running act
    cases follows with
    | behind _ busy => exact absurd (by rw [idle]; exact nofun) busy
    | even mirrors =>
      obtain ⟨rfl, calm⟩ := mirrors
      rcases step_call receivers senders beh running idle with
        ⟨none, -⟩ | ⟨d₁, c₁, here, here', mirrors⟩
      · rw [none] at act; cases act
      · rw [here] at act
        cases act
        exact ⟨[l], c₁, .cons here' trivial (.nil _), rfl, .even mirrors⟩

/-- The actor among its layers has a step as long as it has a frame. -/
theorem step_of_cons (receivers : Option (List (ReceiverMiddleware U K τ C))) (senders : Option (List (SenderMiddleware U K τ C)))
    (beh : Behaviour U K σ C) {frame : Frame (Program U K τ C)} {below : List (Frame (Program U K τ C))} (top : d.stack = frame :: below) :
    ∃ d', step (props receivers senders) (layered beh) d .run = some d' := by
  simp only [step, top]
  exact ⟨_, rfl⟩

/-- The actor among its layers does what the actor alone does, after some steps of the layers. -/
theorem erase_answers (passes : ∀ ms ∈ receivers, ∀ m ∈ ms, PassesThrough m)
    (passes' : ∀ ms ∈ senders, ∀ m ∈ ms, PassesThrough m) :
    Machine.Answers (step .plain beh) (step (props receivers senders) (layered (τ := τ) beh)) isCall fun c d =>
      Settled d.stack ∧ erase beh d = c := by
  refine Machine.answers_of_catchUp (fun d => rank d.stack) fun c d l c' related act => ?_
  obtain ⟨settled, rfl⟩ := related
  cases top : d.stack with
  | nil =>
    have running : l ≠ .run := by
      rintro rfl
      simp [step, erase, eraseStack, top, unwind] at act
    rcases step_call receivers senders beh running top with
      ⟨-, none⟩ | ⟨d', c₁, here, here', mirrors⟩
    · rw [none] at act; cases act
    · rw [here'] at act
      cases act
      exact .inl ⟨d', here, mirrors.calm.settled, mirrors.erased⟩
  | cons frame below =>
    obtain ⟨d', here⟩ := step_of_cons receivers senders beh top
    cases step_run passes passes' settled here with
    | layer same lower settled' => exact .inr ⟨.run, d', rfl, here, ⟨settled', same⟩, top ▸ lower⟩
    | actor calm own settled' =>
      have running : l = .run := by
        refine Classical.byContradiction fun call => ?_
        simp [step, call_stack call act] at own
      subst running
      rw [own] at act
      cases act
      exact .inl ⟨d', here, settled', rfl⟩

/-- Whatever is on its way in the layers, they hand on without anybody noticing. -/
theorem flush (passes : ∀ ms ∈ receivers, ∀ m ∈ ms, PassesThrough m)
    (passes' : ∀ ms ∈ senders, ∀ m ∈ ms, PassesThrough m) (settled : Settled d.stack) :
    ∃ ls d', Machine.Run (step (props receivers senders) (layered beh)) Machine.free d ls d' ∧
      ls.filter isCall = [] ∧ observed d' = observed (erase beh d) := by
  induction bound : rank d.stack using Nat.strongRecOn generalizing d with
  | ind r ih =>
    by_cases calm : Calm d.stack
    · exact ⟨[], d, .nil d, rfl, (Mirrors.seen ⟨rfl, calm⟩).symm⟩
    · cases top : d.stack with
      | nil => exact absurd (by rw [top]; exact nofun) calm
      | cons frame below =>
        obtain ⟨d₁, here⟩ := step_of_cons receivers senders beh top
        cases step_run passes passes' settled here with
        | actor calm' => exact absurd calm' calm
        | layer same lower settled' =>
          obtain ⟨ls, d', run, hidden, seen⟩ := ih (rank d₁.stack) (by omega) settled' rfl
          exact ⟨.run :: ls, d', .cons here trivial run, hidden, seen.trans (congrArg observed same)⟩

/-- **Middleware that passes everything on is invisible**: with the same calls by the mailbox the
actor receives the same messages and sends the same, whichever chains have been set. -/
theorem middleware_invisible (beh : Behaviour U K σ C) (receivers : Option (List (ReceiverMiddleware U K τ C)))
    (senders : Option (List (SenderMiddleware U K τ C))) (passes : ∀ ms ∈ receivers, ∀ m ∈ ms, PassesThrough m)
    (passes' : ∀ ms ∈ senders, ∀ m ∈ ms, PassesThrough m) (self parent : Option PID) (memory : σ) (work : τ)
    (actor : Bool) :
    Machine.Matches (step (props receivers senders) (layered beh)) (new self parent (memory, work) actor)
        (step .plain beh) (new self parent memory actor) isCall observed observed ∧
      Machine.Matches (step .plain beh) (new self parent memory actor)
        (step (props receivers senders) (layered beh)) (new self parent (memory, work) actor) isCall observed observed := by
  constructor
  · refine (follows_answers passes passes').matches (.even ⟨rfl, nofun⟩) fun d c follows => ?_
    exact ⟨[], c, .nil c, rfl, follows.seen⟩
  · refine (erase_answers passes passes').matches ⟨Calm.settled nofun, rfl⟩ fun c d related => ?_
    obtain ⟨settled, rfl⟩ := related
    exact flush passes passes' settled

/-- Counts the calls, and the exceptions among them twice. -/
def counting : Middleware A U K Nat C := fun next args => .around ⟨fun _ n => n + 1, fun _ n => n, fun _ n => (n + 1, true)⟩ (next args)

theorem counting_passes : ∀ m ∈ [counting (A := A) (U := U) (K := K) (C := C), counting], PassesThrough m := by
  intro m member
  have same : m = counting := by simpa using member
  rw [same]
  exact ⟨fun _ => ⟨fun _ n => n + 1, fun _ n => n, fun _ n => (n + 1, true)⟩, fun _ _ _ => rfl, fun _ _ => rfl⟩

/-- Two of them on either side of an actor that returns at once. -/
theorem middleware_invisible_counting :
    Machine.Matches (step (props (some [counting, counting]) (some [counting, counting])) (layered (idle (U := Nat) (K := Nat))))
        (new none none ((), 0) true) (step .plain idle) (new none none () true) isCall observed observed ∧
      Machine.Matches (step .plain (idle (U := Nat) (K := Nat))) (new none none () true)
        (step (props (some [counting, counting]) (some [counting, counting])) (layered idle)) (new none none ((), 0) true)
        isCall observed observed :=
  middleware_invisible idle (some [counting, counting]) (some [counting, counting])
    (by rintro ms ⟨⟩; exact counting_passes) (by rintro ms ⟨⟩; exact counting_passes) none none () 0 true

/-! ## A layer that keeps exceptions to itself -/

/-- Catches what its `next` throws, and returns. -/
def swallowing : Middleware A U K Unit C := fun next args =>
  .around ⟨fun _ work => work, fun _ work => work, fun _ work => (work, false)⟩ (next args)

theorem swallowing_callsNextOnce : CallsNextOnce (swallowing (A := A) (U := U) (K := K) (C := C)) :=
  ⟨fun _ => ⟨fun _ work => work, fun _ work => work, fun _ work => (work, false)⟩, fun _ _ => rfl⟩

/-- An actor that throws at `Restarting`. -/
def thrower : Behaviour Nat Nat Unit Unit where
  receive := ()
  continuation := fun _ _ _ => ()
  resume := fun _ view memory => (memory, if view.received.message = .restarting then .throws else .returns)
  caught := fun _ => none
  produce := fun memory => some (memory, true)

/-- Where this actor is, alone and only ever restarted: it does not get as far as its new instance. -/
inductive Restarted (c : ActorContext Nat Nat Unit Unit) : Prop where
  | idle (here : c.stack = [])
  | called (here : c.stack = [.receive, .clear, .incarnate]) (message : c.messageOrEnvelope = .restarting)
  | running (here : c.stack = [.code (), .clear, .incarnate]) (message : c.messageOrEnvelope = .restarting)

theorem restarted_keeps : Machine.Keeps (step .plain thrower) (fun _ l => l = .run ∨ l = .system .restart)
    fun c => (c.actor = true ∧ ∀ r ∈ c.received, r.message = .restarting) ∧ Restarted c := by
  rintro c l c' ⟨⟨actor, restarting⟩, restarted⟩ (rfl | rfl) act
  · cases restarted with
    | idle here => simp [step, here] at act
    | called here message =>
      simp only [step, here, Option.some.injEq] at act
      subst act
      have now : c.current = ⟨.restarting, none, none⟩ := by rw [current, message]; rfl
      have called : (({ c with stack := [.clear, .incarnate] } : ActorContext Nat Nat Unit Unit).runFrame .plain thrower .receive) =
          { c with received := c.received ++ [c.current], stack := [.code (), .clear, .incarnate] } := by
        simp only [runFrame, defaultReceive, Props.plain, receive, actor, if_true]
        rfl
      rw [called]
      refine ⟨⟨actor, fun r member => ?_⟩, .running rfl message⟩
      rcases List.mem_append.1 member with before | last
      · exact restarting r before
      · rw [List.mem_singleton.1 last, now]
    | running here message =>
      simp only [step, here, Option.some.injEq] at act
      subst act
      have now : c.current = ⟨.restarting, none, none⟩ := by rw [current, message]; rfl
      have thrown : (({ c with stack := [.clear, .incarnate] } : ActorContext Nat Nat Unit Unit).runFrame .plain thrower (.code ())) =
          { c with stack := [] } := by
        have sees : (({ c with stack := [.clear, .incarnate] } : ActorContext Nat Nat Unit Unit).view).received.message = .restarting := by
          show c.current.message = _
          rw [now]
        simp only [runFrame, thrower, sees, if_true]
        rfl
      rw [thrown]
      exact ⟨⟨actor, restarting⟩, .idle rfl⟩
  · cases here : c.stack with
    | cons => simp [step, here] at act
    | nil =>
      simp only [step, here] at act
      cases act
      refine ⟨⟨actor, restarting⟩, .called ?_ rfl⟩
      show [Frame.receive, .clear] ++ ([Frame.incarnate] ++ c.stack) = _
      rw [here]
      rfl

/-- After the first call of a restart: its exception has been swallowed. -/
def survived : ActorContext Nat Nat (Unit × Unit) (Program Nat Nat Unit Unit) where
  self := none
  parent := none
  state := .restarting
  messageOrEnvelope := .restarting
  extras := none
  actor := true
  memory := ((), ())
  stack := [.clear, .incarnate]
  received := [⟨.restarting, none, none⟩]
  continued := []
  sent := []

/-- **A middleware that swallows an exception can be told**, although it calls its `next` once: with
it the actor is given `Started` after it has thrown at `Restarting`. -/
theorem not_invisible_swallowing :
    CallsNextOnce (swallowing (A := Ptr Nat Nat) (U := Nat) (K := Nat) (C := Unit)) ∧
      ¬ Machine.Matches (step (props (some [swallowing]) none) (layered thrower)) (new none none ((), ()) true)
        (step .plain thrower) (new none none () true) isCall observed observed := by
  refine ⟨swallowing_callsNextOnce, fun invisible => ?_⟩
  have first : Machine.exec (step (props (some [swallowing]) none) (layered thrower)) [.system .restart, .run, .run, .run, .run]
      (new none none ((), ()) true) = some survived := rfl
  have second : (Machine.exec (step (props (some [swallowing]) none) (layered thrower)) [.run, .run, .run, .run] survived).any
      (fun d => decide (⟨.started, none, none⟩ ∈ d.received)) = true := by decide
  obtain ⟨d, later, received⟩ := Machine.run_of_any second
  obtain ⟨ls, c, alone, same, seen⟩ := invisible _ d ((Machine.free_of_exec first).append later)
  have calls : ∀ l ∈ ls, l = .run ∨ l = .system .restart := by
    intro l member
    by_cases call : isCall l
    · have among : l ∈ ls.filter isCall := List.mem_filter.2 ⟨member, call⟩
      rw [same] at among
      exact .inr (List.mem_singleton.1 among)
    · cases l with
      | run => exact .inl rfl
      | user | system => exact absurd rfl call
  obtain ⟨⟨-, restarting⟩, -⟩ := Machine.Run.keeps restarted_keeps (alone.labelled calls) ⟨⟨rfl, nofun⟩, .idle rfl⟩
  have also : c.received = d.received := congrArg Prod.fst seen
  have started := restarting ⟨.started, none, none⟩ (also ▸ of_decide_eq_true received)
  cases started

end Protoactor.Actor.PassThrough
