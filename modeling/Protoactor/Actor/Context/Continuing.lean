import Protoactor.Actor.Context.Stashing

/-!
# During a continuation (`src/actor/actor_context.cpp`)

`HandleContinuation` sets the message, calls the closure and clears the message again. In between
the closure may do what any program may do. Two things break the frame: an exception that leaves
the closure, since then nothing is cleared, and a call that makes the context go on to another message.
-/

namespace Protoactor.Actor.ActorContext
set_option autoImplicit false
open Lib

variable {U K σ C : Type} {props : Props U K C} {beh : Behaviour U K σ C} {c c' : ActorContext U K σ C}

/-- An exception is thrown that no program on the stack catches. `RequestFuture` throws what `NewFuture` throws. -/
def Escapes (beh : Behaviour U K σ C) (c : ActorContext U K σ C) : Prop :=
  match c.stack with
  | .code rest :: below =>
    match (beh.resume rest c.view c.memory).2 with
    | .throws => unwind beh below = []
    | .performs (.requestFuture _ _ _) rest' => unwind beh (.code rest' :: below) = []
    | _ => False
  | _ => False

/-- The message on top of the stash would be processed. -/
def Unstashes (c : ActorContext U K σ C) : Prop := c.stashStack ≠ [] ∧ c.state ≠ .stopped

/-- A message is taken off the stash and processed, or a captured context with another one is applied. -/
def Switches (beh : Behaviour U K σ C) (c : ActorContext U K σ C) : Prop :=
  match c.stack with
  | .code rest :: _ =>
    match (beh.resume rest c.view c.memory).2 with
    | .performs (.apply envelope) _ => seen envelope ≠ c.current
    | .performs .unstash _ => c.Unstashes
    | _ => False
  | .unstashAll :: _ => c.Unstashes
  | _ => False

/-- The next step of the running call stays with its message. -/
structure Stays (beh : Behaviour U K σ C) (c : ActorContext U K σ C) : Prop where
  caught : ¬ Escapes beh c
  same : ¬ Switches beh c

/-! ## Calls of continuations -/

theorem continued_invokeUserMessage (message : Ptr U K) (c : ActorContext U K σ C) :
    (c.invokeUserMessage message).continued = c.continued := by
  unfold invokeUserMessage
  split <;> rfl

theorem continued_sendUserMessage (pid : Option PID) (message : Ptr U K) (c : ActorContext U K σ C) :
    (c.sendUserMessage props pid message).continued = c.continued := by
  unfold sendUserMessage
  split
  · rfl
  · dsimp only
    split <;> rfl

theorem continued_popStash (again : List (Frame C)) (c : ActorContext U K σ C) :
    ((c.popStash again).getD c).continued = c.continued := by
  unfold popStash
  split
  · rfl
  · split
    · rfl
    · exact continued_invokeUserMessage _ _

theorem continued_receive (c : ActorContext U K σ C) : (c.receive beh).continued = c.continued := by
  unfold receive
  split <;> rfl

theorem continued_perform (op : Op U K) (c : ActorContext U K σ C) : (c.perform props beh op).continued = c.continued := by
  cases op with
  | receive => exact continued_receive c
  | send pid message | request pid message | requestWithCustomSender pid message sender => exact continued_sendUserMessage _ _ c
  | respond response =>
    show (c.respond props response).continued = _
    unfold respond
    split
    · rfl
    · exact continued_sendUserMessage _ _ c
  | forward pid =>
    show (c.forward props pid).continued = _
    unfold forward
    split
    · rfl
    · exact continued_sendUserMessage _ _ c
  | watch pid =>
    show (c.watch pid).continued = _
    unfold watch
    split <;> rfl
  | unwatch pid =>
    show (c.unwatch pid).continued = _
    unfold unwatch
    split <;> rfl
  | unstash => exact continued_popStash [] c
  | reenterAfter continuation completed =>
    show (c.reenterAfter continuation completed).continued = _
    unfold reenterAfter
    split <;> rfl
  | requestFuture fresh pid message | stash | unstashAll | apply envelope | spawned pid | post pid kind message => rfl

/-- No step of a call calls a continuation. -/
theorem continued_run (act : step props beh c .run = some c') : c'.continued = c.continued := by
  cases stack : c.stack with
  | nil => simp [step, stack] at act
  | cons frame below =>
    simp only [step, stack, Option.some.injEq] at act
    subst act
    cases frame with
    | receive =>
      show (({ c with stack := below } : ActorContext U K σ C).defaultReceive props beh).continued = _
      unfold defaultReceive
      split
      · rfl
      · exact continued_receive _
    | clear => rfl
    | code rest =>
      unfold runFrame
      dsimp only
      split
      · rfl
      · rfl
      · exact continued_perform _ _
    | unstashAll => exact continued_popStash _ _
    | incarnate =>
      unfold runFrame
      dsimp only
      split
      · rfl
      · exact continued_invokeUserMessage _ _
    | restore =>
      unfold runFrame popStash
      dsimp only
      split
      · rfl
      · split
        · rfl
        · exact continued_invokeUserMessage _ _

/-- The continuation that a call of the context calls. -/
def continuing (message : Ptr U K) : Option (K × Ptr U K) :=
  match actualMessage message with
  | .continuation (some continuation) inner => some (continuation, inner)
  | _ => none

/-- `InvokeSystemMessage` calls the continuation of a continuation message and no other. -/
theorem continued_system {message : Ptr U K} (act : c.invokeSystemMessage beh message = some c') :
    (∃ continuation inner, continuing message = some (continuation, inner) ∧ c' = c.handleContinuation beh continuation inner) ∨
      (continuing message = none ∧ c'.continued = c.continued) := by
  have other : ∀ {actual : Ptr U K}, actualMessage message = actual → (∀ k inner, actual ≠ .continuation (some k) inner) →
      continuing message = none := by
    intro actual same differs
    unfold continuing
    rw [same]
    split
    · exact absurd rfl (differs _ _)
    · rfl
  cases handled act with
  | continuation actual => exact .inl ⟨_, _, by rw [continuing, actual], rfl⟩
  | ignored nothing =>
    refine .inr ⟨other rfl fun k inner same => ?_, rfl⟩
    rw [same] at nothing
    cases nothing
  | started actual => exact .inr ⟨other actual nofun, rfl⟩
  | stop actual => exact .inr ⟨other actual nofun, rfl⟩
  | restart actual => exact .inr ⟨other actual nofun, continued_invokeUserMessage _ _⟩
  | watch actual =>
    refine .inr ⟨other actual nofun, ?_⟩
    unfold handleWatch
    split <;> rfl
  | unwatch actual =>
    refine .inr ⟨other actual nofun, ?_⟩
    unfold handleUnwatch
    split <;> rfl
  | terminated actual =>
    refine .inr ⟨other actual nofun, ?_⟩
    unfold handleTerminated
    split <;> exact continued_invokeUserMessage _ _
  | failure actual =>
    refine .inr ⟨other actual nofun, ?_⟩
    unfold handleFailure
    split <;> rfl

/-! ## The frame of a continuation -/

/-- The closure is running: above the end of `HandleContinuation` there are programs and their loops. -/
structure Continuing (seen : Received U K) (c : ActorContext U K σ C) : Prop where
  stack : ∃ above, (∀ frame ∈ above, frame.pushed = true) ∧ c.stack = above ++ [.clear]
  current : c.current = seen

theorem continuing_handle {continuation : K} {message : Ptr U K} (idle : c.stack = []) :
    Continuing (Actor.seen message) (c.handleContinuation beh continuation message) := by
  refine ⟨⟨[.code (beh.continuation continuation .null .success)], pushed_code _, ?_⟩, rfl⟩
  show _ ++ c.stack = _
  rw [idle]
  rfl

/-- What a method of the context does to the stack and the message, called by the program on top. -/
inductive Goes (beh : Behaviour U K σ C) (c : ActorContext U K σ C) (below : List (Frame C)) : ActorContext U K σ C → Prop where
  | calls {c' : ActorContext U K σ C} {frames : List (Frame C)} (own : ∀ frame ∈ frames, frame.pushed = true)
      (stack : c'.stack = frames ++ below) (current : c'.current = c.current) : Goes beh c below c'
  | throws {c' : ActorContext U K σ C} (stack : c'.stack = unwind beh c.stack) (caught : c'.stack ≠ [])
      (current : c'.current = c.current) : Goes beh c below c'

theorem goes_sendUserMessage {below : List (Frame C)} {code : C} (stack : c.stack = .code code :: below) (pid : Option PID)
    (message : Ptr U K) : Goes beh c below (c.sendUserMessage props pid message) := by
  unfold sendUserMessage
  split
  · exact .calls (pushed_code code) stack rfl
  · dsimp only
    split
    · rename_i chain _
      exact .calls (pushed_codes (chain _ _) code) (congrArg (Frame.code (chain _ _) :: ·) stack) rfl
    · exact .calls (pushed_code code) stack rfl

/-- `Unstash` and its loop find nothing to process. -/
theorem goes_popStash {again frames below : List (Frame C)} (loop : ∀ frame ∈ again, frame.pushed = true)
    (own : ∀ frame ∈ frames, frame.pushed = true) (stack : c.stack = frames ++ below) (stays : ¬ c.Unstashes) :
    Goes beh c below ((c.popStash again).getD c) := by
  unfold popStash
  cases some : c.extras with
  | none => exact .calls own stack rfl
  | some extras =>
    cases stash : extras.stash with
    | nil => simpa only [stash] using .calls own stack rfl
    | cons top rest =>
      have stopped : c.state = .stopped := by
        by_contra running
        refine stays ⟨?_, running⟩
        rw [stashStack, ensureExtras, some, Option.getD_some, stash]
        exact List.cons_ne_nil top rest
      simp only [stash, Option.getD_some]
      rw [invokeUserMessage_stopped (c := call { c with extras := Option.some { extras with stash := rest } } again) stopped]
      refine .calls (List.forall_mem_append.2 ⟨loop, own⟩) ?_ rfl
      show again ++ c.stack = _
      rw [stack, List.append_assoc]

/-- A method of the context, called by the program on top. -/
theorem goes_perform (op : Op U K) {below : List (Frame C)} {code : C} (stack : c.stack = .code code :: below)
    (caught : ∀ fresh pid message, op = .requestFuture fresh pid message → unwind beh c.stack ≠ [])
    (applied : ∀ envelope, op = .apply envelope → seen envelope = c.current) (unstashed : op = .unstash → ¬ c.Unstashes) :
    Goes beh c below (c.perform props beh op) := by
  have same : Goes beh c below c := .calls (pushed_code code) stack rfl
  have quiet : ∀ {c' : ActorContext U K σ C}, c'.stack = c.stack → c'.current = c.current → Goes beh c below c' :=
    fun stack' current => .calls (pushed_code code) (stack'.trans stack) current
  cases op with
  | receive =>
    show Goes beh c below (c.receive beh)
    unfold receive
    split
    · exact .calls (pushed_codes beh.receive code) (congrArg (Frame.code beh.receive :: ·) stack) rfl
    · exact same
  | send pid message | request pid message | requestWithCustomSender pid message sender => exact goes_sendUserMessage stack _ _
  | requestFuture fresh pid message => exact .throws rfl (caught fresh pid message rfl) rfl
  | respond response =>
    show Goes beh c below (c.respond props response)
    unfold respond
    split
    · exact quiet rfl rfl
    · exact goes_sendUserMessage stack _ _
  | forward pid =>
    show Goes beh c below (c.forward props pid)
    unfold forward
    split
    · exact same
    · exact goes_sendUserMessage stack _ _
  | watch pid =>
    show Goes beh c below (c.watch pid)
    unfold watch
    split <;> exact quiet rfl rfl
  | unwatch pid =>
    show Goes beh c below (c.unwatch pid)
    unfold unwatch
    split <;> exact quiet rfl rfl
  | unstash => exact goes_popStash (fun _ member => absurd member List.not_mem_nil) (pushed_code code) stack (unstashed rfl)
  | unstashAll =>
    exact .calls (List.forall_mem_cons.2 ⟨rfl, pushed_code code⟩) (congrArg (Frame.unstashAll :: ·) stack) rfl
  | reenterAfter continuation completed =>
    show Goes beh c below (c.reenterAfter continuation completed)
    unfold reenterAfter
    split <;> exact quiet rfl rfl
  | apply envelope => exact .calls (pushed_code code) stack (applied envelope rfl)
  | stash | spawned pid | post pid kind message => exact quiet rfl rfl

/-- What is left of the stack when an exception is caught. -/
theorem frames_of_unwind {above : List (Frame C)} (own : ∀ frame ∈ above, frame.pushed = true)
    (caught : unwind beh (above ++ [Frame.clear]) ≠ []) :
    ∃ frames, (∀ frame ∈ frames, frame.pushed = true) ∧ unwind beh (above ++ [Frame.clear]) = frames ++ [Frame.clear] := by
  rcases unwind_append beh above [.clear] with ⟨code, rest, suffix, left⟩ | gone
  · refine ⟨.code code :: rest, List.forall_mem_cons.2 ⟨rfl, fun frame inside => ?_⟩, left⟩
    exact own frame (suffix.subset inside)
  · exact absurd gone caught

/-- What goes on above the end of `HandleContinuation` leaves that end where it is. -/
theorem Goes.continuing {current : Received U K} {upper above : List (Frame C)} (goes : Goes beh c (above ++ [Frame.clear]) c')
    (now : c.current = current) (own : ∀ frame ∈ above, frame.pushed = true) (upperOwn : ∀ frame ∈ upper, frame.pushed = true)
    (whole : c.stack = upper ++ [Frame.clear]) : Continuing current c' := by
  cases goes with
  | @calls frames pushed stack current' =>
    refine ⟨⟨frames ++ above, List.forall_mem_append.2 ⟨pushed, own⟩, ?_⟩, current'.trans now⟩
    rw [stack, List.append_assoc]
  | throws stack left current' =>
    rw [whole] at stack
    obtain ⟨frames, pushed, unwound⟩ := frames_of_unwind upperOwn (stack ▸ left)
    exact ⟨⟨frames, pushed, stack.trans unwound⟩, current'.trans now⟩

/-- The program on top of the stack goes on. -/
theorem continuing_code {current : Received U K} {above : List (Frame C)} {code : C} (now : c.current = current)
    (own : ∀ frame ∈ above, frame.pushed = true) (stack : c.stack = .code code :: (above ++ [Frame.clear])) (stays : Stays beh c)
    (act : ({ c with stack := above ++ [Frame.clear] } : ActorContext U K σ C).runFrame props beh (.code code) = c') :
    Continuing current c' := by
  obtain ⟨caught, same⟩ := stays
  simp only [Switches, stack] at same
  simp only [Escapes, stack] at caught
  unfold runFrame at act
  dsimp only at act
  rw [show ({ c with stack := above ++ [Frame.clear] } : ActorContext U K σ C).view = c.view from rfl] at act
  cases resumed : beh.resume code c.view c.memory with
  | mk memory next =>
    rw [resumed] at act same caught
    cases next with
    | returns =>
      subst act
      exact ⟨⟨above, own, rfl⟩, now⟩
    | throws =>
      subst act
      obtain ⟨frames, pushed, unwound⟩ := frames_of_unwind own caught
      exact ⟨⟨frames, pushed, unwound⟩, now⟩
    | performs op code' =>
      have goes : Goes beh (({ c with stack := above ++ [Frame.clear], memory := memory } : ActorContext U K σ C).call [.code code'])
          (above ++ [Frame.clear]) c' := by
        subst act
        refine goes_perform op rfl ?_ ?_ ?_
        · rintro fresh pid message rfl
          exact caught
        · rintro envelope rfl
          exact Classical.not_not.1 same
        · rintro rfl
          exact same
      exact goes.continuing now own (List.forall_mem_cons.2 ⟨rfl, own⟩) rfl

/-- **A step of the closure** stays within the frame, or is the end of the call. -/
theorem continuing_run {current : Received U K} (continuing : Continuing current c) (stays : Stays beh c)
    (act : step props beh c .run = some c') :
    Continuing current c' ∨ (c'.stack = [] ∧ c'.messageOrEnvelope = .null) := by
  obtain ⟨⟨above, own, stack⟩, now⟩ := continuing
  cases above with
  | nil =>
    have top : c.stack = .clear :: [] := stack
    simp only [step, top, Option.some.injEq] at act
    subst act
    exact .inr ⟨rfl, rfl⟩
  | cons frame above =>
    have top : c.stack = frame :: (above ++ [Frame.clear]) := stack
    obtain ⟨pushed, rest⟩ := List.forall_mem_cons.1 own
    simp only [step, top, Option.some.injEq] at act
    refine .inl ?_
    cases frame with
    | receive | clear | incarnate | restore => cases pushed
    | unstashAll =>
      have none : ¬ c.Unstashes := by simpa only [Switches, top] using stays.same
      have goes : Goes beh ({ c with stack := above ++ [Frame.clear] } : ActorContext U K σ C) (above ++ [Frame.clear]) c' := by
        subst act
        exact goes_popStash (List.forall_mem_singleton.2 rfl) (List.forall_mem_nil _) rfl none
      exact goes.continuing now rest rest rfl
    | code code => exact continuing_code now rest top stays act

end Protoactor.Actor.ActorContext
