import Protoactor.Actor.Context.Lifecycle
import Protoactor.Actor.Context.Steady

/-!
# The stash (`src/actor/actor_context.cpp`, `include/internal/actor/actor_context.h`)

`stash_` is a `std::stack`. `UnstashAll` and the end of `HandleRestart` take messages off its top until
it is empty, and invoke each before they look again: what the actor stashes or takes off meanwhile
counts. A replay is one such loop, from its first test of the stash until its frame is left.
-/

namespace Protoactor.Actor
set_option autoImplicit false
open Lib

variable {U K σ C : Type}

/-- A loop that takes everything off the stash. -/
def Frame.drains : Frame C → Bool
  | .unstashAll | .restore => true
  | _ => false

/-- A frame that a program leaves on the stack when it calls the context. -/
def Frame.pushed : Frame C → Bool
  | .code _ | .unstashAll => true
  | _ => false

/-- What the accessors answer while the message is processed. -/
def seen (message : Ptr U K) : Received U K :=
  match unwrapEnvelope message with
  | (header, message, sender) => ⟨message, header, sender⟩

namespace ActorContext

variable {props : Props U K C} {beh : Behaviour U K σ C} {c c' : ActorContext U K σ C}

/-- `stash_`, its top first; without `Extras` there is nothing in it. -/
def stashStack (c : ActorContext U K σ C) : List (Ptr U K) := c.ensureExtras.stash

/-- The stashed messages in the order in which they were stashed. -/
def stashed (c : ActorContext U K σ C) : List (Ptr U K) := c.stashStack.reverse

theorem current_eq (c : ActorContext U K σ C) : c.current = seen c.messageOrEnvelope := rfl

/-! ## One step -/

/-- What a step of a call can do to the stash and to the stack, whose rest is `rest`. -/
inductive Moved (beh : Behaviour U K σ C) (c : ActorContext U K σ C) (rest : List (Frame C)) (stashes : Bool) :
    ActorContext U K σ C → Prop where
  | calls {c' : ActorContext U K σ C} {frames : List (Frame C)} (none : stashes = false) (own : ∀ frame ∈ frames, frame.pushed = true)
      (stack : c'.stack = frames ++ rest) (stash : c'.stashStack = c.stashStack) : Moved beh c rest stashes c'
  | throws {c' : ActorContext U K σ C} (none : stashes = false) (stack : c'.stack = unwind beh rest)
      (stash : c'.stashStack = c.stashStack) : Moved beh c rest stashes c'
  | stashes {c' : ActorContext U K σ C} {code : C} (one : stashes = true) (stack : c'.stack = .code code :: rest)
      (stash : c'.stashStack = c.messageOrEnvelope :: c.stashStack) : Moved beh c rest stashes c'
  /-- a message is taken off; a stopped actor does not get it -/
  | takes {c' : ActorContext U K σ C} {top : Ptr U K} {again : List (Frame C)} (none : stashes = false)
      (own : ∀ frame ∈ again, frame.pushed = true) (stash : c.stashStack = top :: c'.stashStack)
      (stack : c'.stack = (if c.state = .stopped then [] else [.receive, .clear]) ++ again ++ rest)
      (message : c.state ≠ .stopped → c'.messageOrEnvelope = top) : Moved beh c rest stashes c'

/-- The frame calls `Stash` when it goes on. -/
def stashing (beh : Behaviour U K σ C) (c : ActorContext U K σ C) : Frame C → Bool
  | .code code =>
    match (beh.resume code c.view c.memory).2 with
    | .performs .stash _ => true
    | _ => false
  | _ => false

theorem moved_same {rest frames : List (Frame C)} (own : ∀ frame ∈ frames, frame.pushed = true) (stack : c'.stack = frames ++ rest)
    (extras : c'.extras = c.extras) : Moved beh c rest false c' := by
  refine .calls rfl own stack ?_
  rw [stashStack, ensureExtras, extras]
  rfl

theorem pushed_code (code : C) : ∀ frame ∈ [Frame.code code], frame.pushed = true := List.forall_mem_singleton.2 rfl

theorem pushed_codes (first second : C) : ∀ frame ∈ [Frame.code first, .code second], frame.pushed = true :=
  List.forall_mem_cons.2 ⟨rfl, pushed_code second⟩

/-- An exception of the program on top reaches it first. -/
theorem moved_throw {rest : List (Frame C)} {code : C} (stack : c'.stack = .code code :: rest) (extras : c'.extras = c.extras) :
    Moved beh c rest false (c'.throw beh) := by
  cases caught : beh.caught code with
  | none =>
    refine .throws rfl ?_ ?_
    · rw [throw, stack, unwind, caught]
    · show c'.ensureExtras.stash = c.ensureExtras.stash
      rw [ensureExtras, extras, ensureExtras]
  | some code' =>
    refine moved_same (pushed_code code') ?_ extras
    rw [throw, stack, unwind, caught]
    rfl

theorem moved_sendUserMessage {rest : List (Frame C)} {code : C} (stack : c'.stack = .code code :: rest) (extras : c'.extras = c.extras)
    (pid : Option PID) (message : Ptr U K) : Moved beh c rest false (c'.sendUserMessage props pid message) := by
  unfold sendUserMessage
  split
  · exact moved_same (pushed_code code) stack extras
  · dsimp only
    split
    · rename_i chain _
      exact moved_same (pushed_codes (chain _ _) code) (congrArg (Frame.code (chain _ _) :: ·) stack) extras
    · exact moved_same (pushed_code code) stack extras

theorem invokeUserMessage_of_running (running : c.state ≠ .stopped) (message : Ptr U K) :
    c.invokeUserMessage message = c.processMessage message := if_neg running

/-- The loops and `Unstash` look whether there is a message on the stash. -/
theorem popStash_cases (again : List (Frame C)) (c : ActorContext U K σ C) :
    (c.stashStack = [] ∧ c.popStash again = none) ∨
      ∃ top c', c.popStash again = some c' ∧ c.stashStack = top :: c'.stashStack ∧ c'.state = c.state ∧
        c'.stack = (if c.state = .stopped then [] else [Frame.receive, .clear]) ++ again ++ c.stack ∧
        (c.state ≠ .stopped → c'.messageOrEnvelope = top) := by
  unfold popStash stashStack ensureExtras
  cases c.extras with
  | none => exact .inl ⟨rfl, rfl⟩
  | some extras =>
    dsimp only [Option.getD_some]
    cases stash : extras.stash with
    | nil => exact .inl ⟨rfl, rfl⟩
    | cons top below =>
      refine .inr ⟨top, _, rfl, ?_⟩
      by_cases stopped : c.state = .stopped
      · rw [invokeUserMessage_stopped (c := call { c with extras := some { extras with stash := below } } again) stopped,
          if_pos stopped]
        exact ⟨rfl, rfl, rfl, fun running => absurd stopped running⟩
      · rw [invokeUserMessage_of_running (c := call { c with extras := some { extras with stash := below } } again) stopped,
          if_neg stopped]
        exact ⟨rfl, rfl, rfl, fun _ => rfl⟩

/-- A method of the context, called by the program on top. -/
theorem moved_perform (op : Op U K) {rest : List (Frame C)} {code : C} (stack : c'.stack = .code code :: rest)
    (extras : c'.extras = c.extras) (state : c'.state = c.state) (message : c'.messageOrEnvelope = c.messageOrEnvelope) :
    Moved beh c rest (match op with | .stash => true | _ => false) (c'.perform props beh op) := by
  have same : Moved beh c rest false c' := moved_same (pushed_code code) stack extras
  have stash : c'.stashStack = c.stashStack := by rw [stashStack, ensureExtras, extras]; rfl
  cases op with
  | receive =>
    show Moved beh c rest false (c'.receive beh)
    unfold receive
    split
    · exact moved_same (pushed_codes beh.receive code) (congrArg (Frame.code beh.receive :: ·) stack) extras
    · exact same
  | send pid message | request pid message | requestWithCustomSender pid message sender =>
    exact moved_sendUserMessage stack extras _ _
  | requestFuture fresh pid message => exact moved_throw stack extras
  | respond response =>
    show Moved beh c rest false (c'.respond props response)
    unfold respond
    split
    · exact moved_same (pushed_code code) stack extras
    · exact moved_sendUserMessage stack extras _ _
  | forward pid =>
    show Moved beh c rest false (c'.forward props pid)
    unfold forward
    split
    · exact same
    · exact moved_sendUserMessage stack extras _ _
  | watch pid =>
    show Moved beh c rest false (c'.watch pid)
    unfold watch
    split
    · exact moved_same (pushed_code code) stack extras
    · exact same
  | unwatch pid =>
    show Moved beh c rest false (c'.unwatch pid)
    unfold unwatch
    split
    · exact moved_same (pushed_code code) stack extras
    · exact same
  | stash =>
    refine .stashes rfl stack ?_
    show c'.messageOrEnvelope :: c'.stashStack = _
    rw [message, stash]
  | unstash =>
    show Moved beh c rest false ((c'.popStash []).getD c')
    rcases popStash_cases [] c' with ⟨-, none⟩ | ⟨top, c'', taken, shorter, -, stack', message'⟩
    · rw [none]
      exact same
    · rw [taken]
      refine .takes rfl (pushed_code code) (stash.symm.trans shorter) ?_ (state ▸ message')
      rw [Option.getD_some, stack', stack, state, List.append_nil, List.append_assoc]
      rfl
  | unstashAll =>
    exact moved_same (List.forall_mem_cons.2 ⟨rfl, pushed_code code⟩) (congrArg (Frame.unstashAll :: ·) stack) extras
  | reenterAfter continuation completed =>
    show Moved beh c rest false (c'.reenterAfter continuation completed)
    unfold reenterAfter
    split
    · exact moved_same (pushed_code code) stack extras
    · exact same
  | apply envelope | post pid kind message => exact moved_same (pushed_code code) stack extras
  | spawned pid => exact .calls rfl (pushed_code code) stack stash

/-- A loop ends with an empty stash, or takes a message off it. -/
theorem loop_runFrame (props : Props U K C) (beh : Behaviour U K σ C) {loop : Frame C} (drains : loop.drains = true)
    (c : ActorContext U K σ C) (rest : List (Frame C)) {c' : ActorContext U K σ C}
    (ran : ({ c with stack := rest } : ActorContext U K σ C).runFrame props beh loop = c') :
    (c.stashStack = [] ∧ c'.stashStack = [] ∧ c'.stack = rest) ∨
      ∃ top, c.stashStack = top :: c'.stashStack ∧ c'.state = c.state ∧
        c'.stack = (if c.state = .stopped then [] else [Frame.receive, .clear]) ++ loop :: rest ∧
        (c.state ≠ .stopped → c'.messageOrEnvelope = top) := by
  have looks : ∀ done : ActorContext U K σ C, done.stack = rest → done.extras = c.extras →
      (({ c with stack := rest } : ActorContext U K σ C).popStash [loop]).getD done = c' →
      (c.stashStack = [] ∧ c'.stashStack = [] ∧ c'.stack = rest) ∨
        ∃ top, c.stashStack = top :: c'.stashStack ∧ c'.state = c.state ∧
          c'.stack = (if c.state = .stopped then [] else [Frame.receive, .clear]) ++ loop :: rest ∧
          (c.state ≠ .stopped → c'.messageOrEnvelope = top) := by
    intro done stack extras ran
    rcases popStash_cases [loop] { c with stack := rest } with ⟨empty, none⟩ | ⟨top, d, taken, shorter, state, stack', message⟩
    · rw [none, Option.getD_none] at ran
      subst ran
      refine .inl ⟨empty, ?_, stack⟩
      rw [stashStack, ensureExtras, extras]
      exact empty
    · rw [taken, Option.getD_some] at ran
      subst ran
      refine .inr ⟨top, shorter, state, ?_, message⟩
      rw [stack', List.append_assoc]
      rfl
  cases loop with
  | unstashAll => exact looks { c with stack := rest } rfl rfl ran
  | restore => exact looks { c with stack := rest, state := .alive } rfl rfl ran
  | receive | clear | code _ | incarnate => cases drains

/-- Any frame but those of `HandleRestart`. -/
theorem moved_runFrame (props : Props U K C) {frame : Frame C} (other : frame.restarts = false) (rest : List (Frame C)) :
    Moved beh c rest (stashing beh c frame) (({ c with stack := rest } : ActorContext U K σ C).runFrame props beh frame) := by
  have none : ∀ frame ∈ ([] : List (Frame C)), frame.pushed = true := fun frame member => absurd member List.not_mem_nil
  cases frame with
  | receive =>
    show Moved beh c rest false (({ c with stack := rest } : ActorContext U K σ C).defaultReceive props beh)
    unfold defaultReceive
    split
    · exact moved_same (pushed_code _) rfl rfl
    · unfold receive
      split
      · exact moved_same (pushed_code beh.receive) rfl rfl
      · exact moved_same none rfl rfl
  | clear => exact moved_same none rfl rfl
  | code code =>
    unfold runFrame stashing
    dsimp only
    rw [show ({ c with stack := rest } : ActorContext U K σ C).view = c.view from rfl]
    cases beh.resume code c.view c.memory with
    | mk memory next =>
      cases next with
      | returns => exact moved_same none rfl rfl
      | throws => exact .throws rfl rfl rfl
      | performs op code' =>
        have moved : Moved beh c rest (match op with | .stash => true | _ => false)
            ((({ c with stack := rest, memory := memory } : ActorContext U K σ C).call [.code code']).perform props beh op) :=
          moved_perform op rfl rfl rfl rfl
        cases op <;> exact moved
  | unstashAll =>
    have again : ∀ frame ∈ [Frame.unstashAll (C := C)], frame.pushed = true := List.forall_mem_singleton.2 rfl
    rcases loop_runFrame props beh (show (Frame.unstashAll : Frame C).drains = true from rfl) c rest rfl with ⟨empty, left, stack⟩ | ⟨top, shorter, -, stack, message⟩
    · exact .calls rfl none stack (left.trans empty.symm)
    · refine .takes rfl again shorter ?_ message
      rw [stack, List.append_assoc]
      rfl
  | incarnate | restore => cases other

/-! ## Exceptions -/

/-- An exception is caught in the upper part of the stack, or reaches the lower one. -/
theorem unwind_append (beh : Behaviour U K σ C) (above below : List (Frame C)) :
    (∃ code rest, rest <:+ above ∧ unwind beh (above ++ below) = .code code :: rest ++ below) ∨
      unwind beh (above ++ below) = unwind beh below := by
  induction above with
  | nil => exact .inr rfl
  | cons frame above ih =>
    have later : unwind beh (frame :: above ++ below) = unwind beh (above ++ below) →
        (∃ code rest, rest <:+ frame :: above ∧ unwind beh (frame :: above ++ below) = .code code :: rest ++ below) ∨
          unwind beh (frame :: above ++ below) = unwind beh below := by
      intro passed
      rw [passed]
      rcases ih with ⟨code, rest, suffix, caught⟩ | gone
      · exact .inl ⟨code, rest, suffix.trans (List.suffix_cons frame above), caught⟩
      · exact .inr gone
    cases frame with
    | code code =>
      cases caught : beh.caught code with
      | none => exact later (by rw [List.cons_append, unwind, caught])
      | some code' => exact .inl ⟨code', above, List.suffix_cons _ above, by rw [List.cons_append, unwind, caught]; rfl⟩
    | receive | clear | unstashAll | incarnate | restore => exact later rfl

theorem length_unwind (beh : Behaviour U K σ C) (stack : List (Frame C)) : (unwind beh stack).length ≤ stack.length := by
  induction stack with
  | nil => exact Nat.le_refl 0
  | cons frame below ih =>
    cases frame with
    | code code =>
      unfold unwind
      split
      · exact Nat.le_refl _
      · exact Nat.le_succ_of_le ih
    | receive | clear | unstashAll | incarnate | restore => exact Nat.le_succ_of_le ih

/-! ## The loop of a restart -/

/-- A restart is at the bottom of the stack, and once the new actor is there the state is not `STATE_STOPPED`. -/
def Restarts (c : ActorContext U K σ C) : Prop :=
  ∃ above base, c.stack = above ++ base ∧ Plain above ∧ (base = [] ∨ base = [.incarnate] ∨ (base = [.restore] ∧ c.state = .alive))

theorem restarts_of_plain (plain : Plain c.stack) : Restarts c := ⟨c.stack, [], (List.append_nil _).symm, plain, .inl rfl⟩

theorem plain_of_pushed {frames : List (Frame C)} (own : ∀ frame ∈ frames, frame.pushed = true) : Plain frames := by
  intro frame member
  have pushed := own frame member
  cases frame with
  | code _ | unstashAll => rfl
  | receive | clear | incarnate | restore => cases pushed

theorem plain_invocation : Plain [Frame.receive (C := C), .clear] := by
  intro frame member
  simp only [List.mem_cons, List.not_mem_nil, or_false] at member
  rcases member with rfl | rfl <;> rfl

/-- One handler of `InvokeSystemMessage`. -/
theorem restarts_system {message : Ptr U K} (idle : c.stack = []) (act : c.invokeSystemMessage beh message = some c') : Restarts c' := by
  have plain : Plain c.stack := plain_of_idle idle
  cases handled act with
  | ignored nothing => exact restarts_of_plain plain
  | started actual => exact restarts_of_plain ((steady_processMessage message).plain plain)
  | watch actual =>
    unfold handleWatch
    split <;> exact restarts_of_plain plain
  | unwatch actual =>
    unfold handleUnwatch
    split <;> exact restarts_of_plain plain
  | stop actual => exact restarts_of_plain plain
  | @terminated who reason actual =>
    unfold handleTerminated
    exact restarts_of_plain ((steady_invokeUserMessage _).plain (by split <;> exact plain))
  | failure actual =>
    unfold handleFailure
    split <;> exact restarts_of_plain plain
  | restart actual =>
    refine ⟨[.receive, .clear], [.incarnate], ?_, plain_invocation, .inr (.inl rfl)⟩
    have running : ({ c with state := .restarting }.call [.incarnate] : ActorContext U K σ C).state ≠ .stopped := nofun
    rw [handleRestart, invokeUserMessage_of_running running]
    show _ ++ ([Frame.incarnate] ++ c.stack) = _
    rw [idle]
    rfl
  | continuation actual =>
    refine restarts_of_plain (Plain.append (fun frame member => ?_) plain)
    simp only [List.mem_cons, List.not_mem_nil, or_false] at member
    rcases member with rfl | rfl <;> rfl

/-- A step above the frames of a restart. -/
theorem restarts_inner {frame : Frame C} {above base : List (Frame C)} (plain : Plain (frame :: above))
    (bottom : base = [] ∨ base = [.incarnate] ∨ (base = [.restore] ∧ c.state = .alive))
    (ran : ({ c with stack := above ++ base } : ActorContext U K σ C).runFrame props beh frame = c') : Restarts c' := by
  obtain ⟨other, rest⟩ := List.forall_mem_cons.1 plain
  have state : c'.state = c.state := ran ▸ (steady_runFrame (c := { c with stack := above ++ base }) other).state
  have moved : Moved beh c (above ++ base) (stashing beh c frame) c' := ran ▸ moved_runFrame props other (above ++ base)
  have bottom' : base = [] ∨ base = [.incarnate] ∨ (base = [.restore] ∧ c'.state = .alive) := state.symm ▸ bottom
  cases moved with
  | calls none own stack stash =>
    exact ⟨_, base, stack.trans (List.append_assoc _ _ _).symm, (plain_of_pushed own).append rest, bottom'⟩
  | throws none stack stash =>
    rcases unwind_append beh above base with ⟨code, left, suffix, caught⟩ | gone
    · exact ⟨_, base, stack.trans caught, (plain_code code).append fun inner member => rest inner (suffix.subset member), bottom'⟩
    · refine restarts_of_plain ?_
      rw [stack, gone]
      rcases bottom with rfl | rfl | ⟨rfl, -⟩ <;> exact plain_of_idle rfl
  | stashes one stack stash => exact ⟨_, base, stack, (plain_code _).append rest, bottom'⟩
  | takes none own stash stack message =>
    refine ⟨_, base, stack.trans (List.append_assoc _ _ _).symm, Plain.append (Plain.append ?_ (plain_of_pushed own)) rest, bottom'⟩
    split
    · exact plain_of_idle rfl
    · exact plain_invocation

theorem restarts_keeps : Machine.Keeps (step props beh) Machine.free (Restarts (U := U) (K := K) (σ := σ) (C := C)) := by
  intro c l c' restarts _ act
  cases l with
  | user message =>
    cases stack : c.stack with
    | nil =>
      simp only [step, stack] at act
      cases act
      exact restarts_of_plain ((steady_invokeUserMessage message).plain (plain_of_idle stack))
    | cons frame below => simp [step, stack] at act
  | system message =>
    obtain ⟨idle, act⟩ := returned_of_system act
    exact restarts_system idle act
  | run =>
    obtain ⟨above, base, stack, plain, bottom⟩ := restarts
    cases above with
    | cons frame above =>
      simp only [step, stack, List.cons_append] at act
      exact restarts_inner plain bottom (Option.some.inj act)
    | nil =>
      rcases bottom with rfl | rfl | ⟨rfl, alive⟩
      · simp [step, stack] at act
      · simp only [step, stack, List.nil_append] at act
        cases act
        unfold runFrame
        dsimp only
        split
        · exact restarts_of_plain (plain_of_idle rfl)
        · exact ⟨[.receive, .clear], [.restore], rfl, plain_invocation, .inr (.inr ⟨rfl, rfl⟩)⟩
      · simp only [step, stack, List.nil_append] at act
        rcases loop_runFrame props beh (show (Frame.restore : Frame C).drains = true from rfl) c [] (Option.some.inj act) with
          ⟨-, -, idle⟩ | ⟨top, -, state, taken, -⟩
        · exact restarts_of_plain (plain_of_idle idle)
        · rw [alive, if_neg (by decide : ¬ LifecycleState.alive = .stopped)] at taken
          exact ⟨[.receive, .clear], [.restore], taken, plain_invocation, .inr (.inr ⟨rfl, state.trans alive⟩)⟩

/-- The loop at the end of a restart finds the actor alive. -/
theorem alive_of_restore {self parent : Option PID} {memory : σ} {actor : Bool} {ls : List (Label U K)}
    (run : Machine.Run (step props beh) Machine.free (new self parent memory actor) ls c) {below : List (Frame C)}
    (top : c.stack = .restore :: below) : c.state = .alive := by
  obtain ⟨above, base, stack, plain, bottom⟩ := run.keeps restarts_keeps (restarts_of_plain (plain_of_idle rfl))
  rw [top] at stack
  cases above with
  | nil =>
    rcases bottom with rfl | rfl | ⟨-, alive⟩
    · cases stack
    · cases stack
    · exact alive
  | cons frame above =>
    obtain ⟨rfl, -⟩ := List.cons.inj stack
    cases plain _ List.mem_cons_self

end ActorContext

end Protoactor.Actor
