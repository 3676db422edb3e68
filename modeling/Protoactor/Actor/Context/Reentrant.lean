import Protoactor.Actor.Context.Stashing.Replay

/-!
# Calls of `Unstash` and `UnstashAll` (`src/actor/actor_context.cpp`)

A program that calls `Unstash` or `UnstashAll` is on the stack while the messages are processed, and so are
the programs that these calls run, to any depth. `ProcessMessage` sets the one `message_or_envelope_` and
clears it at its end, so the program finds its own message again only if nothing was processed.
-/

namespace Protoactor.Actor.ActorContext
set_option autoImplicit false
open Lib

variable {U K σ C : Type} {props : Props U K C} {beh : Behaviour U K σ C} {c c' s s' t : ActorContext U K σ C}
  {base : List (Frame C)}

/-- The program on top of the stack calls `op`, and goes on as `rest` over `below`. -/
def Calls (beh : Behaviour U K σ C) (op : Op U K) (rest : C) (below : List (Frame C)) (c : ActorContext U K σ C) : Prop :=
  ∃ code, c.stack = .code code :: below ∧ (beh.resume code c.view c.memory).2 = .performs op rest

/-- The steps as long as there are more than `depth` frames. -/
def inner (props : Props U K C) (beh : Behaviour U K σ C) (depth : Nat) (c : ActorContext U K σ C) : Option (ActorContext U K σ C) :=
  if depth < c.stack.length then step props beh c .run else none

/-- The call with the frames over `base` returns: what it leaves last is no program, so it is not left by an exception. -/
inductive Returned (props : Props U K C) (beh : Behaviour U K σ C) (base : List (Frame C)) : ActorContext U K σ C → ActorContext U K σ C → Prop where
  | atOnce {c : ActorContext U K σ C} (left : c.stack = base) : Returned props beh base c c
  | later {n : Nat} {c s t : ActorContext U K σ C} {frame : Frame C} (steps : Steps (inner props beh base.length) n c s)
      (last : s.stack = frame :: base) (own : ∀ code, frame ≠ .code code) (act : step props beh s .run = some t)
      (left : t.stack = base) : Returned props beh base c t

/-- A message would be taken off the stash and processed. -/
def Busy (c : ActorContext U K σ C) : Prop := c.stashed ≠ [] ∧ c.state ≠ .stopped

/-! ## During the call -/

/-- Some message is being processed, and at its end the context holds none; `again` is the loop that took it off. -/
inductive Processing (again base : List (Frame C)) (s : ActorContext U K σ C) : Prop where
  /-- the loop has not begun -/
  | due (loop : again = [.unstashAll]) (stack : s.stack = .unstashAll :: base) (busy : Busy s)
  | inside {above : List (Frame C)} (plain : Plain above) (stack : s.stack = above ++ .clear :: (again ++ base))
  | between (stack : s.stack = again ++ base) (cleared : s.messageOrEnvelope = .null)
  | left (short : s.stack.length ≤ base.length)

theorem inner_eq {depth : Nat} (act : inner props beh depth s = some s') :
    ∃ frame rest, s.stack = frame :: rest ∧ depth ≤ rest.length ∧ ({ s with stack := rest } : ActorContext U K σ C).runFrame props beh frame = s' := by
  unfold inner at act
  split at act
  · rename_i deep
    cases stack : s.stack with
    | nil => simp [stack] at deep
    | cons frame rest =>
      simp only [step, stack, Option.some.injEq] at act
      rw [stack, List.length_cons] at deep
      exact ⟨frame, rest, rfl, Nat.le_of_lt_succ deep, act⟩
  · cases act

/-- `Unstash` takes one message off, `UnstashAll` goes on in its loop. -/
def loopOf : Op U K → Option (List (Frame C))
  | .unstash => some []
  | .unstashAll => some [.unstashAll]
  | _ => none

theorem popStash_stopped {again : List (Frame C)} (stopped : c.state = .stopped) (act : c.popStash again = some c') :
    c'.messageOrEnvelope = c.messageOrEnvelope := by
  unfold popStash at act
  split at act
  · cases act
  · split at act
    · cases act
    · rename_i extras _ _ top rest _
      rw [invokeUserMessage_stopped (c := call { c with extras := some { extras with stash := rest } } again) stopped] at act
      cases act
      rfl

/-- One round of the loop of `UnstashAll`: it ends, drops a message of a stopped actor, or has one processed. -/
theorem round_cases (props : Props U K C) (beh : Behaviour U K σ C) (c : ActorContext U K σ C)
    (ran : ({ c with stack := base } : ActorContext U K σ C).runFrame props beh .unstashAll = c') :
    (c.stashStack = [] ∧ c'.stack = base ∧ c'.messageOrEnvelope = c.messageOrEnvelope) ∨
      (c.stashStack ≠ [] ∧ c.state = .stopped ∧ c'.stack = .unstashAll :: base ∧ c'.state = c.state ∧
        c'.messageOrEnvelope = c.messageOrEnvelope) ∨
      (c.stashStack ≠ [] ∧ c.state ≠ .stopped ∧ c'.stack = [Frame.receive, .clear] ++ .unstashAll :: base) := by
  have ran : (({ c with stack := base } : ActorContext U K σ C).popStash [.unstashAll]).getD { c with stack := base } = c' := ran
  rcases popStash_cases [.unstashAll] { c with stack := base } with ⟨empty, none⟩ | ⟨top, d, taken, shorter, state, stack, -⟩
  · rw [none, Option.getD_none] at ran
    subst ran
    exact .inl ⟨empty, rfl, rfl⟩
  · rw [taken, Option.getD_some] at ran
    subst ran
    have some : c.stashStack ≠ [] := by
      rw [show c.stashStack = top :: d.stashStack from shorter]
      exact List.cons_ne_nil _ _
    by_cases stopped : c.state = .stopped
    · rw [if_pos stopped] at stack
      exact .inr (.inl ⟨some, stopped, stack, state, popStash_stopped (c := { c with stack := base }) stopped taken⟩)
    · rw [if_neg stopped, List.append_assoc] at stack
      exact .inr (.inr ⟨some, stopped, stack⟩)

/-- The loop finds a message for an actor that is not stopped. -/
theorem round_busy (busy : Busy c) (ran : ({ c with stack := base } : ActorContext U K σ C).runFrame props beh .unstashAll = c') :
    c'.stack = [Frame.receive, .clear] ++ .unstashAll :: base := by
  obtain ⟨some, running⟩ := busy
  rcases round_cases props beh c ran with ⟨empty, -, -⟩ | ⟨-, stopped, -, -, -⟩ | ⟨-, -, begun⟩
  · exact absurd (List.reverse_eq_nil_iff.2 empty) some
  · exact absurd stopped running
  · exact begun

/-- A step of a call in which a message is being processed. -/
theorem processing_step {again : List (Frame C)} (loop : again = [] ∨ again = [.unstashAll]) (processing : Processing again base s)
    (act : inner props beh base.length s = some s') : Processing again base s' := by
  obtain ⟨frame, rest, top, deep, ran⟩ := inner_eq act
  cases processing with
  | due again stack busy =>
    cases top.symm.trans stack
    have plain : Plain [(.receive : Frame C)] := List.forall_mem_singleton.2 rfl
    refine .inside plain ?_
    rw [again]
    exact round_busy busy ran
  | left short =>
    rw [top, List.length_cons] at short
    omega
  | between stack cleared =>
    rcases loop with rfl | rfl
    · rw [top, List.nil_append] at stack
      rw [← stack, List.length_cons] at deep
      omega
    · cases top.symm.trans stack
      rcases round_cases props beh s ran with ⟨-, ended, -⟩ | ⟨-, -, dropped, -, same⟩ | ⟨-, -, begun⟩
      · exact .left (Nat.le_of_eq (congrArg List.length ended))
      · exact .between dropped (same.trans cleared)
      · have plain : Plain [(.receive : Frame C)] := List.forall_mem_singleton.2 rfl
        exact .inside plain begun
  | @inside above plain stack =>
    cases above with
    | nil =>
      cases top.symm.trans stack
      subst ran
      exact .between rfl rfl
    | cons inner above =>
      cases top.symm.trans stack
      obtain ⟨other, rest⟩ := List.forall_mem_cons.1 plain
      have moved : Moved beh s (above ++ .clear :: (again ++ base)) (stashing beh s frame) s' := ran ▸ moved_runFrame props other _
      cases moved with
      | calls none own stack' stash =>
        exact .inside ((plain_of_pushed own).append rest) (stack'.trans (List.append_assoc _ _ _).symm)
      | throws none stack' stash =>
        rcases unwind_append beh above (.clear :: (again ++ base)) with ⟨code, left, suffix, caught⟩ | gone
        · exact .inside ((plain_code code).append fun other member => rest other (suffix.subset member)) (stack'.trans caught)
        · have passes : unwind beh (.clear :: (again ++ base)) = unwind beh base := by rcases loop with rfl | rfl <;> rfl
          refine .left ?_
          rw [stack', gone, passes]
          exact length_unwind beh base
      | stashes one stack' stash => exact .inside ((plain_code _).append rest) stack'
      | takes none own stash stack' message =>
        refine .inside (Plain.append (Plain.append ?_ (plain_of_pushed own)) rest) (stack'.trans (List.append_assoc _ _ _).symm)
        split
        · exact plain_of_idle rfl
        · exact plain_invocation

/-- Nothing is processed: the loop goes through the stash of a stopped actor, or finds it empty. -/
structure Idling (base : List (Frame C)) (held : Ptr U K) (s : ActorContext U K σ C) : Prop where
  stack : s.stack = .unstashAll :: base ∨ s.stack = base
  message : s.messageOrEnvelope = held
  idle : s.stashStack = [] ∨ s.state = .stopped ∨ s.stack = base

theorem idling_step {held : Ptr U K} (idling : Idling base held s) (act : inner props beh base.length s = some s') :
    Idling base held s' := by
  obtain ⟨frame, rest, top, deep, ran⟩ := inner_eq act
  have short : s.stack ≠ base := by
    intro left
    rw [← left, top, List.length_cons] at deep
    omega
  obtain ⟨loop | left, message, idle⟩ := idling
  · cases top.symm.trans loop
    rcases round_cases props beh s ran with ⟨-, ended, same⟩ | ⟨-, stopped, dropped, state, same⟩ | ⟨some, running, -⟩
    · exact ⟨.inr ended, same.trans message, .inr (.inr ended)⟩
    · exact ⟨.inl dropped, same.trans message, .inr (.inl (state.trans stopped))⟩
    · rcases idle with empty | stopped | left
      · exact absurd empty some
      · exact absurd stopped running
      · exact absurd left short
  · exact absurd left short

theorem not_busy_iff : ¬ Busy c ↔ c.stashStack = [] ∨ c.state = .stopped := by
  unfold Busy stashed
  rw [not_and_or, not_not, not_not, List.reverse_eq_nil_iff]

/-! ## After the call -/

theorem ne_longer (frame : Frame C) (frames : List (Frame C)) : base ≠ frame :: frames ++ base :=
  fun same => List.cons_ne_nil _ _ (List.self_eq_append_left.1 same)

/-- The frame that is left last is the end of a `ProcessMessage`, or the loop. -/
theorem processing_end {again : List (Frame C)} (loop : again = [] ∨ again = [.unstashAll]) (processing : Processing again base s)
    {frame : Frame C} (last : s.stack = frame :: base) (act : step props beh s .run = some t) (left : t.stack = base) :
    t.messageOrEnvelope = .null := by
  simp only [step, last, Option.some.injEq] at act
  cases processing with
  | due again stack busy =>
    cases last.symm.trans stack
    exact absurd (left.symm.trans (round_busy busy act)) (ne_longer .receive [.clear, .unstashAll])
  | left short =>
    rw [last, List.length_cons] at short
    omega
  | between stack cleared =>
    rcases loop with rfl | rfl
    · exact absurd (stack.symm.trans last) (ne_longer frame [])
    · cases last.symm.trans stack
      rcases round_cases props beh s act with ⟨-, -, same⟩ | ⟨-, -, dropped, -, -⟩ | ⟨-, -, begun⟩
      · exact same.trans cleared
      · exact absurd (left.symm.trans dropped) (ne_longer .unstashAll [])
      · exact absurd (left.symm.trans begun) (ne_longer .receive [.clear, .unstashAll])
  | @inside above plain stack =>
    have sizes := congrArg List.length (last.symm.trans stack)
    simp only [List.length_cons, List.length_append] at sizes
    obtain rfl : above = [] := List.eq_nil_of_length_eq_zero (by omega)
    obtain ⟨rfl, -⟩ := List.cons.inj (last.symm.trans stack)
    rw [← act]
    rfl

theorem idling_end {held : Ptr U K} (idling : Idling base held s) {frame : Frame C} (last : s.stack = frame :: base)
    (act : step props beh s .run = some t) (left : t.stack = base) : t.messageOrEnvelope = held := by
  simp only [step, last, Option.some.injEq] at act
  obtain ⟨loop | gone, message, -⟩ := idling
  · cases last.symm.trans loop
    rcases round_cases props beh s act with ⟨-, -, same⟩ | ⟨-, -, dropped, -, -⟩ | ⟨-, -, begun⟩
    · exact same.trans message
    · exact absurd (left.symm.trans dropped) (ne_longer .unstashAll [])
    · exact absurd (left.symm.trans begun) (ne_longer .receive [.clear, .unstashAll])
  · exact absurd (gone.symm.trans last) (ne_longer frame [])

/-- `Unstash`. -/
theorem unstash_cases (c : ActorContext U K σ C) :
    (¬ Busy c ∧ ((c.popStash []).getD c).stack = c.stack ∧ ((c.popStash []).getD c).messageOrEnvelope = c.messageOrEnvelope) ∨
      (Busy c ∧ ((c.popStash []).getD c).stack = [Frame.receive, .clear] ++ c.stack) := by
  rcases popStash_cases [] c with ⟨empty, none⟩ | ⟨top, d, taken, shorter, -, stack, -⟩
  · rw [none]
    exact .inl ⟨not_busy_iff.2 (.inl empty), rfl, rfl⟩
  · rw [taken, Option.getD_some]
    by_cases stopped : c.state = .stopped
    · rw [if_pos stopped] at stack
      exact .inl ⟨not_busy_iff.2 (.inr stopped), stack, popStash_stopped stopped taken⟩
    · rw [if_neg stopped] at stack
      refine .inr ⟨⟨fun empty => ?_, stopped⟩, stack⟩
      rw [List.reverse_eq_nil_iff.1 empty] at shorter
      cases shorter

/-- The step that makes the call. -/
theorem called {op : Op U K} {again : List (Frame C)} {rest : C} {below : List (Frame C)} (unstashes : loopOf op = some again)
    (calls : Calls beh op rest below c) (act : step props beh c .run = some c') :
    (Busy c ∧ c'.stack ≠ .code rest :: below ∧ Processing again (.code rest :: below) c') ∨
      (¬ Busy c ∧ Idling (.code rest :: below) c.messageOrEnvelope c') := by
  obtain ⟨code, stack, performs⟩ := calls
  simp only [step, stack, Option.some.injEq] at act
  unfold runFrame at act
  dsimp only at act
  rw [show ({ c with stack := below } : ActorContext U K σ C).view = c.view from rfl] at act
  cases resumed : beh.resume code c.view c.memory with
  | mk memory next =>
    rw [resumed] at act performs
    cases performs
    cases op with
    | unstash =>
      cases unstashes
      rcases unstash_cases (call { c with stack := below, memory := memory } [.code rest]) with ⟨idle, left, same⟩ | ⟨busy, begun⟩
      · subst act
        exact .inr ⟨idle, .inr left, same, .inr (.inr left)⟩
      · subst act
        have plain : Plain [(.receive : Frame C)] := List.forall_mem_singleton.2 rfl
        refine .inl ⟨busy, fun left => ?_, .inside plain begun⟩
        exact absurd (left.symm.trans begun) (ne_longer .receive [.clear])
    | unstashAll =>
      cases unstashes
      subst act
      by_cases busy : Busy c
      · refine .inl ⟨busy, fun left => ?_, .due rfl rfl busy⟩
        exact absurd left.symm (ne_longer .unstashAll [])
      · exact .inr ⟨busy, .inl rfl, rfl, (not_busy_iff.1 busy).imp_right .inl⟩
    | receive | send _ _ | request _ _ | requestWithCustomSender _ _ _ | requestFuture _ _ _ | respond _ | forward _ | watch _ | unwatch _
    | stash | reenterAfter _ _ | apply _ | spawned _ | post _ _ _ => cases unstashes

/-- **What the context holds when the call returns**: nothing, if a message was processed. -/
theorem returned_message {op : Op U K} {again : List (Frame C)} {rest : C} {below : List (Frame C)} (unstashes : loopOf op = some again)
    (calls : Calls beh op rest below c) (act : step props beh c .run = some c') (returned : Returned props beh (.code rest :: below) c' t) :
    (Busy c → t.messageOrEnvelope = .null) ∧ (¬ Busy c → t.messageOrEnvelope = c.messageOrEnvelope) := by
  have loop : again = [] ∨ again = [.unstashAll] := by
    cases op <;> cases unstashes
    · exact .inl rfl
    · exact .inr rfl
  rcases called unstashes calls act with ⟨busy, begun, processing⟩ | ⟨idle, idling⟩
  · refine ⟨fun _ => ?_, fun none => absurd busy none⟩
    cases returned with
    | atOnce left => exact absurd left begun
    | later steps last own act left =>
      exact processing_end loop (steps.keeps (fun _ _ processing act => processing_step loop processing act) processing) last act left
  · refine ⟨fun busy => absurd busy idle, fun _ => ?_⟩
    cases returned with
    | atOnce left => exact idling.message
    | later steps last own act left => exact idling_end (steps.keeps (fun _ _ idling act => idling_step idling act) idling) last act left

/-- **The current message is undisturbed** exactly if nothing was processed, or there was none. -/
theorem undisturbed_iff {op : Op U K} {rest : C} {below : List (Frame C)} (unstashes : op = .unstash ∨ op = .unstashAll)
    (calls : Calls beh op rest below c) (act : step props beh c .run = some c') (returned : Returned props beh (.code rest :: below) c' t) :
    (t.current = c.current ↔ c.stashed = [] ∨ c.state = .stopped ∨ c.current = seen .null) ∧
      (t.messageOrEnvelope = c.messageOrEnvelope ↔ c.stashed = [] ∨ c.state = .stopped ∨ c.messageOrEnvelope = .null) := by
  obtain ⟨again, loop⟩ : ∃ again : List (Frame C), loopOf op = some again := by rcases unstashes with rfl | rfl <;> exact ⟨_, rfl⟩
  obtain ⟨processed, idle⟩ := returned_message loop calls act returned
  by_cases busy : Busy c
  · obtain ⟨some, running⟩ := busy
    have cleared := processed ⟨some, running⟩
    rw [current_eq, cleared]
    simp only [some, running, false_or]
    exact ⟨eq_comm, eq_comm⟩
  · have same := idle busy
    have nothing : c.stashed = [] ∨ c.state = .stopped := (not_busy_iff.1 busy).imp_left List.reverse_eq_nil_iff.2
    rw [current_eq, current_eq, same, ← or_assoc, ← or_assoc]
    exact ⟨iff_of_true rfl (.inl nothing), iff_of_true rfl (.inl nothing)⟩

/-! ### An actor that takes everything off its stash -/

/-- It has been given `9`, and is about to call `UnstashAll`. -/
def unstasher (stash : List (Ptr Nat Nat)) (received : List (Received Nat Nat)) : ActorContext Nat Nat Nat Bool :=
  { Replay.stashing12 with memory := 0, extras := some ⟨[], [], stash⟩, stack := [.code true, .clear], received := received }

def unstasherLoop (stash : List (Ptr Nat Nat)) (received : List (Received Nat Nat)) : ActorContext Nat Nat Nat Bool :=
  { unstasher stash received with memory := 1, stack := [.unstashAll, .code false, .clear] }

theorem undisturbed_iff_empty : ∃ t, Returned .plain (Replay.stasher 1) [.code false, .clear] (unstasherLoop [] []) t ∧
    t.current = (unstasher [] []).current := by
  have returned : Returned .plain (Replay.stasher 1) [.code false, .clear] (unstasherLoop [] []) _ :=
    .later (.zero _) rfl nofun rfl rfl
  exact ⟨_, returned, (undisturbed_iff (.inr rfl) ⟨true, rfl, rfl⟩ rfl returned).1.2 (.inl rfl)⟩

/-- One message has been stashed, and after `UnstashAll` the message `9` is gone. -/
theorem disturbed : ∃ c c' t, Machine.Run (step .plain (Replay.stasher 1)) Machine.free (new none none 0 true)
      [.user (Replay.posted 1), .run, .run, .run, .run, .user (Replay.posted 9), .run] c ∧
    Calls (Replay.stasher 1) .unstashAll false [.clear] c ∧ step .plain (Replay.stasher 1) c .run = some c' ∧
    Returned .plain (Replay.stasher 1) [.code false, .clear] c' t ∧ c.current = seen (Replay.posted 9) ∧ t.current ≠ c.current := by
  have start : Machine.exec (step .plain (Replay.stasher 1)) [.user (Replay.posted 1), .run, .run, .run, .run, .user (Replay.posted 9), .run]
      (new none none 0 true) = some (unstasher [Replay.posted 1] [seen (Replay.posted 1), seen (Replay.posted 9)]) := rfl
  refine ⟨_, _, _, Machine.free_of_exec start, ⟨true, rfl, rfl⟩, rfl,
    .later (.cons rfl (.cons rfl (.cons rfl (.cons rfl (.zero _))))) rfl nofun rfl rfl, rfl, ?_⟩
  decide

end Protoactor.Actor.ActorContext
