import Protoactor.Actor.Context.Stashing.Replay

/-!
# How often a replay calls `Receive`

A replay hands out a message by one call of `DefaultReceive`. That calls `Receive` once, or runs the
receiver middleware, which does as often as it calls its last `next`. So where no middleware does more than
once, and nothing is stashed meanwhile, `Receive` is called at most once for each message that there
was (`received_le_iff`). A program is measured by the calls of `Receive` that it may still make.
-/

namespace Protoactor.Actor
set_option autoImplicit false
open Lib ActorContext

variable {U K σ C : Type}

/-- The calls of `Receive` that a method makes itself. -/
def Op.calls : Op U K → Nat
  | .receive => 1
  | _ => 0

/-- Receiver middleware that calls its last `next` at most once for each message, and no other program that
calls `Receive` itself; `calls` bounds what a program may still do. -/
structure AtMostOnce (props : Props U K C) (beh : Behaviour U K σ C) (calls : C → Nat) : Prop where
  receivers : ∀ chain, props.receiverMiddlewareChain = some chain → ∀ envelope, calls (chain envelope) ≤ 1
  senders : ∀ chain, props.senderMiddlewareChain = some chain → ∀ target envelope, calls (chain target envelope) = 0
  actor : calls beh.receive = 0
  resumed : ∀ code view memory op rest, (beh.resume code view memory).2 = .performs op rest → calls rest + op.calls ≤ calls code
  caught : ∀ code rest, beh.caught code = some rest → calls rest ≤ calls code

/-- Without receiver middleware nobody does. -/
theorem atMostOnce_of_silent {props : Props U K C} {beh : Behaviour U K σ C} (plain : props.receiverMiddlewareChain = none)
    (silent : Silent beh) : AtMostOnce props beh fun _ => 0 where
  receivers := fun chain some_ => by
    rw [plain] at some_
    cases some_
  senders := fun _ _ _ _ => rfl
  actor := rfl
  resumed := by
    intro code view memory op rest performs
    cases op with
    | receive => exact absurd performs (silent code view memory rest)
    | _ => exact Nat.le_refl 0
  caught := fun _ _ _ => Nat.le_refl 0

namespace Replay

variable {props : Props U K C} {beh : Behaviour U K σ C} {calls : C → Nat} {loop : Frame C} {below rest : List (Frame C)}
  {r r' t : Replay U K σ C} {c c' : ActorContext U K σ C}

/-- The calls of `Receive` that the programs on the stack may still make. -/
def due (calls : C → Nat) (frames : List (Frame C)) : Nat :=
  (frames.map fun
    | .code code => calls code
    | _ => 0).sum

@[simp] theorem due_nil : due calls ([] : List (Frame C)) = 0 := rfl

@[simp] theorem due_code (code : C) (frames : List (Frame C)) : due calls (.code code :: frames) = calls code + due calls frames := by
  simp [due]

theorem due_cons (frame : Frame C) (frames : List (Frame C)) : due calls (frame :: frames) = due calls [frame] + due calls frames := by
  simp [due]

theorem due_append (frames more : List (Frame C)) : due calls (frames ++ more) = due calls frames + due calls more := by
  simp [due]

/-- A program that catches an exception has no more to call than before. -/
theorem due_unwind (once : AtMostOnce props beh calls) (above below : List (Frame C)) :
    (∃ left, unwind beh (above ++ below) = left ++ below ∧ due calls left ≤ due calls above) ∨
      unwind beh (above ++ below) = unwind beh below := by
  induction above with
  | nil => exact .inr rfl
  | cons frame above ih =>
    have later : unwind beh (frame :: above ++ below) = unwind beh (above ++ below) →
        (∃ left, unwind beh (frame :: above ++ below) = left ++ below ∧ due calls left ≤ due calls (frame :: above)) ∨
          unwind beh (frame :: above ++ below) = unwind beh below := by
      intro passed
      rw [passed, due_cons]
      rcases ih with ⟨left, stack, fewer⟩ | gone
      · exact .inl ⟨left, stack, Nat.le_trans fewer (Nat.le_add_left _ _)⟩
      · exact .inr gone
    cases frame with
    | code code =>
      cases caught : beh.caught code with
      | none => exact later (by rw [List.cons_append, unwind, caught])
      | some code' =>
        refine .inl ⟨.code code' :: above, by rw [List.cons_append, unwind, caught]; rfl, ?_⟩
        have fewer := once.caught code code' caught
        rw [due_code, due_code]
        omega
    | receive | clear | unstashAll | incarnate | restore => exact later rfl

/-! ## One step -/

/-- What a step can do about the calls of `Receive`: those that have been made and those that may still be are `n` at
most. -/
inductive Spent (calls : C → Nat) (beh : Behaviour U K σ C) (rest : List (Frame C)) (n : Nat) (c : ActorContext U K σ C) : Prop where
  | goes (frames : List (Frame C)) (stack : c.stack = frames ++ rest) (paid : c.received.length + due calls frames ≤ n)
  | throws (stack : c.stack = unwind beh rest) (paid : c.received.length ≤ n)

theorem Spent.mono {n m : Nat} (spent : Spent calls beh rest n c) (more : n ≤ m) : Spent calls beh rest m c := by
  cases spent with
  | goes frames stack paid => exact .goes frames stack (Nat.le_trans paid more)
  | throws stack paid => exact .throws stack (Nat.le_trans paid more)

/-- The program goes on, and `Receive` has not been called. -/
theorem spent_same {code : C} (stack : c'.stack = .code code :: rest) (received : c'.received = c.received) :
    Spent calls beh rest (c.received.length + calls code) c' := by
  refine .goes [.code code] stack ?_
  rw [received, due_code, due_nil]
  exact Nat.le_refl _

/-- An exception of the program on top reaches it first. -/
theorem spent_throw (once : AtMostOnce props beh calls) {code : C} (stack : c.stack = .code code :: rest) :
    Spent calls beh rest (c.received.length + calls code) (c.throw beh) := by
  cases caught : beh.caught code with
  | none =>
    refine .throws ?_ (Nat.le_add_right _ _)
    rw [ActorContext.throw, stack, unwind, caught]
  | some code' =>
    have fewer := once.caught code code' caught
    have next : (c.throw beh).stack = .code code' :: rest := by rw [ActorContext.throw, stack, unwind, caught]
    exact (spent_same next rfl).mono (Nat.add_le_add_left fewer _)

theorem spent_sendUserMessage (once : AtMostOnce props beh calls) {code : C} (stack : c.stack = .code code :: rest) (pid : Option PID)
    (message : Ptr U K) : Spent calls beh rest (c.received.length + calls code) (c.sendUserMessage props pid message) := by
  unfold sendUserMessage
  split
  · exact spent_same stack rfl
  · rename_i target
    dsimp only
    split
    · rename_i chain set
      refine .goes [.code (chain target (.envelope none message none)), .code code] (congrArg (_ :: ·) stack) ?_
      rw [due_code, once.senders chain set, due_code, due_nil, Nat.zero_add]
      exact Nat.le_refl _
    · exact spent_same stack rfl

/-- A message is taken off, or there is none. -/
theorem spent_popStash {code : C} (stack : c.stack = .code code :: rest) :
    Spent calls beh rest (c.received.length + calls code) ((c.popStash []).getD c) := by
  have same : ((c.popStash []).getD c).received = c.received := unheard_getD_popStash.1
  rcases popStash_cases [] c with ⟨-, none⟩ | ⟨top, c', taken, -, -, place, -⟩
  · rw [none]
    exact spent_same stack rfl
  · rw [taken, Option.getD_some] at same ⊢
    rw [stack, List.append_nil] at place
    by_cases stopped : c.state = .stopped
    · rw [if_pos stopped] at place
      exact spent_same place same
    · rw [if_neg stopped] at place
      refine .goes [.receive, .clear, .code code] place ?_
      rw [same]
      exact Nat.le_of_eq (by simp [due])

/-- A method of the context, called by the program on top. -/
theorem spent_perform (once : AtMostOnce props beh calls) (op : Op U K) {code : C} (stack : c.stack = .code code :: rest) :
    Spent calls beh rest (c.received.length + calls code + op.calls) (c.perform props beh op) := by
  cases op with
  | receive =>
    show Spent calls beh rest (c.received.length + calls code + 1) (c.receive beh)
    unfold receive
    split
    · refine .goes [.code beh.receive, .code code] (congrArg (_ :: ·) stack) ?_
      rw [due_code, once.actor, due_code, due_nil]
      show (c.received ++ [c.current]).length + _ ≤ _
      rw [List.length_append, List.length_singleton]
      omega
    · exact (spent_same stack rfl).mono (Nat.le_add_right _ _)
  | send pid message | request pid message | requestWithCustomSender pid message sender => exact spent_sendUserMessage once stack _ _
  | requestFuture fresh pid message => exact spent_throw once stack
  | respond response =>
    show Spent calls beh rest (c.received.length + calls code) (c.respond props response)
    unfold respond
    split
    · exact spent_same stack rfl
    · exact spent_sendUserMessage once stack _ _
  | forward pid =>
    show Spent calls beh rest (c.received.length + calls code) (c.forward props pid)
    unfold forward
    split
    · exact spent_same stack rfl
    · exact spent_sendUserMessage once stack _ _
  | watch pid =>
    show Spent calls beh rest (c.received.length + calls code) (c.watch pid)
    unfold watch
    split <;> exact spent_same stack rfl
  | unwatch pid =>
    show Spent calls beh rest (c.received.length + calls code) (c.unwatch pid)
    unfold unwatch
    split <;> exact spent_same stack rfl
  | reenterAfter continuation completed =>
    show Spent calls beh rest (c.received.length + calls code) (c.reenterAfter continuation completed)
    unfold reenterAfter
    split <;> exact spent_same stack rfl
  | unstash => exact spent_popStash stack
  | unstashAll =>
    refine .goes [.unstashAll, .code code] (congrArg (_ :: ·) stack) ?_
    exact Nat.le_of_eq (by simp [due, perform, call, Op.calls])
  | stash | apply envelope | spawned pid | post pid kind message => exact spent_same stack rfl

/-- The calls of `DefaultReceive` that a frame is. -/
def opens : Frame C → Nat
  | .receive => 1
  | _ => 0

theorem length_handed_advance {frame : Frame C} (top : r.context.stack = frame :: rest) :
    (r.advance props beh frame rest).handed.length = r.handed.length + opens frame := by
  rw [handed_advance top, List.length_append]
  cases frame with
  | receive => rw [pending, top]; rfl
  | clear | code _ | unstashAll | incarnate | restore => rw [pending_of_top top (by simp)]; rfl

theorem due_loop (drains : loop.drains = true) : due calls [loop] = 0 := by
  cases loop with
  | unstashAll | restore => rfl
  | receive | clear | code _ | incarnate => cases drains

/-- A loop takes a message off, or is left. -/
theorem spent_loop (drains : loop.drains = true)
    (received : (({ c with stack := rest } : ActorContext U K σ C).runFrame props beh loop).received = c.received) :
    Spent calls beh rest c.received.length (({ c with stack := rest } : ActorContext U K σ C).runFrame props beh loop) := by
  rcases loop_runFrame props beh drains c rest rfl with ⟨-, -, place⟩ | ⟨message, -, -, place, -⟩
  · exact .goes [] place (Nat.le_of_eq (congrArg List.length received))
  · have none_ : due calls ((if c.state = .stopped then [] else [.receive, .clear]) ++ [loop]) = 0 := by
      rw [due_append, due_loop drains]
      split <;> rfl
    refine .goes ((if c.state = .stopped then [] else [.receive, .clear]) ++ [loop]) ?_ ?_
    · rw [place, List.append_assoc]
      rfl
    · rw [received, none_]
      exact Nat.le_refl _

theorem spent_runFrame (once : AtMostOnce props beh calls) (frame : Frame C) (rest : List (Frame C)) :
    Spent calls beh rest (c.received.length + due calls [frame] + opens frame)
      (({ c with stack := rest } : ActorContext U K σ C).runFrame props beh frame) := by
  cases frame with
  | receive =>
    show Spent calls beh rest (c.received.length + 1) (({ c with stack := rest } : ActorContext U K σ C).defaultReceive props beh)
    unfold defaultReceive
    split
    · rename_i chain set
      refine .goes [.code (chain _)] rfl ?_
      rw [due_code, due_nil]
      exact Nat.add_le_add_left (once.receivers chain set _) _
    · unfold receive
      split
      · refine .goes [.code beh.receive] rfl ?_
        rw [due_code, once.actor, due_nil]
        show (c.received ++ [_]).length ≤ _
        rw [List.length_append]
        exact Nat.le_refl _
      · exact .goes [] rfl (Nat.le_succ _)
  | clear => exact .goes [] rfl (Nat.le_refl _)
  | code code =>
    rw [due_code, due_nil]
    unfold runFrame
    dsimp only
    split
    · exact .goes [] rfl (Nat.le_add_right _ _)
    · exact .throws rfl (Nat.le_add_right _ _)
    · rename_i memory op rest' resumed
      have fewer := once.resumed code _ c.memory op rest' (congrArg Prod.snd resumed)
      refine (spent_perform once op rfl).mono ?_
      show c.received.length + calls rest' + op.calls ≤ c.received.length + (calls code + 0) + 0
      omega
  | unstashAll => exact spent_loop rfl (unheard_getD_popStash (c := { c with stack := rest })).1
  | restore => exact spent_loop rfl (unheard_restore rest).1
  | incarnate =>
    unfold runFrame
    dsimp only
    split
    · exact .throws rfl (Nat.le_refl _)
    · exact .goes [.receive, .clear, .restore] rfl (Nat.le_refl _)

/-! ## The run -/

/-- What has been called and what may still be has been handed out, as long as the replay goes on. -/
inductive Paid (calls : C → Nat) (below : List (Frame C)) (c : ActorContext U K σ C) (r : Replay U K σ C) : Prop where
  | inside (above : List (Frame C)) (place : r.context.stack = above ++ below)
      (paid : r.context.received.length + due calls above ≤ c.received.length + r.handed.length)
  | left (short : r.context.stack.length ≤ below.length) (paid : r.context.received.length ≤ c.received.length + r.handed.length)

theorem paid_next (once : AtMostOnce props beh calls) (paid : Paid calls below c r) (act : next props beh below.length r = some r') :
    Paid calls below c r' := by
  obtain ⟨frame, rest, top, within, rfl⟩ := next_eq act
  have longer : (r.advance props beh frame rest).handed.length = r.handed.length + opens frame := length_handed_advance top
  have spent : Spent calls beh rest _ (r.advance props beh frame rest).context := spent_runFrame once frame rest
  cases paid with
  | left short =>
    rw [top, List.length_cons] at short
    omega
  | inside above place paid =>
    cases above with
    | nil =>
      rw [place, List.nil_append] at top
      rw [top, List.length_cons] at within
      omega
    | cons inner above =>
      cases top.symm.trans place
      rw [due_cons] at paid
      cases spent with
      | goes frames stack spent =>
        refine .inside (frames ++ above) (stack.trans (List.append_assoc _ _ _).symm) ?_
        rw [due_append, longer]
        omega
      | throws stack spent =>
        rcases due_unwind once above below with ⟨left, caught, fewer⟩ | gone
        · refine .inside left (stack.trans caught) ?_
          rw [longer]
          omega
        · refine .left ?_ ?_
          · exact Nat.le_trans (Nat.le_of_eq (congrArg List.length (stack.trans gone))) (length_unwind beh below)
          · rw [longer]
            omega

/-- Each call of `Receive` belongs to a message that has been handed out. -/
theorem received_le_handed (once : AtMostOnce props beh calls) (drains : loop.drains = true) (top : c.stack = loop :: below) {n : Nat}
    (steps : Steps (next props beh below.length) n (start c) t) : t.context.received.length ≤ c.received.length + t.handed.length := by
  have first : Paid calls below c (start c) := by
    refine .inside [loop] top ?_
    rw [due_loop drains]
    exact Nat.le_refl _
  cases steps.keeps (fun _ _ paid act => paid_next once paid act) first with
  | inside above place paid => exact Nat.le_trans (Nat.le_add_right _ _) paid
  | left short paid => exact paid

/-- Without receiver middleware no message that has been handed out is kept from the actor. -/
structure Heard (c : ActorContext U K σ C) (r : Replay U K σ C) : Prop where
  more : c.received.length + r.handed.length ≤ r.context.received.length
  actor : r.context.actor = true

theorem heard_next {stack : List (Ptr U K)} (drains : loop.drains = true) (plain : props.receiverMiddlewareChain = none)
    (inv : Inv loop below stack r) (heard : Heard c r) (act : next props beh below.length r = some r') : Heard c r' := by
  obtain ⟨frame, rest, top, within, rfl⟩ := next_eq act
  obtain ⟨more, actor⟩ := heard
  by_cases called : frame = .receive
  · subst called
    have called : (r.advance props beh .receive rest).context.received = r.context.received ++ [r.context.current] ∧
        (r.advance props beh .receive rest).context.actor = true := received_advance plain actor
    refine ⟨?_, called.2⟩
    rw [called.1, length_handed_advance top, List.length_append, List.length_singleton]
    exact Nat.succ_le_succ more
  · have hears : Hears r.context (r.advance props beh frame rest).context := hears_runFrame (inv.made drains top within) called rest
    have same : (r.advance props beh frame rest).handed = r.handed := by
      rw [handed_advance top, pending_of_top top called, List.append_nil]
    rcases hears with ⟨received, still⟩ | ⟨-, still, last, received⟩
    · refine ⟨?_, still.trans actor⟩
      rw [same, received]
      exact more
    · refine ⟨?_, still⟩
      rw [same, received, List.length_append]
      omega

theorem handed_le_received (drains : loop.drains = true) (running : c.state ≠ .stopped) (top : c.stack = loop :: below)
    (plain : props.receiverMiddlewareChain = none) (actor : c.actor = true) {n : Nat}
    (steps : Steps (next props beh below.length) n (start c) t) : c.received.length + t.handed.length ≤ t.context.received.length := by
  have keep : ∀ r r', Inv loop below c.stashStack r ∧ Heard c r → next props beh below.length r = some r' →
      Inv loop below c.stashStack r' ∧ Heard c r' :=
    fun r r' ⟨inv, heard⟩ act => ⟨inv_next drains inv act, heard_next drains plain inv heard act⟩
  have first : Heard c (start c) := ⟨Nat.le_refl _, actor⟩
  exact (steps.keeps keep ⟨inv_start drains running top, first⟩).2.more

/-- **A replay in which the actor stashes nothing calls `Receive` at most as many times as there were messages**, at any time,
if no receiver middleware calls its last `next` more than once for a message; without such middleware it has done so at the
end of the loop exactly if nothing has been stashed. -/
theorem received_le_iff (once : AtMostOnce props beh calls) (drains : loop.drains = true) (top : c.stack = loop :: below) {n : Nat}
    (steps : Steps (next props beh below.length) n (start c) t) :
    (t.stashes = 0 → t.context.received.length ≤ c.received.length + c.stashed.length) ∧
      (props.receiverMiddlewareChain = none → c.actor = true → Ended loop below t →
        (t.context.received.length ≤ c.received.length + c.stashed.length ↔ t.stashes = 0)) := by
  obtain ⟨enough, exactly_⟩ := handed_le_iff drains top steps
  have upper := received_le_handed once drains top steps
  have bounded : t.stashes = 0 → t.context.received.length ≤ c.received.length + c.stashed.length := by
    intro zero
    have handed := enough zero
    omega
  refine ⟨bounded, fun plain actor ended => ⟨fun few => ?_, bounded⟩⟩
  by_cases stopped : c.state = .stopped
  · exact (deaf_of_steps drains stopped top steps).stashes
  · have lower := handed_le_received drains stopped top plain actor steps
    exact (exactly_ ended).1 (by omega)

theorem received_le_iff_12 : ∃ t, Steps (next .plain (stasher 1) 2) 8 (start stashing12) t ∧
    t.context.received.length ≤ stashing12.received.length + stashing12.stashed.length := by
  obtain ⟨t, steps, ended, zero, -⟩ := steps_12
  exact ⟨t, steps, (received_le_iff (atMostOnce_of_silent rfl (silent_stasher 1)) rfl rfl steps).1 zero⟩

/-- The actor at its loop, which stashes each message that it takes off. -/
def restashing (message : Ptr Nat Nat) (received : List (Received Nat Nat)) : ActorContext Nat Nat Nat Bool :=
  { stashing12 with messageOrEnvelope := message, extras := some ⟨[], [], [posted 1]⟩, received := received }

/-- One round: the message is handed out and stashed again. -/
theorem restashing_round (message : Ptr Nat Nat) (received handed : List (Received Nat Nat)) (stashes : Nat) :
    Steps (next .plain (stasher 2) 2) 5 ⟨restashing message received, handed, stashes⟩
      ⟨restashing .null (received ++ [seen (posted 1)]), handed ++ [seen (posted 1)], stashes + 1⟩ :=
  .cons rfl (.cons rfl (.cons rfl (.cons rfl (.cons rfl (.zero _)))))

/-- One message on the stash, and any number of calls of `Receive`. -/
theorem not_bounded_restashing : given 2 [1] = some (restashing (posted 9) [seen (posted 1), seen (posted 9)]) ∧
    (restashing (posted 9) [seen (posted 1), seen (posted 9)]).stashed.length = 1 ∧
    ∀ k, ∃ n message received handed stashes, Steps (next .plain (stasher 2) 2) n
      (start (restashing (posted 9) [seen (posted 1), seen (posted 9)])) ⟨restashing message received, handed, stashes⟩ ∧
      received.length = 2 + k := by
  refine ⟨rfl, rfl, fun k => ?_⟩
  induction k with
  | zero => exact ⟨0, _, _, _, _, .zero _, rfl⟩
  | succ k ih =>
    obtain ⟨n, message, received, handed, stashes, steps, size⟩ := ih
    refine ⟨n + 5, _, _, _, _, steps.append (restashing_round message received handed stashes), ?_⟩
    rw [List.length_append, size]
    rfl

/-- A middleware that calls its `next` twice, and an actor that returns at once. -/
def twice : Behaviour Nat Nat Unit Nat where
  receive := 0
  continuation := fun _ _ _ => 0
  resume := fun left _ memory =>
    match left with
    | 0 => (memory, .returns)
    | left + 1 => (memory, .performs .receive left)
  caught := fun _ => none
  produce := fun memory => some (memory, true)

/-- One message on the stash, two calls of `Receive`, and nothing stashed. -/
example : (Machine.exec (ActorContext.step ⟨some fun _ => 2, none⟩ twice) (List.replicate 9 .run)
    { (ActorContext.new none none () true : ActorContext Nat Nat Unit Nat) with extras := some ⟨[], [], [posted 1]⟩, stack := [.unstashAll] }).map
      (fun c => (c.received.length, c.stashed.length, c.stack)) = some (2, 0, []) := by decide

end Replay

end Protoactor.Actor
