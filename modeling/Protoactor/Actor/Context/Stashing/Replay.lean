import Protoactor.Actor.Context.Stashing

/-!
# What a replay hands out

A replay hands every message that it takes off to `DefaultReceive` before it takes the next one. So those
that the actor stashes meanwhile come out as well (`handed_le_iff`), and where it stashes none the messages
come out from the last one stashed to the first (`replays_stashed`). Without receiver middleware each of
them is a call of `Receive`.

`handed` and `stashes` are auxiliary.
-/

namespace Protoactor.Actor
set_option autoImplicit false
open Lib ActorContext

variable {U K σ C : Type}

structure Replay (U K σ C : Type) where
  context : ActorContext U K σ C
  /-- the calls of `DefaultReceive`, by what the accessors answered -/
  handed : List (Received U K)
  /-- the calls of `Stash` -/
  stashes : Nat

namespace Replay

variable {props : Props U K C} {beh : Behaviour U K σ C} {loop : Frame C} {below : List (Frame C)} {r r' t : Replay U K σ C}
  {c : ActorContext U K σ C}

/-- A loop is about to look at the stash for the first time. -/
def start (c : ActorContext U K σ C) : Replay U K σ C := ⟨c, [], 0⟩

/-- The step of the frame on top, with the record of it. -/
def advance (props : Props U K C) (beh : Behaviour U K σ C) (frame : Frame C) (rest : List (Frame C)) (r : Replay U K σ C) :
    Replay U K σ C where
  context := ({ r.context with stack := rest } : ActorContext U K σ C).runFrame props beh frame
  handed := match frame with
    | .receive => r.handed ++ [r.context.current]
    | _ => r.handed
  stashes := if stashing beh r.context frame then r.stashes + 1 else r.stashes

/-- The steps as long as there are more than `depth` frames. -/
def next (props : Props U K C) (beh : Behaviour U K σ C) (depth : Nat) (r : Replay U K σ C) : Option (Replay U K σ C) :=
  match r.context.stack with
  | [] => none
  | frame :: rest => if depth ≤ rest.length then some (r.advance props beh frame rest) else none

/-- The loop looks at the stash. -/
def AtLoop (loop : Frame C) (below : List (Frame C)) (r : Replay U K σ C) : Prop := r.context.stack = loop :: below

/-- The loop finds the stash empty. -/
structure Ended (loop : Frame C) (below : List (Frame C)) (r : Replay U K σ C) : Prop where
  top : AtLoop loop below r
  empty : r.context.stashed = []

/-- A message has been taken off and `DefaultReceive` is next. -/
def pending (r : Replay U K σ C) : List (Received U K) :=
  match r.context.stack with
  | .receive :: _ => [r.context.current]
  | _ => []

theorem next_eq {depth : Nat} (act : next props beh depth r = some r') :
    ∃ frame rest, r.context.stack = frame :: rest ∧ depth ≤ rest.length ∧ r' = r.advance props beh frame rest := by
  unfold next at act
  split at act
  · cases act
  · rename_i frame rest stack
    split at act
    · rename_i deep
      cases act
      exact ⟨frame, rest, stack, deep, rfl⟩
    · cases act

/-- A replay takes the steps of the machine of the context. -/
theorem step_of_next {depth : Nat} (act : next props beh depth r = some r') :
    ActorContext.step props beh r.context .run = some r'.context := by
  obtain ⟨frame, rest, stack, -, rfl⟩ := next_eq act
  simp only [ActorContext.step, stack]
  rfl

theorem run_of_steps {depth n : Nat} (steps : Steps (next props beh depth) n r t) :
    Machine.Run (ActorContext.step props beh) Machine.free r.context (List.replicate n .run) t.context := by
  induction steps with
  | zero => exact .nil _
  | snoc _ last ih =>
    rw [List.replicate_succ']
    exact ih.append (.cons (step_of_next last) True.intro (.nil _))

/-! ## The invariant -/

/-- The frames above the loop: an invocation begins at the top only. -/
structure Above (above : List (Frame C)) : Prop where
  plain : Plain above
  first : .receive ∉ above.tail

/-- While the loop is on the stack, what has been taken off, and then what is left, is what there was, unless
something has been stashed; and each message that there was or that has been stashed is counted once. -/
inductive Inv (loop : Frame C) (below : List (Frame C)) (stack : List (Ptr U K)) (r : Replay U K σ C) : Prop where
  | inside {above : List (Frame C)} (running : r.context.state ≠ .stopped) (place : r.context.stack = above ++ loop :: below)
      (shape : Above above)
      (count : r.handed.length + r.pending.length + r.context.stashStack.length = stack.length + r.stashes)
      (order : r.stashes = 0 → ∃ taken, taken ++ r.context.stashStack = stack ∧ r.handed ++ r.pending = taken.map seen)
  | left (place : r.context.stack.length ≤ below.length)
      (count : r.handed.length + r.context.stashStack.length ≤ stack.length + r.stashes)

theorem pending_of_top {frame : Frame C} {rest : List (Frame C)} (top : r.context.stack = frame :: rest) (other : frame ≠ .receive) :
    r.pending = [] := by
  unfold pending
  split
  · rename_i called
    rw [top] at called
    exact absurd (List.cons.inj called).1 other
  · rfl

theorem handed_advance {frame : Frame C} {rest : List (Frame C)} (top : r.context.stack = frame :: rest) :
    (r.advance props beh frame rest).handed = r.handed ++ r.pending := by
  by_cases called : frame = .receive
  · subst called
    rw [pending, top]
    rfl
  · rw [pending_of_top top called, List.append_nil]
    unfold advance
    cases frame with
    | receive => exact absurd rfl called
    | clear | code _ | unstashAll | incarnate | restore => rfl

theorem stashes_advance {frame : Frame C} {rest : List (Frame C)} (none : stashing beh r.context frame = false) :
    (r.advance props beh frame rest).stashes = r.stashes := by
  show (if stashing beh r.context frame then r.stashes + 1 else r.stashes) = r.stashes
  rw [none]
  rfl

theorem ne_receive_of_pushed {frame : Frame C} (own : frame.pushed = true) : frame ≠ .receive := by
  rintro rfl
  cases own

theorem ne_receive_of_drains (drains : loop.drains = true) : loop ≠ .receive := by
  rintro rfl
  cases drains

/-- No invocation begins where the frames on top are of another kind. -/
theorem pending_of_above (drains : loop.drains = true) {above : List (Frame C)} (place : r.context.stack = above ++ loop :: below)
    (none : .receive ∉ above) : r.pending = [] := by
  cases above with
  | nil => exact pending_of_top place (ne_receive_of_drains drains)
  | cons frame above => exact pending_of_top place fun called => none (called ▸ List.mem_cons_self)

theorem above_of_none {above : List (Frame C)} (plain : Plain above) (none : .receive ∉ above) : Above above :=
  ⟨plain, fun member => none (List.mem_of_mem_tail member)⟩

/-- A step after which no invocation begins and the stash is as before. -/
theorem Inv.same {stack : List (Ptr U K)} {above : List (Frame C)} {frame : Frame C} {rest : List (Frame C)} (drains : loop.drains = true)
    (inv : Inv loop below stack r) (top : r.context.stack = frame :: rest) (within : below.length ≤ rest.length)
    (running : (r.advance props beh frame rest).context.state ≠ .stopped) (none : stashing beh r.context frame = false)
    (place : (r.advance props beh frame rest).context.stack = above ++ loop :: below) (plain : Plain above) (other : .receive ∉ above)
    (stash : (r.advance props beh frame rest).context.stashStack = r.context.stashStack) :
    Inv loop below stack (r.advance props beh frame rest) := by
  cases inv with
  | left short count =>
    rw [top, List.length_cons] at short
    omega
  | inside _ _ _ count order =>
    refine .inside running place (above_of_none plain other) ?_ ?_
    · rw [handed_advance top, pending_of_above drains place other, stash, stashes_advance none, List.length_append]
      exact count
    · intro zero
      rw [stashes_advance none] at zero
      obtain ⟨taken, before, handed⟩ := order zero
      refine ⟨taken, ?_, ?_⟩
      · rw [stash]
        exact before
      · rw [handed_advance top, pending_of_above drains place other, List.append_nil]
        exact handed

/-- A step that takes a message off the stash. -/
theorem Inv.takes {stack : List (Ptr U K)} {above : List (Frame C)} {frame : Frame C} {rest : List (Frame C)} {message : Ptr U K}
    (inv : Inv loop below stack r) (top : r.context.stack = frame :: rest) (within : below.length ≤ rest.length)
    (running : (r.advance props beh frame rest).context.state ≠ .stopped) (none : stashing beh r.context frame = false)
    (place : (r.advance props beh frame rest).context.stack = [.receive, .clear] ++ above ++ loop :: below) (plain : Plain above)
    (other : .receive ∉ above) (stash : r.context.stashStack = message :: (r.advance props beh frame rest).context.stashStack)
    (current : (r.advance props beh frame rest).context.messageOrEnvelope = message) :
    Inv loop below stack (r.advance props beh frame rest) := by
  have begins : (r.advance props beh frame rest).pending = [seen message] := by
    rw [pending, place, List.append_assoc, List.cons_append]
    dsimp only
    rw [current_eq, current]
  cases inv with
  | left short count =>
    rw [top, List.length_cons] at short
    omega
  | inside _ _ _ count order =>
    refine .inside running place ⟨plain_invocation.append plain, ?_⟩ ?_ ?_
    · rintro (_ | ⟨_, member⟩)
      exact other member
    · rw [stash, List.length_cons] at count
      rw [handed_advance top, begins, stashes_advance none, List.length_append, List.length_singleton]
      omega
    · intro zero
      rw [stashes_advance none] at zero
      obtain ⟨taken, before, handed⟩ := order zero
      refine ⟨taken ++ [message], ?_, ?_⟩
      · rw [List.append_assoc, List.singleton_append, ← stash]
        exact before
      · rw [handed_advance top, begins, handed, List.map_append]
        rfl

/-- The loop is left. -/
theorem Inv.leaves {stack : List (Ptr U K)} {frame : Frame C} {rest : List (Frame C)} (inv : Inv loop below stack r)
    (top : r.context.stack = frame :: rest) (within : below.length ≤ rest.length) (none : stashing beh r.context frame = false)
    (place : (r.advance props beh frame rest).context.stack.length ≤ below.length)
    (stash : (r.advance props beh frame rest).context.stashStack = r.context.stashStack) :
    Inv loop below stack (r.advance props beh frame rest) := by
  cases inv with
  | left short count =>
    rw [top, List.length_cons] at short
    omega
  | inside _ _ _ count order =>
    refine .left place ?_
    rw [handed_advance top, stash, stashes_advance none, List.length_append]
    exact Nat.le_of_eq count

/-- The loops call no `Stash` themselves. -/
theorem stashing_of_drains (drains : loop.drains = true) : stashing beh c loop = false := by
  cases loop with
  | unstashAll | restore => rfl
  | receive | clear | code _ | incarnate => cases drains

theorem none_of_pushed {frames : List (Frame C)} (own : ∀ frame ∈ frames, frame.pushed = true) : .receive ∉ frames :=
  fun member => ne_receive_of_pushed (own _ member) rfl

/-- A step of the loop itself. -/
theorem inv_loop {stack : List (Ptr U K)} (drains : loop.drains = true) (inv : Inv loop below stack r) (top : r.context.stack = loop :: below)
    (running : r.context.state ≠ .stopped) : Inv loop below stack (r.advance props beh loop below) := by
  have none : stashing beh r.context loop = false := stashing_of_drains drains
  rcases loop_runFrame props beh drains r.context below rfl with ⟨empty, left, place⟩ | ⟨message, stash, state, place, current⟩
  · refine inv.leaves top (Nat.le_refl _) none ?_ (left.trans empty.symm)
    exact Nat.le_of_eq (congrArg List.length place)
  · rw [if_neg running] at place
    have nothing : Plain ([] : List (Frame C)) := plain_of_idle rfl
    exact inv.takes top (Nat.le_refl _) (fun stopped => running (state.symm.trans stopped)) none place nothing List.not_mem_nil stash
      (current running)

/-- A step above the loop. -/
theorem inv_inner {stack : List (Ptr U K)} (drains : loop.drains = true) {frame : Frame C} {above : List (Frame C)}
    (inv : Inv loop below stack r) (top : r.context.stack = frame :: (above ++ loop :: below)) (running : r.context.state ≠ .stopped)
    (shape : Above (frame :: above)) : Inv loop below stack (r.advance props beh frame (above ++ loop :: below)) := by
  obtain ⟨other, rest⟩ := List.forall_mem_cons.1 shape.plain
  have first : .receive ∉ above := shape.first
  have within : below.length ≤ (above ++ loop :: below).length := by
    rw [List.length_append, List.length_cons]
    omega
  have state : (r.advance props beh frame (above ++ loop :: below)).context.state = r.context.state :=
    (steady_runFrame (c := { r.context with stack := above ++ loop :: below }) other).state
  have running' : (r.advance props beh frame (above ++ loop :: below)).context.state ≠ .stopped :=
    fun stopped => running (state.symm.trans stopped)
  have moved : Moved beh r.context (above ++ loop :: below) (stashing beh r.context frame)
      (r.advance props beh frame (above ++ loop :: below)).context := moved_runFrame props other (above ++ loop :: below)
  cases moved with
  | calls none own place stash =>
    refine inv.same drains top within running' none (place.trans (List.append_assoc _ _ _).symm) ((plain_of_pushed own).append rest) ?_ stash
    exact fun member => (List.mem_append.1 member).elim (none_of_pushed own) first
  | throws none place stash =>
    rcases unwind_append beh above (loop :: below) with ⟨code, left, suffix, caught⟩ | gone
    · refine inv.same drains top within running' none (place.trans caught)
        ((plain_code code).append fun inner member => rest inner (suffix.subset member)) ?_ stash
      rintro (_ | ⟨_, member⟩)
      exact first (suffix.subset member)
    · refine inv.leaves top within none ?_ stash
      have passes : unwind beh (loop :: below) = unwind beh below := by
        cases loop with
        | unstashAll | restore => rfl
        | receive | clear | code _ | incarnate => cases drains
      rw [place, gone, passes]
      exact length_unwind beh below
  | @stashes code one place stash =>
    have quiet : .receive ∉ Frame.code code :: above := by
      rintro (_ | ⟨_, member⟩)
      exact first member
    cases inv with
    | left short count =>
      rw [top, List.length_cons] at short
      omega
    | inside _ _ _ count order =>
      have more : (r.advance props beh frame (above ++ loop :: below)).stashes = r.stashes + 1 := by
        show (if stashing beh r.context frame then r.stashes + 1 else r.stashes) = _
        rw [one, if_pos rfl]
      have place' : (r.advance props beh frame (above ++ loop :: below)).context.stack = (Frame.code code :: above) ++ loop :: below := place
      refine .inside running' place' (above_of_none ((plain_code code).append rest) quiet) ?_ ?_
      · rw [handed_advance top, pending_of_above drains place' quiet, stash, more, List.length_append,
          List.length_cons, List.length_nil]
        omega
      · intro zero
        rw [more] at zero
        cases zero
  | takes none own stash place current =>
    rw [if_neg running] at place
    refine inv.takes top within running' none ?_ ((plain_of_pushed own).append rest) ?_ stash (current running)
    · rw [place, List.append_assoc, List.append_assoc, List.append_assoc]
    · exact fun member => (List.mem_append.1 member).elim (none_of_pushed own) first

theorem inv_next {stack : List (Ptr U K)} (drains : loop.drains = true) (inv : Inv loop below stack r)
    (act : next props beh below.length r = some r') : Inv loop below stack r' := by
  obtain ⟨frame, rest, top, within, rfl⟩ := next_eq act
  cases id inv with
  | left short count =>
    rw [top, List.length_cons] at short
    omega
  | @inside above running place shape count order =>
    cases above with
    | nil =>
      cases top.symm.trans place
      exact inv_loop drains inv top running
    | cons inner above =>
      cases top.symm.trans place
      exact inv_inner drains inv top running shape

theorem inv_start (drains : loop.drains = true) (running : c.state ≠ .stopped) (top : c.stack = loop :: below) :
    Inv loop below c.stashStack (start c) := by
  have none : (start c).pending = [] := pending_of_top (r := start c) top (ne_receive_of_drains drains)
  refine .inside running (show (start c).context.stack = [] ++ loop :: below from top) (above_of_none (plain_of_idle rfl) List.not_mem_nil) ?_ fun _ => ⟨[], rfl, ?_⟩
  · rw [none]
    show 0 + 0 + c.stashStack.length = c.stashStack.length + 0
    omega
  · rw [none]
    rfl

theorem inv_of_steps (drains : loop.drains = true) (running : c.state ≠ .stopped) (top : c.stack = loop :: below) {n : Nat}
    (steps : Steps (next props beh below.length) n (start c) t) : Inv loop below c.stashStack t :=
  steps.keeps (fun _ _ inv act => inv_next drains inv act) (inv_start drains running top)

/-! ## How many -/

theorem stashStack_of_stashed (empty : c.stashed = []) : c.stashStack = [] := List.reverse_eq_nil_iff.1 empty

/-- At the loop everything that has been taken off has been handed out. -/
theorem Inv.at_loop {stack : List (Ptr U K)} (drains : loop.drains = true) (inv : Inv loop below stack r) (top : AtLoop loop below r) :
    r.handed.length + r.context.stashStack.length = stack.length + r.stashes ∧
      (r.stashes = 0 → ∃ taken, taken ++ r.context.stashStack = stack ∧ r.handed = taken.map seen) := by
  have none : r.pending = [] := pending_of_top top (ne_receive_of_drains drains)
  cases inv with
  | left short count =>
    rw [AtLoop] at top
    rw [top, List.length_cons] at short
    omega
  | inside running place shape count order =>
    rw [none, List.length_nil] at count
    rw [none, List.append_nil] at order
    exact ⟨count, order⟩

/-- A stopped actor gets nothing. -/
structure Deaf (loop : Frame C) (below : List (Frame C)) (r : Replay U K σ C) : Prop where
  handed : r.handed = []
  stashes : r.stashes = 0
  place : (AtLoop loop below r ∧ r.context.state = .stopped) ∨ r.context.stack.length ≤ below.length

theorem deaf_next (drains : loop.drains = true) (deaf : Deaf loop below r) (act : next props beh below.length r = some r') :
    Deaf loop below r' := by
  obtain ⟨frame, rest, top, within, rfl⟩ := next_eq act
  rcases deaf.place with ⟨here, stopped⟩ | short
  · cases top.symm.trans here
    refine ⟨?_, (stashes_advance (stashing_of_drains drains)).trans deaf.stashes, ?_⟩
    · rw [handed_advance top, pending_of_top top (ne_receive_of_drains drains), deaf.handed]
      rfl
    · rcases loop_runFrame props beh drains r.context below rfl with ⟨-, -, place⟩ | ⟨message, -, state, place, -⟩
      · exact .inr (Nat.le_of_eq (congrArg List.length place))
      · rw [if_pos stopped] at place
        exact .inl ⟨place, state.trans stopped⟩
  · rw [top, List.length_cons] at short
    omega

theorem deaf_of_steps (drains : loop.drains = true) (stopped : c.state = .stopped) (top : c.stack = loop :: below) {n : Nat}
    (steps : Steps (next props beh below.length) n (start c) t) : Deaf loop below t :=
  steps.keeps (fun _ _ deaf act => deaf_next drains deaf act) ⟨rfl, rfl, .inl ⟨top, stopped⟩⟩

/-- **A replay in which the actor stashes nothing hands out as many messages as there were at most**, at any time; when
the loop ends, it has done so exactly if nothing has been stashed. -/
theorem handed_le_iff (drains : loop.drains = true) (top : c.stack = loop :: below) {n : Nat}
    (steps : Steps (next props beh below.length) n (start c) t) :
    (t.stashes = 0 → t.handed.length ≤ c.stashed.length) ∧
      (Ended loop below t → (t.handed.length ≤ c.stashed.length ↔ t.stashes = 0)) := by
  have size : c.stashed.length = c.stashStack.length := List.length_reverse
  rw [size]
  by_cases running : c.state = .stopped
  · have deaf := deaf_of_steps drains running top steps
    rw [deaf.handed, deaf.stashes]
    exact ⟨fun _ => Nat.zero_le _, fun _ => iff_of_true (Nat.zero_le _) rfl⟩
  · have inv := inv_of_steps drains running top steps
    constructor
    · intro zero
      cases inv with
      | left short count => omega
      | inside running place shape count order => omega
    · rintro ⟨here, empty⟩
      obtain ⟨count, -⟩ := inv.at_loop drains here
      rw [stashStack_of_stashed empty, List.length_nil] at count
      omega

/-! ## Which calls of `Receive` -/

/-- The loop and what it runs make no actor. -/
theorem Inv.made {stack : List (Ptr U K)} (drains : loop.drains = true) (inv : Inv loop below stack r) {frame : Frame C}
    {rest : List (Frame C)} (top : r.context.stack = frame :: rest) (within : below.length ≤ rest.length) : frame ≠ .incarnate := by
  cases inv with
  | left short count =>
    rw [top, List.length_cons] at short
    omega
  | @inside above running place shape count order =>
    cases above with
    | nil =>
      cases top.symm.trans place
      rintro rfl
      cases drains
    | cons inner above =>
      cases top.symm.trans place
      have own : frame.restarts = false := shape.plain frame List.mem_cons_self
      rintro rfl
      cases own

/-- Without receiver middleware `DefaultReceive` calls `Receive`. -/
theorem received_advance {rest : List (Frame C)} (plain : props.receiverMiddlewareChain = none) (actor : r.context.actor = true) :
    (r.advance props beh .receive rest).context.received = r.context.received ++ [r.context.current] ∧
      (r.advance props beh .receive rest).context.actor = true := by
  have called : (r.advance props beh .receive rest).context = ActorContext.receive beh { r.context with stack := rest } := by
    show ActorContext.runFrame props beh .receive { r.context with stack := rest } = _
    rw [ActorContext.runFrame, defaultReceive, plain]
  rw [called, ActorContext.receive, if_pos actor]
  exact ⟨rfl, actor⟩

/-- What `Receive` has been called with since the loop began is what has been handed out. -/
structure Said (c : ActorContext U K σ C) (r : Replay U K σ C) : Prop where
  received : r.context.received = c.received ++ r.handed
  actor : r.context.actor = true

theorem said_next {stack : List (Ptr U K)} (drains : loop.drains = true) (plain : props.receiverMiddlewareChain = none) (silent : Silent beh)
    (inv : Inv loop below stack r) (said : Said c r) (act : next props beh below.length r = some r') : Said c r' := by
  obtain ⟨frame, rest, top, within, rfl⟩ := next_eq act
  by_cases called : frame = .receive
  · subst called
    have called : (r.advance props beh .receive rest).context.received = r.context.received ++ [r.context.current] ∧
        (r.advance props beh .receive rest).context.actor = true := received_advance plain said.actor
    refine ⟨?_, called.2⟩
    rw [called.1, said.received, List.append_assoc]
    rfl
  · have same : Unheard r.context (r.advance props beh frame rest).context :=
      unheard_runFrame silent (inv.made drains top within) called rest
    refine ⟨?_, same.2.trans said.actor⟩
    rw [handed_advance top, pending_of_top top called, List.append_nil]
    exact same.1.trans said.received

/-- Without receiver middleware, where no program calls `Receive` itself, each message that is handed out is a call of it. -/
theorem received_of_steps (drains : loop.drains = true) (running : c.state ≠ .stopped) (top : c.stack = loop :: below)
    (plain : props.receiverMiddlewareChain = none) (silent : Silent beh) (actor : c.actor = true) {n : Nat}
    (steps : Steps (next props beh below.length) n (start c) t) : t.context.received = c.received ++ t.handed := by
  have keep : ∀ r r', Inv loop below c.stashStack r ∧ Said c r → next props beh below.length r = some r' →
      Inv loop below c.stashStack r' ∧ Said c r' :=
    fun r r' ⟨inv, said⟩ act => ⟨inv_next drains inv act, said_next drains plain silent inv said act⟩
  have first : Said c (start c) := ⟨(List.append_nil _).symm, actor⟩
  exact (steps.keeps keep ⟨inv_start drains running top, first⟩).2.received

/-! ## In which order -/

/-- Every invocation that the replay begins returns to the loop, and has stashed nothing. -/
def Returns (props : Props U K C) (beh : Behaviour U K σ C) (loop : Frame C) (below : List (Frame C)) (c : ActorContext U K σ C) : Prop :=
  ∀ n t, Steps (next props beh below.length) n (start c) t → t.context.stack = .receive :: .clear :: loop :: below →
    ∃ k t', Steps (next props beh (below.length + 1)) k t t' ∧ AtLoop loop below t' ∧ t'.stashes = t.stashes

/-- The steps above the loop are steps of the replay. -/
theorem steps_lower {depth n : Nat} (steps : Steps (next props beh (depth + 1)) n r t) : Steps (next props beh depth) n r t := by
  induction steps with
  | zero => exact .zero _
  | snoc _ last ih =>
    obtain ⟨frame, rest, top, within, rfl⟩ := next_eq last
    refine .snoc ih ?_
    rw [next, top]
    exact if_pos (Nat.le_of_succ_le within)

theorem handed_mono {depth n : Nat} (steps : Steps (next props beh depth) n r t) : r.handed.length ≤ t.handed.length := by
  have grows : ∀ s s', r.handed.length ≤ s.handed.length → next props beh depth s = some s' → r.handed.length ≤ s'.handed.length := by
    intro s s' longer act
    obtain ⟨frame, rest, top, within, rfl⟩ := next_eq act
    rw [handed_advance top, List.length_append]
    omega
  exact steps.keeps grows (Nat.le_refl _)

/-- An invocation that returns has been handed out. -/
theorem handed_of_invocation {depth n : Nat} {rest : List (Frame C)} (top : r.context.stack = .receive :: rest)
    (steps : Steps (next props beh depth) n r t) (returned : t.context.stack ≠ .receive :: rest) : r.handed.length + 1 ≤ t.handed.length := by
  rcases steps.head with rfl | ⟨s, k, first, later⟩
  · exact absurd top returned
  · obtain ⟨frame, rest', top', within, rfl⟩ := next_eq first
    have begun : (r.advance props beh frame rest').handed.length = r.handed.length + 1 := by
      rw [handed_advance top', pending, top, List.length_append]
      rfl
    exact begun ▸ handed_mono later

/-- The loop goes on to its end. -/
theorem ends (drains : loop.drains = true) (running : c.state ≠ .stopped) (top : c.stack = loop :: below)
    (returns : Returns props beh loop below c) (size : Nat) {n : Nat} (steps : Steps (next props beh below.length) n (start c) r)
    (here : AtLoop loop below r) (zero : r.stashes = 0) (short : r.context.stashStack.length ≤ size) :
    ∃ m t, Steps (next props beh below.length) m (start c) t ∧ Ended loop below t ∧ t.stashes = 0 := by
  induction size generalizing n r with
  | zero =>
    have empty : r.context.stashStack = [] := List.eq_nil_of_length_eq_zero (Nat.le_zero.1 short)
    exact ⟨n, r, steps, ⟨here, List.reverse_eq_nil_iff.2 empty⟩, zero⟩
  | succ size ih =>
    have inv := inv_of_steps drains running top steps
    have act : next props beh below.length r = some (r.advance props beh loop below) := by
      rw [AtLoop] at here
      rw [next, here]
      exact if_pos (Nat.le_refl _)
    have alive : r.context.state ≠ .stopped := by
      cases inv with
      | left short' count =>
        rw [AtLoop] at here
        rw [here, List.length_cons] at short'
        omega
      | inside alive place shape count order => exact alive
    rcases loop_runFrame props beh drains r.context below rfl with ⟨empty, -, -⟩ | ⟨message, stash, -, place, -⟩
    · exact ⟨n, r, steps, ⟨here, List.reverse_eq_nil_iff.2 empty⟩, zero⟩
    · rw [if_neg alive] at place
      have steps' := steps.snoc act
      obtain ⟨k, t', invocation, back, same⟩ := returns _ _ steps' place
      have longer := handed_of_invocation place invocation fun again => by
        rw [AtLoop] at back
        rw [back] at again
        exact ne_receive_of_drains drains (List.cons.inj again).1
      have steps'' := steps'.append (steps_lower invocation)
      obtain ⟨count, -⟩ := inv.at_loop drains here
      obtain ⟨count', -⟩ := (inv_of_steps drains running top steps'').at_loop drains back
      have zero' : t'.stashes = 0 := same.trans ((stashes_advance (stashing_of_drains drains)).trans zero)
      have begun : (r.advance props beh loop below).handed = r.handed := by
        rw [handed_advance here, pending_of_top here (ne_receive_of_drains drains), List.append_nil]
      rw [begun] at longer
      exact ih steps'' back zero' (by omega)

/-- **The messages come out from the last one stashed to the first**, each once and as it was stashed, and nothing
is left; `UnstashAll` needs an actor that is not stopped, a restart always finds one. -/
theorem replays_stashed {self parent : Option PID} {memory : σ} {actor : Bool} {ls : List (ActorContext.Label U K)}
    (run : Machine.Run (ActorContext.step props beh) Machine.free (ActorContext.new self parent memory actor) ls c)
    (drains : loop.drains = true) (top : c.stack = loop :: below) (running : loop = .unstashAll → c.state ≠ .stopped)
    (returns : Returns props beh loop below c) :
    ∃ n t u, Steps (next props beh below.length) n (start c) t ∧ Ended loop below t ∧ t.handed = (c.stashed.map seen).reverse ∧
      (props.receiverMiddlewareChain = none → Silent beh → c.actor = true →
        t.context.received = c.received ++ (c.stashed.map seen).reverse) ∧
      next props beh below.length t = some u ∧ u.context.stack = below ∧ u.context.stashed = [] ∧
      Machine.Run (ActorContext.step props beh) Machine.free c (List.replicate (n + 1) .run) u.context := by
  have alive : c.state ≠ .stopped := by
    cases loop with
    | unstashAll => exact running rfl
    | restore =>
      rw [alive_of_restore run top]
      exact nofun
    | receive | clear | code _ | incarnate => cases drains
  obtain ⟨n, t, steps, ended, zero⟩ := ends drains alive top returns c.stashStack.length (.zero _) top rfl (Nat.le_refl _)
  obtain ⟨-, order⟩ := (inv_of_steps drains alive top steps).at_loop drains ended.top
  obtain ⟨taken, all, handed⟩ := order zero
  have empty := stashStack_of_stashed ended.empty
  rw [empty, List.append_nil] at all
  have here : t.context.stack = loop :: below := ended.top
  have act : next props beh below.length t = some (t.advance props beh loop below) := by
    rw [next, here]
    exact if_pos (Nat.le_refl _)
  have whole : t.handed = (c.stashed.map seen).reverse := by rw [handed, all, stashed, List.map_reverse, List.reverse_reverse]
  refine ⟨n, t, _, steps, ended, whole, fun plain silent actor => ?_, act, ?_⟩
  · rw [received_of_steps drains alive top plain silent actor steps, whole]
  · rcases loop_runFrame props beh drains t.context below rfl with ⟨-, left, place⟩ | ⟨message, stash, -, -, -⟩
    · exact ⟨place, List.reverse_eq_nil_iff.2 left, run_of_steps (steps.snoc act)⟩
    · rw [empty] at stash
      cases stash

/-! ## Two actors -/

/-- Stashes what it gets while `memory` is not below `patience`; `9` counts once more and takes everything off. -/
def stasher (patience : Nat) : Behaviour Nat Nat Nat Bool where
  receive := true
  continuation := fun _ _ _ => false
  resume := fun begins view memory =>
    if ¬ begins then (memory, .returns)
    else if view.received.message = .user 9 then (memory + 1, .performs .unstashAll false)
    else if memory < patience then (memory, .performs .stash false)
    else (memory, .returns)
  caught := fun _ => none
  produce := fun memory => some (memory, true)

/-- A message as it is sent. -/
def posted (payload : Nat) : Ptr Nat Nat := .envelope none (.user payload) none

/-- The actor is given these messages, and then `9`, up to the loop. -/
def deliver (payloads : List Nat) : List (ActorContext.Label Nat Nat) :=
  payloads.flatMap (fun payload => [.user (posted payload), .run, .run, .run, .run]) ++ [.user (posted 9), .run, .run]

def given (patience : Nat) (payloads : List Nat) : Option (ActorContext Nat Nat Nat Bool) :=
  Machine.exec (ActorContext.step .plain (stasher patience)) (deliver payloads) (ActorContext.new none none 0 true)

/-- The actor after it has stashed what it was given. -/
def stashing12 : ActorContext Nat Nat Nat Bool where
  self := none
  parent := none
  state := .alive
  messageOrEnvelope := posted 9
  extras := some ⟨[], [], [posted 2, posted 1]⟩
  actor := true
  memory := 1
  stack := [.unstashAll, .code false, .clear]
  received := [seen (posted 1), seen (posted 2), seen (posted 9)]
  continued := []
  sent := []

theorem given_12 : given 1 [1, 2] = some stashing12 := rfl

/-- The invocation on top returns in three steps. -/
def returnsAtOnce (props : Props U K C) (beh : Behaviour U K σ C) [DecidableEq C] (loop : Frame C) (below : List (Frame C))
    (r : Replay U K σ C) : Bool :=
  r.context.stack ≠ .receive :: .clear :: loop :: below ∨
    (((next props beh (below.length + 1) r).bind (next props beh (below.length + 1))).bind (next props beh (below.length + 1))).any
      fun t => t.context.stack = loop :: below ∧ t.stashes = r.stashes

theorem returns_of_checkRun [DecidableEq C] {fuel : Nat}
    (passed : checkRun (next props beh below.length) (returnsAtOnce props beh loop below) fuel (start c) = true) :
    Returns props beh loop below c := by
  intro n t steps begins
  have check := Steps.of_checkRun passed steps
  simp only [returnsAtOnce, begins, ne_eq, not_true_eq_false, false_or, decide_eq_true_eq, Option.any_eq_true,
    Option.bind_eq_some_iff] at check
  obtain ⟨t', ⟨s', ⟨s, first, second⟩, third⟩, back, same⟩ := check
  exact ⟨3, t', (((Steps.zero t).snoc first).snoc second).snoc third, back, same⟩

theorem silent_stasher (patience : Nat) : Silent (stasher patience) := by
  intro begins view memory rest
  unfold stasher
  dsimp only
  split_ifs <;> simp

theorem replays_stashed_12 : ∃ n t u, Steps (next .plain (stasher 1) 2) n (start stashing12) t ∧
    Ended .unstashAll [.code false, .clear] t ∧ t.handed = [seen (posted 2), seen (posted 1)] ∧
    t.context.received = [seen (posted 1), seen (posted 2), seen (posted 9), seen (posted 2), seen (posted 1)] ∧
    next .plain (stasher 1) 2 t = some u ∧ u.context.stack = [.code false, .clear] ∧ u.context.stashed = [] ∧
    Machine.Run (ActorContext.step .plain (stasher 1)) Machine.free stashing12 (List.replicate (n + 1) .run) u.context := by
  have passed : checkRun (next .plain (stasher 1) 2) (returnsAtOnce .plain (stasher 1) .unstashAll [.code false, .clear]) 12
      (start stashing12) = true := by decide
  obtain ⟨n, t, u, steps, ended, handed, received, rest⟩ :=
    replays_stashed (Machine.free_of_exec given_12) rfl rfl (fun _ => nofun) (returns_of_checkRun passed)
  exact ⟨n, t, u, steps, ended, handed, received rfl (silent_stasher 1) rfl, rest⟩

theorem steps_12 : ∃ t, Steps (next .plain (stasher 1) 2) 8 (start stashing12) t ∧ Ended .unstashAll [.code false, .clear] t ∧
    t.stashes = 0 ∧ t.handed = [seen (posted 2), seen (posted 1)] :=
  ⟨_, .cons rfl (.cons rfl (.cons rfl (.cons rfl (.cons rfl (.cons rfl (.cons rfl (.cons rfl (.zero _)))))))), ⟨rfl, rfl⟩, rfl, rfl⟩

/-- The messages `1` and `2` come out as `2` and `1`. -/
theorem not_arrival_order : given 1 [1, 2] = some stashing12 ∧ stashing12.stashed = [posted 1, posted 2] ∧
    ∃ t, Steps (next .plain (stasher 1) 2) 8 (start stashing12) t ∧ Ended .unstashAll [.code false, .clear] t ∧
      t.stashes = 0 ∧ t.handed ≠ stashing12.stashed.map seen := by
  obtain ⟨t, steps, ended, zero, handed⟩ := steps_12
  refine ⟨rfl, rfl, t, steps, ended, zero, ?_⟩
  rw [handed]
  decide

end Replay

end Protoactor.Actor
