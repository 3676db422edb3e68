import Protoactor.Actor.Mailbox.Exclusion
import Protoactor.Actor.Mailbox.Accounting
import Protoactor.Actor.Mailbox.Synchronized

/-!
# How the calls nest

On one stack the calls of different mailboxes nest: below a running handler wait the
`ProcessMessages` call that invoked it and the post that started that call, and below these
the same three frames of another actor, or nothing. `Nested` says this, that no actor
occurs twice in it, and what is true of each mailbox: the flag is `RUNNING` exactly for
the actors with a waiting call, a mailbox nobody is waiting for is empty, and only the frame
on top owes anything to its mailbox. So a message posted to a waiting actor is left to
that call, and one posted to any other actor is processed before the post returns.
-/

namespace Protoactor.Actor
set_option autoImplicit false
open Lib

section Calls

variable {M : Type} {h : Handlers} {b b' : DefaultMailbox M}

/-- The throughputs for which `throughput * 10` neither wraps nor ends `ProcessLoop` early. -/
def Handlers.Proper (h : Handlers) : Prop := 1 ≤ h.throughput ∧ h.throughput ≤ 10 ^ 8

theorem maxIterations_of_proper (proper : h.Proper) : maxIterations h = h.throughput * 10 := by
  have low := proper.1
  have high := proper.2
  exact int32_of_range (by omega) (by omega)

/-- The iteration counter of `ProcessLoop` never gets near `max_iterations`. -/
def Worker.Counting (h : Handlers) (w : Worker M) : Prop := 0 ≤ w.i ∧ w.i ≤ h.throughput + 1

/-- `ProcessLoop` never ends at its loop test: the counter is reset first. -/
theorem Worker.iterate_pc (proper : h.Proper) {w : Worker M} (counting : w.Counting h) :
    (w.iterate h).pc = .pop .system ∧ (w.iterate h).Counting h := by
  have low := proper.1
  obtain ⟨lower, upper⟩ := counting
  have more : w.i < maxIterations h := by
    rw [maxIterations_of_proper proper]
    omega
  simp only [Worker.iterate, more, if_true]
  refine ⟨trivial, ?_, ?_⟩
  · show 0 ≤ (if h.throughput < w.i then 0 else w.i) + 1
    split <;> omega
  · show (if h.throughput < w.i then 0 else w.i) + 1 ≤ h.throughput + 1
    split <;> omega

theorem Worker.processMessages_pc (proper : h.Proper) :
    (Worker.processMessages h : Worker M).pc = .pop .system ∧ (Worker.processMessages h : Worker M).Counting h := by
  have low := proper.1
  apply Worker.iterate_pc proper
  exact ⟨Int.le_refl 0, show (0 : Int) ≤ h.throughput + 1 by omega⟩

/-! ## A mailbox no frame on top concerns -/

/-- `waiting`: a `ProcessMessages` call of this mailbox is on the stack. -/
structure Settled (waiting : Prop) (b : DefaultMailbox M) : Prop where
  active : b.suspended = 0
  lanes : ∀ k, (b.lane k).Accounted 0 []
  running : b.schedulerStatus = .running ↔ waiting
  drained : ¬ waiting → ∀ k, (b.lane k).queue = []

theorem Settled.iff {waiting waiting' : Prop} (same : waiting' ↔ waiting) (settled : Settled waiting b) :
    Settled waiting' b := propext same ▸ settled

theorem Settled.quiet {waiting : Prop} (settled : Settled waiting b) (nobody : ¬ waiting) :
    Synchronized.Quiet b where
  idle := by
    cases status : b.schedulerStatus with
    | idle => rfl
    | running => exact absurd (settled.running.1 status) nobody
  active := settled.active
  lanes := fun k => (settled.lanes k).resting (settled.drained nobody k)

theorem settled_of_quiet {waiting : Prop} (quiet : Synchronized.Quiet b) (nobody : ¬ waiting) : Settled waiting b where
  active := quiet.active
  lanes := fun k => (quiet.lanes k).accounted
  running := by simp [quiet.idle, nobody]
  drained := fun _ k => (quiet.lanes k).queue

/-! ## The mailbox a post on top works on -/

structure Posting (waiting : Prop) (c : PostCall M) (b : DefaultMailbox M) : Prop where
  active : b.suspended = 0
  real : c.message ≠ none
  lanes : ∀ k, (b.lane k).Accounted (0 - c.owes k) []
  running : b.schedulerStatus = .running ↔ waiting ∨ c.pc = .dispatch
  alone : c.pc = .dispatch → ¬ waiting
  drained : c.pc = .push ∨ c.pc = .returned → ¬ waiting → ∀ k, (b.lane k).queue = []

theorem Settled.posting {waiting : Prop} (settled : Settled waiting b) (k : Kind) (m : M) :
    Posting waiting ⟨k, some m, .push⟩ b where
  active := settled.active
  real := nofun
  lanes := settled.lanes
  running := by simp [settled.running]
  alone := nofun
  drained := fun _ => settled.drained

theorem Posting.settled {waiting : Prop} {c : PostCall M} (posting : Posting waiting c b) (pc : c.pc = .returned) :
    Settled waiting b where
  active := posting.active
  lanes := by simpa [PostCall.owes, pc] using posting.lanes
  running := by simp [posting.running, pc]
  drained := posting.drained (.inr pc)

theorem Posting.step {waiting : Prop} {c c' : PostCall M} (posting : Posting waiting c b)
    (act : c.step b = some (b', c')) : Posting waiting c' b' := by
  have message := (PostCall.step_invoked act .user).1
  have lanes : ∀ k, (b'.lane k).Accounted (0 - c'.owes k) [] := PostCall.step_accounted act posting.real posting.lanes
  have running := posting.running
  refine ⟨(PostCall.step_suspended act).trans posting.active, message ▸ posting.real, lanes, ?_, ?_, ?_⟩
  · rcases PostCall.step_right act with ⟨before, ⟨after, same⟩ | ⟨won, wasIdle, nowRunning⟩⟩
    · simpa [before, after, same] using running
    · simp [won, nowRunning]
  · intro won
    rcases PostCall.step_right act with ⟨before, ⟨after, -⟩ | ⟨-, wasIdle, -⟩⟩
    · exact absurd won after
    · simpa [before, wasIdle] using running
  · cases PostCall.act act with
    | push pc | fetchAdd pc | win pc idle => nofun
    | lose pc already =>
      intro _ nobody
      exact absurd (running.1 already) (by simp [nobody, pc])

/-! ## The mailbox a `ProcessMessages` call on top works on -/

/-- What the call knows of the queues. The tail finds both empty and both
counters 0, so it never re-acquires. -/
def Worker.Place (w : Worker M) (b : DefaultMailbox M) : Prop :=
  match w.pc with
  | .pop .system | .fetchSub _ _ | .invoke _ _ | .invoking _ _ => True
  | .checkSuspended | .pop .user => b.system.queue = []
  | .storeIdle | .loadSys | .returned => ∀ k, (b.lane k).queue = []
  | .loadUser sys => sys = 0 ∧ ∀ k, (b.lane k).queue = []
  | .loadSuspended sys user => sys = 0 ∧ user = 0 ∧ ∀ k, (b.lane k).queue = []
  | .reacquire | .threw => False

structure Working (h : Handlers) (w : Worker M) (b : DefaultMailbox M) : Prop where
  active : b.suspended = 0
  lanes : ∀ k, (b.lane k).Accounted (0 + w.owes k) (w.carried k)
  running : b.schedulerStatus = .running ↔ w.holds = true
  counting : w.Counting h
  place : w.Place b

theorem place_of_pop_system {w : Worker M} (pc : w.pc = .pop .system) : w.Place b := by simp [Worker.Place, pc]

theorem Working.place_step {w w' : Worker M} (proper : h.Proper) (working : Working h w b)
    (act : w.step h b = some (b', w')) : w'.Place b' ∧ w'.Counting h := by
  have counting := working.counting
  have place := working.place
  have active := working.active
  cases Worker.act act with
  | @take k m seen pc answer looked => exact ⟨trivial, counting⟩
  | @miss k seen pc answer looked =>
    have own := working.lanes k
    simp only [Worker.carried, Worker.owes, pc] at own
    obtain ⟨empty, same⟩ := own.pop_none answer
    rw [same]
    cases k with
    | system => exact ⟨empty, counting⟩
    | user =>
      have system : b.system.queue = [] := by simpa [Worker.Place, pc] using place
      refine ⟨fun k => ?_, counting⟩
      cases k with
      | user => exact empty
      | system => exact system
  | fetchSub pc | invoke pc => exact ⟨trivial, counting⟩
  | handled pc =>
    obtain ⟨next, counts⟩ := Worker.iterate_pc proper counting
    exact ⟨place_of_pop_system next, counts⟩
  | suspended pc yes => exact absurd (active.symm.trans yes) (by decide)
  | active pc no => exact ⟨by simpa [Worker.Place, pc] using place, counting⟩
  | storeIdle pc => exact ⟨by simpa [Worker.Place, pc] using place, counting⟩
  | loadSys pc =>
    have own := working.lanes .system
    simp only [Worker.carried, Worker.owes, pc] at own
    simp only [Worker.Place, pc] at place
    exact ⟨⟨(own.resting (place .system)).messages, place⟩, counting⟩
  | loadUser pc =>
    have own := working.lanes .user
    simp only [Worker.carried, Worker.owes, pc] at own
    simp only [Worker.Place, pc] at place
    exact ⟨⟨place.1, (own.resting (place.2 .user)).messages, place.2⟩, counting⟩
  | again pc more =>
    simp only [Worker.Place, pc] at place
    obtain ⟨rfl, rfl, -⟩ := place
    simp at more
  | drained pc none =>
    simp only [Worker.Place, pc] at place
    exact ⟨place.2.2, counting⟩
  | reacquire pc idle | overtaken pc running => simp [Worker.Place, pc] at place

theorem Working.step {w w' : Worker M} (proper : h.Proper) (working : Working h w b)
    (act : w.step h b = some (b', w')) : Working h w' b' := by
  obtain ⟨place, counting⟩ := working.place_step proper act
  have lanes : ∀ k, (b'.lane k).Accounted (0 + w'.owes k) (w'.carried k) := Worker.step_accounted act working.lanes
  refine ⟨(Worker.step_suspended act).trans working.active, lanes, ?_, counting, place⟩
  rcases Worker.step_right act with ⟨same, status⟩ | ⟨-, released, -, nowIdle⟩ | ⟨-, pc, -⟩
  · rw [same, status]
    exact working.running
  · simp [released, nowIdle]
  · have absurdly := working.place
    simp [Worker.Place, pc] at absurdly

end Calls

namespace Synchronized

variable {A M σ K : Type} {hs : A → Handlers}

/-! ## The stack -/

/-- The frames waiting for a running handler, with the actors they belong to. -/
inductive Parked (hs : A → Handlers) : List (Frame A M K) → List A → Prop where
  | nil : Parked hs [] []
  | cons {a : A} {rest : K} {w : Worker M} {k : Kind} {m : M} {call : PostCall M} {below : List (Frame A M K)}
      {waiting : List A} (under : Parked hs below waiting) (fresh : a ∉ waiting) (inside : w.pc = .invoking k m)
      (counting : w.Counting (hs a)) (posted : call.pc = .returned) (real : call.message ≠ none) :
      Parked hs (.handler a rest :: .process a w :: .post a call :: below) (a :: waiting)

theorem Parked.nodup {stack : List (Frame A M K)} {waiting : List A} (parked : Parked hs stack waiting) :
    waiting.Nodup := by
  induction parked with
  | nil => exact List.nodup_nil
  | cons under fresh inside counting posted real ih => exact List.nodup_cons.2 ⟨fresh, ih⟩

/-- The boxes of all actors but `a`. -/
def Others (a : A) (waiting : List A) (boxes : A → DefaultMailbox M) : Prop :=
  ∀ b, b ≠ a → Settled (b ∈ waiting) (boxes b)

/-- The actor itself makes no difference to the others. -/
theorem others_cons {a : A} {waiting : List A} {boxes : A → DefaultMailbox M} :
    Others a (a :: waiting) boxes ↔ Others a waiting boxes := by
  constructor
  · intro others b different
    exact (others b different).iff (by simp [different])
  · intro others b different
    exact (others b different).iff (by simp [different])

variable [DecidableEq A]

/-- The handlers on the stack are those of the waiting actors. -/
theorem Parked.handles {stack : List (Frame A M K)} {waiting : List A} (parked : Parked hs stack waiting) (b : A) :
    stack.countP (Frame.handles b) = waiting.count b := by
  induction parked with
  | nil => rfl
  | @cons a rest w k m call below waiting under fresh inside counting posted real ih =>
    by_cases same : a = b <;> simp [Frame.handles, same, ih]

/-- Every push so far was one of `sends`, in their order, after what the mailboxes had seen before. -/
def Written (old : A → Kind → List (Option M)) (sends : List (Send A M)) (boxes : A → DefaultMailbox M) : Prop :=
  ∀ b k, ((boxes b).lane k).pushed = old b k ++ (sentTo b k sends).map some

/-- The send of a post that has not pushed yet. -/
def pending (a : A) (c : PostCall M) : List (Send A M) :=
  match c.pc, c.message with
  | .push, some m => [⟨a, c.kind, m⟩]
  | _, _ => []

inductive Nested (hs : A → Handlers) (old : A → Kind → List (Option M)) : Config A M σ K → Prop where
  /-- a handler runs, or the external post has returned -/
  | parked {boxes : A → DefaultMailbox M} {memory : σ} {stack : List (Frame A M K)} {sent : List (Send A M)}
      {waiting : List A} (under : Parked hs stack waiting) (settled : ∀ b, Settled (b ∈ waiting) (boxes b))
      (written : Written old sent boxes) : Nested hs old ⟨boxes, memory, stack, sent⟩
  /-- a post runs -/
  | posting {boxes : A → DefaultMailbox M} {memory : σ} {a : A} {call : PostCall M} {below : List (Frame A M K)}
      {sent placed : List (Send A M)} {waiting : List A} (under : Parked hs below waiting)
      (own : Posting (a ∈ waiting) call (boxes a)) (others : Others a waiting boxes)
      (split : sent = placed ++ pending a call) (written : Written old placed boxes) :
      Nested hs old ⟨boxes, memory, .post a call :: below, sent⟩
  /-- a `ProcessMessages` call runs -/
  | working {boxes : A → DefaultMailbox M} {memory : σ} {a : A} {w : Worker M} {call : PostCall M}
      {below : List (Frame A M K)} {sent : List (Send A M)} {waiting : List A} (under : Parked hs below waiting)
      (fresh : a ∉ waiting) (posted : call.pc = .returned) (real : call.message ≠ none)
      (own : Working (hs a) w (boxes a)) (others : Others a waiting boxes) (written : Written old sent boxes) :
      Nested hs old ⟨boxes, memory, .process a w :: .post a call :: below, sent⟩

theorem Others.update {a : A} {waiting : List A} {boxes : A → DefaultMailbox M} {b : DefaultMailbox M}
    (others : Others a waiting boxes) : Others a waiting (Function.update boxes a b) := by
  intro b' different
  rw [Function.update_of_ne different]
  exact others b' different

theorem sentTo_append (b : A) (k : Kind) (sends sends' : List (Send A M)) :
    sentTo b k (sends ++ sends') = sentTo b k sends ++ sentTo b k sends' := by
  simp [sentTo]

/-- A step that pushes nothing. -/
theorem Written.update {old : A → Kind → List (Option M)} {sends : List (Send A M)} {boxes : A → DefaultMailbox M}
    {a : A} {b : DefaultMailbox M} (written : Written old sends boxes)
    (same : ∀ k, (b.lane k).pushed = ((boxes a).lane k).pushed) : Written old sends (Function.update boxes a b) := by
  intro a' k
  by_cases own : a' = a
  · subst own
    rw [Function.update_self, same, written]
  · rw [Function.update_of_ne own, written]

/-- A step of a post writes what was pending. -/
theorem Written.post {old : A → Kind → List (Option M)} {sends : List (Send A M)} {boxes : A → DefaultMailbox M}
    {a : A} {b : DefaultMailbox M} {c c' : PostCall M} (written : Written old sends boxes) (real : c.message ≠ none)
    (act : c.step (boxes a) = some (b, c')) :
    Written old (sends ++ pending a c) (Function.update boxes a b) ∧ pending a c' = [] := by
  obtain ⟨m, message⟩ := Option.ne_none_iff_exists'.1 real
  have pushed := PostCall.step_pushed act
  constructor
  · intro a' k
    have before := written a' k
    rw [sentTo_append, List.map_append, ← List.append_assoc, ← before]
    by_cases own : a' = a
    · subst own
      rw [Function.update_self, (pushed k).2]
      by_cases first : c.pc = .push
      · by_cases same : c.kind = k <;> simp [pending, sentTo, first, message, same]
      · have nothing : pending a' c = [] := by
          unfold pending
          split <;> simp_all
        simp [nothing, sentTo, first]
    · rw [Function.update_of_ne own]
      have nothing : sentTo a' k (pending a c) = [] := by
        unfold pending
        split <;> simp [sentTo, Ne.symm own]
      simp [nothing]
  · have done := (pushed .user).1
    unfold pending
    split
    · rename_i pc _
      exact absurd pc done
    · rfl

/-! ## Every step keeps the nesting -/

theorem nested_start {old : A → Kind → List (Option M)} {boxes : A → DefaultMailbox M} {memory : σ} {send : Send A M}
    (quiet : ∀ b, Quiet (boxes b)) (past : ∀ b k, ((boxes b).lane k).pushed = old b k) :
    Nested hs old (start boxes memory send : Config A M σ K) := by
  have nobody : ∀ b : A, b ∉ ([] : List A) := fun _ => List.not_mem_nil
  have settled : ∀ b, Settled (b ∈ ([] : List A)) (boxes b) := fun b => settled_of_quiet (quiet b) (nobody b)
  have unplaced : [send] = [] ++ pending send.target ⟨send.kind, some send.message, .push⟩ := rfl
  refine .posting .nil ((settled _).posting _ _) (fun b _ => settled b) unplaced ?_
  intro b k
  simp [past, sentTo]

theorem nested_move {old : A → Kind → List (Option M)} {beh : Behaviour A M σ K} {c c' : Config A M σ K}
    (proper : ∀ a, (hs a).Proper) (nested : Nested hs old c) (move : Move hs beh c c') : Nested hs old c' := by
  cases nested with
  | parked under settled written =>
    cases under with
    | nil => cases move
    | cons under fresh inside counting posted real =>
      rename_i boxes memory sent a rest w k m call below waiting
      cases move with
      | handled done =>
        -- the invocation returns to the call that waits for it
        have own := settled a
        have others : Others a waiting boxes := others_cons.1 fun b _ => settled b
        refine .working under fresh posted real ⟨own.active, ?_, ?_, counting, ?_⟩ others written
        · simpa [Worker.owes, Worker.carried, inside] using own.lanes
        · simpa [Worker.holds, inside] using own.running
        · simp [Worker.Place, inside]
      | send next =>
        rename_i memory' rest' send
        refine .posting (.cons under fresh inside counting posted real) ((settled _).posting _ _)
          (fun b _ => settled b) ?_ written
        simp [pending]
  | posting under own others split written =>
    rename_i boxes memory a call below sent placed waiting
    cases move with
    | post act =>
      obtain ⟨writes, nothing⟩ := written.post own.real act
      refine .posting under ?_ others.update ?_ writes
      · rw [Function.update_self]
        exact own.step act
      · rw [nothing, split, List.append_nil]
    | dispatch pc =>
      obtain ⟨next, counting⟩ := Worker.processMessages_pc (M := M) (proper a)
      have alone := own.alone pc
      have nothing : pending a call = [] := by simp [pending, pc]
      refine .working under alone rfl own.real ⟨own.active, ?_, ?_, counting, place_of_pop_system next⟩ others ?_
      · simpa [Worker.owes, Worker.carried, next, PostCall.owes, pc] using own.lanes
      · simp [own.running, pc]
      · rw [split, nothing, List.append_nil]
        exact written
    | posted pc =>
      have nothing : pending a call = [] := by simp [pending, pc]
      refine .parked under ?_ ?_
      · intro b
        by_cases same : b = a
        · subst same
          exact own.settled pc
        · exact others b same
      · rw [split, nothing, List.append_nil]
        exact written
  | working under fresh posted real own others written =>
    rename_i boxes memory a w call below sent waiting
    cases move with
    | work quiet act =>
      refine .working under fresh posted real ?_ others.update (written.update (Worker.step_pushed act))
      rw [Function.update_self]
      exact own.step (proper a) act
    | invoke pc act =>
      rename_i w' b k m
      have after := own.step (proper a) act
      have inside : w'.pc = .invoking k m := by
        simp only [Worker.step, pc] at act
        cases act
        rfl
      refine .parked (.cons under fresh inside after.counting posted real) ?_ (written.update (Worker.step_pushed act))
      intro b'
      by_cases same : b' = a
      · subst same
        rw [Function.update_self]
        refine ⟨after.active, ?_, ?_, fun nobody => absurd List.mem_cons_self nobody⟩
        · simpa [Worker.owes, Worker.carried, inside] using after.lanes
        · simp [after.running, Worker.holds, inside]
      · exact others_cons.2 others.update b' same
    | processed pc =>
      have empty : ∀ k, ((boxes a).lane k).queue = [] := by simpa [Worker.Place, pc] using own.place
      have nothing : pending a call = [] := by simp [pending, posted]
      refine .posting under ⟨own.active, real, ?_, ?_, ?_, fun _ _ => empty⟩ others ?_ written
      · simpa [Worker.owes, Worker.carried, PostCall.owes, pc, posted] using own.lanes
      · simp [own.running, Worker.holds, pc, fresh, posted]
      · simp [posted]
      · simp [nothing]

/-- While an invocation of an actor is on the stack, no other one is. -/
theorem Nested.handles {old : A → Kind → List (Option M)} {c : Config A M σ K} (nested : Nested hs old c) (b : A) :
    c.stack.countP (Frame.handles b) ≤ 1 := by
  have atMost : ∀ {stack : List (Frame A M K)} {waiting : List A}, Parked hs stack waiting →
      stack.countP (Frame.handles b) ≤ 1 := by
    intro stack waiting under
    rw [under.handles]
    exact List.nodup_iff_count_le_one.1 under.nodup b
  cases nested with
  | parked under settled written => exact atMost under
  | posting under own others split written => simpa [Frame.handles] using atMost under
  | working under fresh posted real own others written => simpa [Frame.handles] using atMost under

/-- A pass on the top of the stack is at a place where it can be. -/
theorem Nested.place {old : A → Kind → List (Option M)} {c : Config A M σ K} (nested : Nested hs old c) {a : A} {w : Worker M}
    {below : List (Frame A M K)} (top : c.stack = .process a w :: below) : w.Place (c.boxes a) := by
  cases nested with
  | parked under settled written =>
    cases under with
    | nil => cases top
    | cons under fresh inside counting posted real => cases top
  | posting under own others split written => cases top
  | working under fresh posted real own others written =>
    cases top
    exact own.place

/-- The machine only stops when the external post has returned. -/
theorem Nested.stops {old : A → Kind → List (Option M)} {beh : Behaviour A M σ K} {c : Config A M σ K}
    (nested : Nested hs old c) (last : step hs beh c = none) : c.stack = [] := by
  rcases stuck last with empty | ⟨a, w, below, top, threw⟩
  · exact empty
  · have absurdly := nested.place top
    simp [Worker.Place, threw] at absurdly

end Synchronized

end Protoactor.Actor
