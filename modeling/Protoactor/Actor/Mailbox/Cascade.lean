import Mathlib.Algebra.GroupWithZero.Nat
import Protoactor.Actor.Mailbox.Nesting

/-!
# Synchronous dispatch runs to completion

A cascade that sends finitely many messages ends. `rank` bounds what is left to do: the
sends that are still to come, the messages that are queued and the frames on the stack, each
weighed by the steps it can still cause. With `Nested` the machine then stops with an
empty stack, and with nobody waiting every mailbox is at rest.
-/

namespace Protoactor.Actor
set_option autoImplicit false
open Lib

section Rank

variable {M : Type} {h : Handlers} {b b' : DefaultMailbox M}

/-- The messages in the queues of a mailbox. -/
def DefaultMailbox.size (b : DefaultMailbox M) : Nat := b.user.queue.length + b.system.queue.length

/-- `Pop` takes out the message it returns. -/
theorem DefaultMailbox.size_pop (b : DefaultMailbox M) (k : Kind) :
    (b.setLane k (b.lane k).pop.2).size + (if (b.lane k).pop.1.isSome then 1 else 0) ≤ b.size := by
  have length : (b.lane k).pop.2.queue.length + (if (b.lane k).pop.1.isSome then 1 else 0) ≤ (b.lane k).queue.length := by
    unfold Lane.pop Queue.pop
    split
    · rename_i empty
      simp [empty]
    · rename_i item rest full
      cases item <;> simp [full]
  cases k <;> simp only [DefaultMailbox.size, DefaultMailbox.setLane, DefaultMailbox.lane] at length ⊢ <;> omega

/-- The steps left to a post, those of the call it may start included. -/
def PostPc.rank : PostPc → Nat
  | .push => 24
  | .fetchAdd => 13
  | .schedule => 12
  | .dispatch => 11
  | .returned => 1

/-- The steps left to a `ProcessMessages` call that finds nothing more to process. -/
def WorkerPc.rank : WorkerPc M → Nat
  | .fetchSub _ _ => 13
  | .invoke _ _ => 12
  | .invoking _ _ => 10
  | .pop .system => 9
  | .checkSuspended => 8
  | .pop .user => 7
  | .storeIdle => 6
  | .loadSys => 5
  | .loadUser _ => 4
  | .loadSuspended _ _ => 3
  | .reacquire => 2
  | .returned | .threw => 1

/-- A step of a post lowers its rank, a push by more than the queued message weighs. -/
theorem PostCall.step_rank {c c' : PostCall M} (act : c.step b = some (b', c')) :
    10 * b'.size + c'.pc.rank < 10 * b.size + c.pc.rank := by
  cases PostCall.act act with
  | push pc =>
    rw [pc]
    cases kind : c.kind <;>
      simp [DefaultMailbox.size, DefaultMailbox.setLane, DefaultMailbox.lane, Lane.push, PostPc.rank] <;> omega
  | fetchAdd pc =>
    rw [pc]
    cases kind : c.kind <;>
      simp [DefaultMailbox.size, DefaultMailbox.setLane, DefaultMailbox.lane, Lane.fetchAdd, PostPc.rank]
  | win pc idle | lose pc running =>
    rw [pc]
    simp [DefaultMailbox.size, PostPc.rank]

theorem Worker.rank_iterate (w : Worker M) : (w.iterate h).pc.rank ≤ 9 := by
  unfold Worker.iterate
  split
  · exact Nat.le_refl 9
  · show 6 ≤ 9
    omega

theorem Worker.rank_processMessages : (Worker.processMessages h : Worker M).pc.rank ≤ 9 := by
  simp only [Worker.processMessages, Worker.nextRound, maxRounds, Nat.zero_lt_succ, if_true]
  exact Worker.rank_iterate _

/-- So does a step of a call that does not re-acquire; the invocation it may
begin weighs 1. -/
theorem Worker.step_rank {w w' : Worker M} (act : w.step h b = some (b', w')) (tail : w.pc ≠ .reacquire) :
    10 * b'.size + w'.pc.rank < 10 * b.size + w.pc.rank ∧
    ((∃ k m, w.pc = .invoke k m) → 10 * b'.size + w'.pc.rank + 1 < 10 * b.size + w.pc.rank) := by
  cases Worker.act act with
  | @take k m seen pc answer looked =>
    have smaller := b.size_pop k
    have next : (WorkerPc.fetchSub k m).rank = 13 := rfl
    have here : (WorkerPc.pop k : WorkerPc M).rank = 9 ∨ (WorkerPc.pop k : WorkerPc M).rank = 7 := by
      cases k <;> simp [WorkerPc.rank]
    rw [pc]
    simp only [answer, Option.isSome_some, if_true] at smaller
    refine ⟨?_, by simp⟩
    show 10 * (b.setLane k (b.lane k).pop.2).size + (WorkerPc.fetchSub k m).rank < _
    omega
  | @miss k seen pc answer looked =>
    have smaller := b.size_pop k
    rw [pc]
    simp only [answer, Option.isSome_none, Bool.false_eq_true, if_false] at smaller
    refine ⟨?_, by simp⟩
    cases k <;> simp only [Worker.popped, WorkerPc.rank] <;> omega
  | @fetchSub k m pc | @invoke k m pc =>
    rw [pc]
    cases k <;>
      simp [DefaultMailbox.size, DefaultMailbox.setLane, DefaultMailbox.lane, Lane.fetchSub, Lane.invoke, WorkerPc.rank]
  | @handled k m pc =>
    have low := Worker.rank_iterate (h := h) w
    have here : (WorkerPc.invoking k m).rank = 10 := rfl
    rw [pc]
    exact ⟨by omega, by simp⟩
  | suspended pc yes | active pc no | storeIdle pc | loadSys pc | loadUser pc | again pc more | drained pc none =>
    rw [pc]
    refine ⟨?_, by simp⟩
    simp [DefaultMailbox.size, WorkerPc.rank]
  | reacquire pc idle | overtaken pc running => exact absurd pc tail

end Rank

namespace Synchronized

variable {A M σ K : Type} {hs : A → Handlers}

def Frame.rank : Frame A M K → Nat
  | .post _ call => call.pc.rank
  | .process _ w => w.pc.rank
  | .handler _ _ => 1

variable [DecidableEq A]

/-- Both counters are 0 in the tail. -/
theorem Nested.no_reacquire {old : A → Kind → List (Option M)} {c : Config A M σ K} (nested : Nested hs old c) {a : A}
    {w : Worker M} {below : List (Frame A M K)} (top : c.stack = .process a w :: below) : w.pc ≠ .reacquire := by
  intro pc
  have absurdly := nested.place top
  simp [Worker.Place, pc] at absurdly

/-- Once the external post has returned, nobody waits. -/
theorem Nested.finished {old : A → Kind → List (Option M)} {c : Config A M σ K} (nested : Nested hs old c)
    (done : c.stack = []) : (∀ b, Quiet (c.boxes b)) ∧ Written old c.sent c.boxes := by
  cases nested with
  | parked under settled written =>
    cases under with
    | nil => exact ⟨fun b => (settled b).quiet List.not_mem_nil, written⟩
    | cons under fresh inside counting posted real => cases done
  | posting under own others split written => cases done
  | working under fresh posted real own others written => cases done

variable [Fintype A]

/-- The messages in the queues of all mailboxes. -/
def queued (boxes : A → DefaultMailbox M) : Nat := ∑ a, (boxes a).size

theorem queued_update (boxes : A → DefaultMailbox M) (a : A) (b : DefaultMailbox M) :
    queued (Function.update boxes a b) + (boxes a).size = queued boxes + b.size := by
  have rest : ∑ x ∈ Finset.univ.erase a, (Function.update boxes a b x).size = ∑ x ∈ Finset.univ.erase a, (boxes x).size := by
    apply Finset.sum_congr rfl
    intro x member
    rw [Function.update_of_ne (Finset.ne_of_mem_erase member)]
  unfold queued
  rw [← Finset.add_sum_erase Finset.univ _ (Finset.mem_univ a), rest,
    ← Finset.add_sum_erase Finset.univ (fun x => (boxes x).size) (Finset.mem_univ a), Function.update_self]
  omega

/-- What is left to do when at most `bound` messages are sent in all. -/
def rank (bound : Nat) (c : Config A M σ K) : Nat :=
  25 * (bound - c.sent.length) + 10 * queued c.boxes + (c.stack.map Frame.rank).sum

/-- Every step lowers the rank. -/
theorem move_rank {old : A → Kind → List (Option M)} {beh : Behaviour A M σ K} {c c' : Config A M σ K} {bound : Nat}
    (nested : Nested hs old c) (move : Move hs beh c c') (bounded : c'.sent.length ≤ bound) :
    rank bound c' < rank bound c := by
  cases move with
  | post act =>
    rename_i boxes memory a call call' b below sent
    have lower := PostCall.step_rank act
    have boxed := queued_update boxes a b
    simp only [rank, List.map_cons, List.sum_cons, Frame.rank]
    omega
  | dispatch pc =>
    rename_i boxes memory a call below sent
    have entry := Worker.rank_processMessages (h := hs a) (M := M)
    simp only [rank, List.map_cons, List.sum_cons, Frame.rank, pc, PostPc.rank]
    omega
  | posted pc =>
    simp only [rank, List.map_cons, List.sum_cons, Frame.rank, pc, PostPc.rank]
    omega
  | work quiet act =>
    rename_i boxes memory a w w' b below sent
    obtain ⟨lower, -⟩ := Worker.step_rank act (nested.no_reacquire rfl)
    have boxed := queued_update boxes a b
    simp only [rank, List.map_cons, List.sum_cons, Frame.rank]
    omega
  | invoke pc act =>
    rename_i boxes memory a w w' b below sent k m
    obtain ⟨-, lower⟩ := Worker.step_rank act (nested.no_reacquire rfl)
    have lower := lower ⟨k, m, pc⟩
    have boxed := queued_update boxes a b
    simp only [rank, List.map_cons, List.sum_cons, Frame.rank]
    omega
  | processed pc =>
    simp only [rank, List.map_cons, List.sum_cons, Frame.rank, pc, WorkerPc.rank]
    omega
  | handled done =>
    simp only [rank, List.map_cons, List.sum_cons, Frame.rank]
    omega
  | send next =>
    rename_i boxes memory memory' a rest rest' send below sent
    rw [List.length_append, List.length_singleton] at bounded
    simp only [rank, List.map_cons, List.sum_cons, Frame.rank, Send.frame, PostPc.rank, List.length_append,
      List.length_singleton]
    omega

/-- **Synchronous dispatch runs to completion.** From mailboxes at rest, an external post
whose cascade sends finitely many messages returns; then every mailbox is at rest
again and every message sent has been invoked exactly once, in the order of the sends to
its queue. At no time are two invocations of one actor on the stack. -/
theorem runs_to_completion {beh : Behaviour A M σ K} {boxes : A → DefaultMailbox M} {memory : σ} {send : Send A M}
    {bound : Nat} (proper : ∀ a, (hs a).Proper) (quiet : ∀ b, Quiet (boxes b))
    (finite : ∀ n c, Steps (step hs beh) n (start boxes memory send) c → c.sent.length ≤ bound) :
    (∃ n c, Steps (step hs beh) n (start boxes memory send) c ∧ c.stack = [] ∧
      ∀ b, Quiet (c.boxes b) ∧
        ∀ k, ((c.boxes b).lane k).invoked = ((boxes b).lane k).invoked ++ sentTo b k c.sent) ∧
    ∀ n c, Steps (step hs beh) n (start boxes memory send) c → ∀ b, c.stack.countP (Frame.handles b) ≤ 1 := by
  let old : A → Kind → List (Option M) := fun b k => ((boxes b).lane k).pushed
  have nested : ∀ n c, Steps (step hs beh) n (start boxes memory send) c → Nested hs old c := by
    intro n c run
    apply run.keeps (fun s s' nested move => nested_move proper nested (move_of_step move))
    exact nested_start quiet fun _ _ => rfl
  refine ⟨?_, fun n c run => (nested n c run).handles⟩
  obtain ⟨n, c, run, last⟩ := halts_of_measure (rank bound) fun n t u run move =>
    move_rank (nested n t run) (move_of_step move) (finite (n + 1) u (run.snoc move))
  have done := (nested n c run).stops last
  obtain ⟨rests, written⟩ := (nested n c run).finished done
  refine ⟨n, c, run, done, fun b => ⟨rests b, fun k => ?_⟩⟩
  have before := ((quiet b).lanes k).history
  have after := ((rests b).lanes k).history
  have all : ((c.boxes b).lane k).pushed = ((boxes b).lane k).pushed ++ (sentTo b k c.sent).map some := written b k
  rw [before, after, ← List.map_append] at all
  exact List.map_injective_iff.2 (Option.some_injective M) all

/-! ### Two actors in a cycle -/

/-- On a positive number, the other actor gets the predecessor and the actor itself a system message. -/
def pingPong : Behaviour Bool Nat Unit (List (Send Bool Nat)) where
  receive a _ m := if m = 0 then [] else [⟨!a, .user, m - 1⟩, ⟨a, .system, 0⟩]
  resume _ rest memory :=
    match rest with
    | [] => (memory, none)
    | send :: rest => (memory, some (send, rest))

def pingPongHandlers : Bool → Handlers
  | true => ⟨1⟩
  | false => ⟨300⟩

/-- The run of the cascade that the message 2 sets off sends five messages. -/
theorem pingPong_sends {n : Nat} {c : Config Bool Nat Unit (List (Send Bool Nat))}
    (run : Steps (step pingPongHandlers pingPong) n (start (fun _ => DefaultMailbox.new) () ⟨true, .user, 2⟩) c) :
    c.sent.length ≤ 5 := by
  have passed : checkRun (step pingPongHandlers pingPong) (fun c => c.sent.length ≤ 5) 200
      (start (fun _ => DefaultMailbox.new) () ⟨true, .user, 2⟩) = true := by decide
  simpa using run.of_checkRun passed

theorem runs_to_completion_pingPong :
    (∃ n c, Steps (step pingPongHandlers pingPong) n (start (fun _ => DefaultMailbox.new) () ⟨true, .user, 2⟩) c ∧
      c.stack = [] ∧ ∀ b, Quiet (c.boxes b) ∧ ∀ k, ((c.boxes b).lane k).invoked =
        ((DefaultMailbox.new : DefaultMailbox Nat).lane k).invoked ++ sentTo b k c.sent) ∧
    ∀ n c, Steps (step pingPongHandlers pingPong) n (start (fun _ => DefaultMailbox.new) () ⟨true, .user, 2⟩) c →
      ∀ b, c.stack.countP (Frame.handles b) ≤ 1 := by
  have proper : ∀ a, (pingPongHandlers a).Proper := by
    intro a
    cases a <;> exact ⟨by decide, by decide⟩
  have quiet : Quiet (DefaultMailbox.new : DefaultMailbox Nat) := by
    refine ⟨rfl, rfl, fun k => ?_⟩
    cases k <;> exact ⟨rfl, rfl, rfl⟩
  exact runs_to_completion proper (fun _ => quiet) fun _ _ => pingPong_sends

end Synchronized

end Protoactor.Actor
