import Protoactor.Actor.Mailbox.Delivery

/-!
# Bounded overtaking

A worker pops a user message only after its system `Pop` answered null. So once a system
message is queued, the user messages that still get ahead of it are those of workers that had
polled before it was pushed, and the processing right leaves room for one such worker.
-/

namespace Protoactor.Actor
set_option autoImplicit false
open Lib

section Committed

variable {M : Type} {h : Handlers} {b b' : DefaultMailbox M}

/-- Past the system `Pop`, and not yet at a handler: the worker may still invoke a user message. -/
def Worker.committed (w : Worker M) : Bool := w.polled && !w.invoking

theorem Worker.holds_of_committed {w : Worker M} (past : w.committed = true) : w.holds = true := by
  rw [Worker.committed, Bool.and_eq_true] at past
  exact Worker.holds_of_polled past.1

@[simp] theorem Worker.committed_iterate (w : Worker M) : (w.iterate h).committed = false := by
  simp [Worker.committed]

@[simp] theorem Worker.committed_nextRound (w : Worker M) : (Worker.nextRound h w).committed = false := by
  simp [Worker.committed]

/-- The user messages that have been invoked, and the one that a worker may still invoke unasked. -/
def Worker.due (b : DefaultMailbox M) (w : Worker M) : Nat := b.user.invoked.length + if w.committed then 1 else 0

/-- While a system message is queued, a worker invokes a user message only by using up its commitment. -/
theorem Worker.step_due {w w' : Worker M} {lag : Int} {carried : List M} (act : w.step h b = some (b', w'))
    (acc : b.system.Accounted lag carried) (waits : b.system.queue ≠ []) : w'.due b' ≤ w.due b := by
  unfold Worker.due
  cases Worker.act act with
  | @take k m seen pc answer looked =>
    cases k with
    | system => simp [Worker.committed, Worker.polled, DefaultMailbox.setLane]
    | user =>
      simp only [Worker.committed, Worker.polled, Worker.invoking, pc, DefaultMailbox.setLane]
      exact Nat.le_refl _
  | @miss k seen pc answer looked =>
    cases k with
    | system => exact absurd (acc.pop_none answer).1 waits
    | user =>
      have gone : ({ w with seen := seen }.popped .user none : Worker M).committed = false := rfl
      rw [gone]
      exact Nat.le_add_right _ _
  | @fetchSub k m pc =>
    cases k with
    | system => simp [Worker.committed, Worker.polled, DefaultMailbox.setLane]
    | user =>
      simp only [Worker.committed, Worker.polled, Worker.invoking, pc, DefaultMailbox.setLane]
      exact Nat.le_refl _
  | @invoke k m pc =>
    cases k with
    | system => simp [Worker.committed, Worker.polled, DefaultMailbox.setLane]
    | user =>
      -- the invocation is what the commitment was for
      simp [Worker.committed, Worker.polled, Worker.invoking, pc, DefaultMailbox.setLane, DefaultMailbox.lane, Lane.invoke]
  | active pc no => simp [Worker.committed, Worker.polled, Worker.invoking, pc]
  | handled pc | reacquire pc idle => simp
  | suspended pc yes | storeIdle pc | loadSys pc | loadUser pc | again pc more | drained pc none
  | overtaken pc running => simp [Worker.committed, Worker.polled]

theorem Queue.length_pop (q : Queue M) : q.pop.2.length ≤ q.length := by
  cases q with
  | nil => exact Nat.le_refl _
  | cons item rest => exact Nat.le_succ _

/-- Messages leave a queue at `Pop` only. -/
theorem Worker.step_queue {w w' : Worker M} (act : w.step h b = some (b', w')) (k : Kind) :
    (b'.lane k).queue.length ≤ (b.lane k).queue.length := by
  have written : ∀ {j : Kind} {l : Lane M}, l.queue.length ≤ (b.lane j).queue.length →
      ((b.setLane j l).lane k).queue.length ≤ (b.lane k).queue.length := by
    intro j l kept
    rcases b.lane_setLane_cases j k l with ⟨rfl, own⟩ | ⟨-, other⟩
    · rw [own]
      exact kept
    · rw [other]
  cases Worker.act act with
  | take pc answer looked | miss pc answer looked =>
    apply written
    exact Queue.length_pop _
  | fetchSub pc | invoke pc => exact written (Nat.le_refl _)
  | storeIdle pc | reacquire pc idle => simp
  | handled pc | suspended pc yes | active pc no | loadSys pc | loadUser pc | again pc more | drained pc none
  | overtaken pc running => exact Nat.le_refl _

/-- A post lengthens a queue by what it pushes. -/
theorem PostCall.step_queue {c c' : PostCall M} (act : c.step b = some (b', c')) (k : Kind) :
    (b'.lane k).queue.length + (b.lane k).pushed.length = (b.lane k).queue.length + (b'.lane k).pushed.length := by
  cases PostCall.act act with
  | push pc =>
    rcases b.lane_setLane_cases c.kind k ((b.lane c.kind).push c.message) with ⟨rfl, own⟩ | ⟨-, other⟩
    · rw [own]
      simp only [Lane.push, Queue.push, List.length_append, List.length_singleton]
      omega
    · rw [other]
  | fetchAdd pc =>
    rcases b.lane_setLane_cases c.kind k (b.lane c.kind).fetchAdd with ⟨rfl, own⟩ | ⟨-, other⟩
    · rw [own, Lane.fetchAdd]
    · rw [other]
  | win pc idle => simp
  | lose pc running => rfl

end Committed

namespace Interleaving

variable {M : Type} {h : Handlers}

/-- The workers that may still invoke a user message without another look at the system queue. -/
def committed (s : State M) : Nat := s.calls.countP Worker.committed

/-- `Pop` has answered the first `n` messages of kind `k`, and not the next one. -/
def Waits (k : Kind) (n : Nat) (s : State M) : Prop :=
  (s.box.lane k).pushed.length ≤ n + (s.box.lane k).queue.length ∧ n < (s.box.lane k).pushed.length

theorem Waits.queue {k : Kind} {n : Nat} {s : State M} (waits : Waits k n s) : (s.box.lane k).queue ≠ [] := by
  obtain ⟨ahead, pushed⟩ := waits
  intro empty
  rw [empty, List.length_nil] at ahead
  omega

/-- What was pushed stays pushed, and what was popped stays popped. -/
theorem step_lane {s s' : State M} {l : Label M} (move : step h s l = some s') (k : Kind) :
    (s.box.lane k).pushed.length ≤ (s'.box.lane k).pushed.length ∧
      (s'.box.lane k).queue.length + (s.box.lane k).pushed.length ≤
        (s.box.lane k).queue.length + (s'.box.lane k).pushed.length := by
  cases step_cases move with
  | post | dispatch | start | lose | raise => exact ⟨Nat.le_refl _, Nat.le_refl _⟩
  | poster here act =>
    have grown := congrArg List.length (PostCall.step_pushed act k).2
    rw [List.length_append] at grown
    exact ⟨Nat.le.intro grown.symm, Nat.le_of_eq (PostCall.step_queue act k)⟩
  | worker _ here act =>
    rw [Worker.step_pushed act k]
    exact ⟨Nat.le_refl _, Nat.add_le_add_right (Worker.step_queue act k) _⟩

theorem run_lane {ok : State M → Label M → Prop} {s t : State M} {ls : List (Label M)} (run : Machine.Run (step h) ok s ls t)
    (k : Kind) : (s.box.lane k).pushed.length ≤ (t.box.lane k).pushed.length ∧
      (t.box.lane k).queue.length + (s.box.lane k).pushed.length ≤
        (s.box.lane k).queue.length + (t.box.lane k).pushed.length := by
  induction run with
  | nil s => exact ⟨Nat.le_refl _, Nat.le_refl _⟩
  | cons moved _ _ ih =>
    obtain ⟨pushed, popped⟩ := step_lane moved k
    obtain ⟨pushed', popped'⟩ := ih
    exact ⟨by omega, by omega⟩

/-- A message that waits before a run and after it has waited at every step between. -/
theorem waits_between {ok : State M → Label M → Prop} {s u t : State M} {ls ls' : List (Label M)} {k : Kind} {n : Nat}
    (before : Machine.Run (step h) ok s ls u) (after : Machine.Run (step h) ok u ls' t) (first : Waits k n s)
    (last : Waits k n t) : Waits k n u := by
  obtain ⟨pushed, -⟩ := run_lane before k
  obtain ⟨-, popped⟩ := run_lane after k
  obtain ⟨-, known⟩ := first
  obtain ⟨ahead, -⟩ := last
  exact ⟨by omega, by omega⟩

/-- The user messages invoked, and those that may yet be without another look at the system queue. -/
def due (s : State M) : Nat := s.box.user.invoked.length + committed s

/-- **While a system message waits** no worker commits itself to a user message. -/
theorem due_step {s s' : State M} {l : Label M} (inv : Delivery s) (waits : s.box.system.queue ≠ [])
    (move : step h s l = some s') : due s' ≤ due s := by
  unfold due committed
  cases step_cases move with
  | post | dispatch | lose => exact Nat.le_refl _
  | poster here act =>
    have same := (PostCall.step_invoked act .user).2
    simp only [DefaultMailbox.lane] at same
    rw [same]
  | start pending => simp [List.countP_append, Worker.processMessages]
  | worker _ here act =>
    rename_i n pre post w w' b
    have paid := Worker.step_due act (inv.lanes .system) waits
    simp only [here, List.countP_append, List.countP_cons, Worker.due] at paid ⊢
    omega
  | raise here inside =>
    rename_i n pre post w
    have gone : ({ w with pc := .threw } : Worker M).committed = false := rfl
    simp only [here, List.countP_append, List.countP_cons, gone, Bool.false_eq_true, if_false]
    omega

theorem committed_le_one {s : State M} (excl : Exclusive s) : committed s ≤ 1 := by
  have less : committed s ≤ s.calls.countP Worker.holds :=
    List.countP_mono_left fun _ _ => Worker.holds_of_committed
  have one := excl.one
  simp only [holders] at one
  omega

/-- **A system message is overtaken at most once**, where no null pointer is posted (a `Pop` that answers one looks like an
empty queue). From any state in which it is queued to any later one in which it still is, the workers invoke at most as many
user messages as there were workers past their system `Pop`, and that is at most one. -/
theorem overtaken_once {n : Nat} {before later : List (Label M)} {s t : State M} (run : Machine.Run (step h) real init before s)
    (rest : Machine.Run (step h) real s later t) (first : Waits .system n s) (last : Waits .system n t) :
    t.box.user.invoked.length ≤ s.box.user.invoked.length + committed s ∧ committed s ≤ 1 := by
  obtain ⟨excl, inv⟩ := delivery_run run
  refine ⟨?_, committed_le_one excl⟩
  suffices paid : due t ≤ due s from Nat.le_trans (Nat.le_add_right _ _) paid
  clear run
  induction rest with
  | nil => exact Nat.le_refl _
  | cons moved allowed rest ih =>
    have waits := waits_between (.cons moved allowed (.nil _)) rest first last
    obtain ⟨excl', inv'⟩ := delivery_keeps _ _ _ ⟨excl, inv⟩ allowed moved
    exact Nat.le_trans (ih waits last excl' inv') (due_step inv first.queue moved)

/-- A worker has polled the system queue, and a system message is pushed behind its back. -/
def polledEarly : State Nat where
  box := ⟨⟨[some 1], 1, [some 1], []⟩, ⟨[some 2], 0, [some 2], []⟩, .running, 0⟩
  posts := [⟨.user, some 1, .returned⟩, ⟨.system, some 2, .fetchAdd⟩]
  scheduled := 0
  calls := [⟨.checkSuspended, 0, 1, false, []⟩]

/-- The worker has gone on to the user message. -/
def overtook : State Nat where
  box := ⟨⟨[], 0, [some 1], [1]⟩, ⟨[some 2], 0, [some 2], []⟩, .running, 0⟩
  posts := [⟨.user, some 1, .returned⟩, ⟨.system, some 2, .fetchAdd⟩]
  scheduled := 0
  calls := [⟨.invoking .user 1, 0, 1, true, []⟩]

theorem overtaken_once_early : overtook.box.user.invoked.length ≤ polledEarly.box.user.invoked.length + committed polledEarly ∧
    committed polledEarly ≤ 1 := by
  have run : Machine.Run (step ⟨300⟩) real init [.post .user (some 1), .poster 0, .poster 0, .poster 0, .poster 0, .start,
      .worker 0, .post .system (some 2), .poster 1] polledEarly := Machine.run_of_exec (by decide) (by decide)
  have rest : Machine.Run (step ⟨300⟩) real polledEarly (List.replicate 4 (.worker 0)) overtook :=
    Machine.run_of_exec (by decide) (by decide)
  have first : Waits .system 0 polledEarly := ⟨by decide, by decide⟩
  have last : Waits .system 0 overtook := ⟨by decide, by decide⟩
  exact overtaken_once run rest first last

end Interleaving

end Protoactor.Actor
