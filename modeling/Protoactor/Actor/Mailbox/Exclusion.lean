import Protoactor.Actor.Mailbox.Interleaving
import Protoactor.Actor.Mailbox.Steps

/-!
# Mutual exclusion of workers

The processing right is taken by two compare-exchange sites (`Schedule`, and the
re-acquire in `ProcessMessages`) and given up by a plain store, while the old worker still
runs its tail. `Exclusive` relates the flag to the parties holding the right: at most one
party holds it, and none while the flag is `IDLE`. The converse does not hold in every
run: after an exception, a lost task or the last allowed round the flag stays `RUNNING`
with nobody holding the right.
-/

namespace Protoactor.Actor
set_option autoImplicit false
open Lib

section Right

variable {M : Type} {h : Handlers} {b b' : DefaultMailbox M}

@[simp] theorem Worker.holds_iterate (w : Worker M) : (w.iterate h).holds = true := by
  unfold Worker.iterate
  split <;> rfl

@[simp] theorem Worker.holds_processMessages : (Worker.processMessages h : Worker M).holds = true := by
  simp [Worker.processMessages, Worker.nextRound, maxRounds, Worker.processLoop]

@[simp] theorem Worker.holds_popped (w : Worker M) (k : Kind) (m : Option M) : (w.popped k m).holds = true := by
  cases m <;> cases k <;> rfl

/-- A call inside an invocation holds the right. -/
theorem Worker.holds_of_invoking {w : Worker M} (inside : w.invoking = true) : w.holds = true := by
  unfold Worker.invoking at inside
  split at inside
  · rename_i pc
    simp [Worker.holds, pc]
  · cases inside

/-- What a step of `ProcessMessages` does to the right: nothing, giving it up by
the store of `IDLE`, or the compare-exchange back to `RUNNING`. -/
theorem Worker.step_right {w w' : Worker M} (act : w.step h b = some (b', w')) :
    (w'.holds = w.holds ∧ b'.schedulerStatus = b.schedulerStatus) ∨
    (w.holds = true ∧ w'.holds = false ∧ w'.pc = .loadSys ∧ b'.schedulerStatus = .idle) ∨
    (w.holds = false ∧ w.pc = .reacquire ∧ b.schedulerStatus = .idle ∧ b'.schedulerStatus = .running ∧
      w' = Worker.nextRound h { w with round := w.round + 1 }) := by
  cases Worker.act act with
  | reacquire pc idle => exact .inr (.inr ⟨by simp [Worker.holds, pc], pc, idle, rfl, rfl⟩)
  | storeIdle pc => exact .inr (.inl ⟨by simp [Worker.holds, pc], rfl, rfl, rfl⟩)
  | take pc answer looked =>
    refine .inl ⟨?_, ?_⟩ <;> simp [Worker.holds, pc]
  | miss pc answer looked =>
    have held : w.holds = true := by simp [Worker.holds, pc]
    exact .inl ⟨by rw [held, Worker.holds_popped], by simp⟩
  | handled pc =>
    have held : w.holds = true := by simp [Worker.holds, pc]
    exact .inl ⟨by rw [held, Worker.holds_iterate], rfl⟩
  | fetchSub pc | invoke pc | suspended pc yes | active pc no | loadSys pc | loadUser pc | again pc more
  | drained pc none | overtaken pc running =>
    refine .inl ⟨?_, ?_⟩ <;> simp [Worker.holds, pc]

/-- What a step of a post does to the right: nothing, or winning it. -/
theorem PostCall.step_right {c c' : PostCall M} (act : c.step b = some (b', c')) :
    c.pc ≠ .dispatch ∧ ((c'.pc ≠ .dispatch ∧ b'.schedulerStatus = b.schedulerStatus) ∨
      (c'.pc = .dispatch ∧ b.schedulerStatus = .idle ∧ b'.schedulerStatus = .running)) := by
  cases PostCall.act act with
  | push pc | fetchAdd pc => exact ⟨by simp [pc], .inl ⟨nofun, by simp⟩⟩
  | win pc idle => exact ⟨by simp [pc], .inr ⟨rfl, idle, rfl⟩⟩
  | lose pc running => exact ⟨by simp [pc], .inl ⟨nofun, rfl⟩⟩

end Right

namespace Interleaving

variable {M : Type} {h : Handlers}

structure Exclusive (s : State M) : Prop where
  one : holders s ≤ 1
  idle : s.box.schedulerStatus = .idle → holders s = 0

theorem exclusive_init : Exclusive (init : State M) := ⟨Nat.zero_le 1, fun _ => rfl⟩

/-- Where nobody holds the right, no call does. -/
theorem free_of_no_holder {s : State M} {w : Worker M} (nobody : holders s = 0) (member : w ∈ s.calls) : w.holds = false := by
  have none : s.calls.countP Worker.holds = 0 := by
    simp only [holders] at nobody
    omega
  exact Bool.eq_false_iff.2 (List.countP_eq_zero.1 none w member)

theorem Exclusive.of_same {s s' : State M} (inv : Exclusive s) (same : holders s' = holders s)
    (status : s'.box.schedulerStatus = s.box.schedulerStatus) : Exclusive s' :=
  ⟨same ▸ inv.one, fun isIdle => same ▸ inv.idle (status ▸ isIdle)⟩

/-- Every step of every call keeps the exclusion, with no assumption on the
dispatcher, the messages or the handlers. -/
theorem exclusive_keeps (ok : State M → Label M → Prop) : Machine.Keeps (step h) ok Exclusive := by
  intro s l s' inv allowed move
  have one := inv.one
  have idle := inv.idle
  simp only [holders] at one idle
  cases step_cases move with
  | post k message => exact inv.of_same (by simp [holders, dispatching]) rfl
  | poster here act =>
    rename_i n pre post c c' b
    obtain ⟨before, after⟩ := PostCall.step_right act
    rw [here] at one idle
    rcases after with ⟨other, same⟩ | ⟨won, wasIdle, nowRunning⟩
    · refine inv.of_same ?_ same
      simp [holders, here, List.countP_append, dispatching, before, other]
    · have none := idle wasIdle
      constructor
      · simp only [holders, List.countP_append, List.countP_cons, dispatching, beq_iff_eq, before, won,
          if_false, if_true] at none ⊢
        omega
      · intro isIdle
        simp [nowRunning] at isIdle
  | dispatch here pc =>
    rw [here] at one idle
    constructor
    · simp only [holders, List.countP_append, List.countP_cons, dispatching, pc, beq_self_eq_true, if_true] at one ⊢
      simp only [beq_iff_eq, reduceCtorEq, if_false]
      omega
    · intro isIdle
      have none := idle isIdle
      simp [List.countP_append, dispatching, pc] at none
  | start pending =>
    rw [pending] at one idle
    constructor
    · simp only [holders, List.countP_append, List.countP_singleton, Worker.holds_processMessages, if_true]
      omega
    · intro isIdle
      have none := idle isIdle
      omega
  | lose pending =>
    rw [pending] at one idle
    constructor
    · simp only [holders]
      omega
    · intro isIdle
      have none := idle isIdle
      omega
  | worker _ here act =>
    rename_i n pre post w w' b
    rw [here] at one idle
    simp only [List.countP_append, List.countP_cons] at one idle
    rcases Worker.step_right act with ⟨same, status⟩ | ⟨held, released, -, nowIdle⟩ | ⟨free, -, wasIdle, nowRunning, -⟩
    · refine inv.of_same ?_ status
      simp only [holders, here, List.countP_append, List.countP_cons, same]
    · simp only [held, if_true] at one
      constructor
      · simp only [holders, List.countP_append, List.countP_cons, released, Bool.false_eq_true, if_false]
        omega
      · intro _
        simp only [holders, List.countP_append, List.countP_cons, released, Bool.false_eq_true, if_false]
        omega
    · have none := idle wasIdle
      constructor
      · simp only [holders, List.countP_append, List.countP_cons]
        split <;> omega
      · intro isIdle
        simp [nowRunning] at isIdle
  | raise here inside =>
    rename_i n pre post w
    have held := Worker.holds_of_invoking inside
    rw [here] at one idle
    simp only [List.countP_append, List.countP_cons, held, if_true] at one idle
    have threw : ({ w with pc := .threw } : Worker M).holds = false := rfl
    constructor
    · simp only [holders, List.countP_append, List.countP_cons, threw, Bool.false_eq_true, if_false]
      omega
    · intro isIdle
      have none := idle isIdle
      omega

/-- In every run from the start the right is exclusive. -/
theorem exclusive_run {ok : State M → Label M → Prop} {ls : List (Label M)} {s : State M}
    (run : Machine.Run (step h) ok init ls s) : Exclusive s :=
  run.keeps (exclusive_keeps ok) exclusive_init

/-- **One actor is never run by two workers.** In every reachable state at most one
party holds the processing right, and at most one `InvokeUserMessage` /
`InvokeSystemMessage` call is in progress. -/
theorem never_two_workers {ls : List (Label M)} {s : State M} (run : Machine.Run (step h) Machine.free init ls s) :
    holders s ≤ 1 ∧ s.calls.countP Worker.invoking ≤ 1 := by
  have one := (exclusive_run run).one
  refine ⟨one, ?_⟩
  have less : s.calls.countP Worker.invoking ≤ s.calls.countP Worker.holds :=
    List.countP_mono_left fun _ _ => Worker.holds_of_invoking
  simp only [holders] at one
  omega

/-- A second task is started while the first worker is still in its tail. -/
def tailOverlap : List (Label Nat) :=
  [.post .user (some 1), .poster 0, .poster 0, .poster 0, .poster 0, .start] ++ List.replicate 10 (.worker 0) ++
    [.post .user (some 2), .poster 1, .poster 1, .poster 1, .poster 1, .start] ++ List.replicate 5 (.worker 1)

/-- The state `tailOverlap` leads to: one worker about to reload the counters,
the other inside an invocation. -/
def overlapped : State Nat where
  box := ⟨⟨[], 0, [some 1, some 2], [1, 2]⟩, ⟨[], 0, [], []⟩, .running, 0⟩
  posts := [⟨.user, some 1, .returned⟩, ⟨.user, some 2, .returned⟩]
  scheduled := 0
  calls := [⟨.loadSys, 0, 2, true, []⟩, ⟨.invoking .user 2, 0, 1, true, []⟩]

theorem never_two_workers_overlapped : Machine.Run (step ⟨300⟩) Machine.free init tailOverlap overlapped ∧
    holders overlapped ≤ 1 ∧ overlapped.calls.countP Worker.invoking ≤ 1 := by
  have run : Machine.Run (step ⟨300⟩) Machine.free init tailOverlap overlapped := Machine.free_of_exec (by decide)
  exact ⟨run, never_two_workers run⟩

end Interleaving

end Protoactor.Actor
