import Protoactor.Actor.Mailbox.Accounting
import Protoactor.Actor.Mailbox.Exclusion

/-!
# A handler that throws

The dispatcher's `try` block keeps the pool's thread alive, but the exception has left
`ProcessMessages` before the store of `IDLE`: the flag stays at `RUNNING` with nobody
holding the processing right. `Dead` is that situation; no step leaves it, so nothing
is ever invoked again.
-/

namespace Protoactor.Actor.Interleaving
set_option autoImplicit false
open Lib

variable {M : Type} {h : Handlers}

/-- The mailbox can still get its messages processed: the flag is free, or a
task or worker is on its way. -/
def Schedulable (s : State M) : Prop := s.box.schedulerStatus = .idle ∨ 0 < holders s

/-- `RUNNING`, and nobody to run. -/
structure Dead (s : State M) : Prop where
  running : s.box.schedulerStatus = .running
  nobody : holders s = 0

theorem Dead.not_schedulable {s : State M} (dead : Dead s) : ¬ Schedulable s := by
  rintro (idle | some)
  · exact absurd (dead.running.symm.trans idle) nofun
  · exact absurd dead.nobody (by omega)

/-- An exception out of `ProcessLoop` leaves the mailbox dead. -/
theorem dead_of_raise {s s' : State M} {n : Nat} (excl : Exclusive s) (raise : step h s (.raise n) = some s') :
    Dead s' := by
  cases step_cases raise with
  | raise here inside =>
    rename_i pre post w
    have one := excl.one
    have held := Worker.holds_of_invoking inside
    have threw : ({ w with pc := .threw } : Worker M).holds = false := rfl
    simp only [holders, here, List.countP_append, List.countP_cons, held, if_true] at one
    refine ⟨?_, ?_⟩
    · cases status : s.box.schedulerStatus with
      | running => rfl
      | idle =>
        have none := excl.idle status
        simp only [holders, here, List.countP_append, List.countP_cons, held, if_true] at none
        omega
    · simp only [holders, List.countP_append, List.countP_cons, threw, Bool.false_eq_true, if_false]
      omega

/-- Nothing brings a dead mailbox back, and nothing is invoked on it. -/
theorem dead_keeps (invoked : Kind → List M) : Machine.Keeps (step h) Machine.free fun s : State M =>
    Dead s ∧ ∀ k, (s.box.lane k).invoked = invoked k := by
  rintro s l s' ⟨dead, past⟩ - move
  have running := dead.running
  have nobody := dead.nobody
  simp only [holders] at nobody
  cases step_cases move with
  | post k message => exact ⟨⟨running, by simpa [holders, dispatching] using nobody⟩, past⟩
  | poster here act =>
    rename_i n pre post c c' b
    obtain ⟨before, after⟩ := PostCall.step_right act
    rcases after with ⟨other, same⟩ | ⟨-, wasIdle, -⟩
    · refine ⟨⟨same.trans running, ?_⟩, fun k => (PostCall.step_invoked act k).2.trans (past k)⟩
      simpa [holders, here, List.countP_append, dispatching, before, other] using nobody
    · exact absurd (running.symm.trans wasIdle) (by decide)
  | dispatch here pc => simp [here, List.countP_append, dispatching, pc] at nobody
  | start pending => omega
  | lose pending => omega
  | worker get here act =>
    rename_i n pre post w w' b
    have free : w.holds = false := free_of_no_holder dead.nobody (List.mem_of_getElem? get)
    simp only [here, List.countP_append, List.countP_cons] at nobody
    have lanes := fun k => (Worker.step_outside act free k).1
    rcases Worker.step_right act with ⟨same, status⟩ | ⟨held, -⟩ | ⟨-, -, wasIdle, -, -⟩
    · refine ⟨⟨status.trans running, ?_⟩, fun k => by rw [lanes k, past k]⟩
      simpa [holders, List.countP_append, List.countP_cons, same] using nobody
    · simp [free] at held
    · exact absurd (running.symm.trans wasIdle) (by decide)
  | raise here inside =>
    simp [here, List.countP_append, Worker.holds_of_invoking inside] at nobody

/-- **A throwing handler kills its mailbox.** After every exception out of
`ProcessLoop`, in every continuation, the flag is not `IDLE`, no task or worker is
outstanding, and no further message is invoked. -/
theorem raise_kills {ls : List (Label M)} {s s' : State M} {n : Nat}
    (run : Machine.Run (step h) Machine.free init ls s) (raise : step h s (.raise n) = some s') :
    ¬ Schedulable s' ∧ ∀ ls' s'', Machine.Run (step h) Machine.free s' ls' s'' →
      ¬ Schedulable s'' ∧ ∀ k, (s''.box.lane k).invoked = (s'.box.lane k).invoked := by
  have dead := dead_of_raise (exclusive_run run) raise
  refine ⟨dead.not_schedulable, ?_⟩
  intro ls' s'' later
  have kept := later.keeps (dead_keeps fun k => (s'.box.lane k).invoked)
  obtain ⟨still, past⟩ := kept ⟨dead, fun _ => rfl⟩
  exact ⟨still.not_schedulable, past⟩

/-- Two user messages are posted and the handler of the first one throws. -/
def throwOnFirst : List (Label Nat) :=
  [.post .user (some 1), .poster 0, .poster 0, .poster 0, .poster 0, .post .user (some 2), .poster 1, .poster 1,
    .poster 1, .start] ++ List.replicate 5 (.worker 0)

/-- The state `throwOnFirst` leads to, inside the call for the first message. -/
def insideFirst : State Nat where
  box := ⟨⟨[some 2], 1, [some 1, some 2], [1]⟩, ⟨[], 0, [], []⟩, .running, 0⟩
  posts := [⟨.user, some 1, .returned⟩, ⟨.user, some 2, .returned⟩]
  scheduled := 0
  calls := [⟨.invoking .user 1, 0, 1, true, []⟩]

theorem reach_insideFirst : Machine.Run (step ⟨300⟩) Machine.free init throwOnFirst insideFirst :=
  Machine.free_of_exec (by decide)

/-- After the exception. -/
def afterThrow : State Nat := { insideFirst with calls := [⟨.threw, 0, 1, true, []⟩] }

theorem raise_kills_insideFirst : ¬ Schedulable afterThrow ∧
    ∀ ls s, Machine.Run (step ⟨300⟩) Machine.free afterThrow ls s →
      ¬ Schedulable s ∧ ∀ k, (s.box.lane k).invoked = (afterThrow.box.lane k).invoked :=
  raise_kills reach_insideFirst (show step ⟨300⟩ insideFirst (.raise 0) = some afterThrow from rfl)

/-- The second message is left behind: after the exception the flag is
`RUNNING`, nothing is scheduled, and the queue still holds it. -/
theorem throwOnFirst_strands : Machine.Run (step ⟨300⟩) Machine.free init throwOnFirst insideFirst ∧
    step ⟨300⟩ insideFirst (.raise 0) = some afterThrow ∧ ¬ Schedulable afterThrow ∧
    afterThrow.box.user.queue = [some 2] := by
  refine ⟨reach_insideFirst, rfl, ?_, rfl⟩
  rintro (idle | held)
  · cases idle
  · exact absurd held (by decide)

end Protoactor.Actor.Interleaving
