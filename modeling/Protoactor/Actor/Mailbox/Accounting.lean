import Protoactor.Actor.Mailbox.Lane
import Protoactor.Actor.Mailbox.Steps

/-!
# How one call moves the accounts

`Worker.owes` and `PostCall.owes` are the uncounted queue operations of a call, the two
contributions to the lag of a lane; `Worker.carried` is its contribution to the messages
in flight. The lemmas here move `Lane.Accounted` along one step of one call and are used
under every dispatcher.
-/

namespace Protoactor.Actor
set_option autoImplicit false
open Lib

variable {M : Type} {h : Handlers} {b b' : DefaultMailbox M}

/-- A popped message that has not been subtracted yet. -/
def Worker.owes (k : Kind) (w : Worker M) : Int :=
  match w.pc with
  | .fetchSub k' _ => if k' = k then 1 else 0
  | _ => 0

/-- A pushed message that has not been added yet. -/
def PostCall.owes (k : Kind) (c : PostCall M) : Int :=
  match c.pc with
  | .fetchAdd => if c.kind = k then 1 else 0
  | _ => 0

/-- Only the holder of the processing right touches the lanes; a call without it
carries nothing. -/
theorem Worker.idle_of_not_holds {w : Worker M} (free : w.holds = false) (k : Kind) :
    w.carried k = [] ∧ w.owes k = 0 := by
  cases pc : w.pc <;> simp_all [Worker.holds, Worker.carried, Worker.owes]

theorem Worker.carried_iterate (w : Worker M) (k : Kind) :
    (w.iterate h).carried k = [] ∧ (w.iterate h).owes k = 0 := by
  unfold Worker.iterate
  split <;> exact ⟨rfl, rfl⟩

theorem Worker.carried_nextRound {w : Worker M} (k : Kind) :
    (Worker.nextRound h w).carried k = [] ∧ (Worker.nextRound h w).owes k = 0 := by
  unfold Worker.nextRound
  split
  · exact Worker.carried_iterate _ k
  · exact ⟨rfl, rfl⟩

theorem Worker.carried_processMessages (k : Kind) :
    (Worker.processMessages h : Worker M).carried k = [] ∧ (Worker.processMessages h : Worker M).owes k = 0 :=
  Worker.carried_nextRound k

/-- Outside the processing right a step leaves both lanes alone. -/
theorem Worker.step_outside {w w' : Worker M} (act : w.step h b = some (b', w')) (free : w.holds = false) (k : Kind) :
    b'.lane k = b.lane k ∧ w'.carried k = [] ∧ w'.owes k = 0 := by
  cases Worker.act act with
  | reacquire pc idle => exact ⟨by simp, Worker.carried_nextRound k⟩
  | loadSys pc | loadUser pc | again pc more | drained pc none | overtaken pc running => exact ⟨rfl, rfl, rfl⟩
  | take pc answer looked | miss pc answer looked | fetchSub pc | invoke pc | handled pc | suspended pc yes
  | active pc no | storeIdle pc => simp [Worker.holds, pc] at free

/-- Writing lane `k` moves its account and leaves the other one. -/
theorem accounted_setLane {lag lag' : Kind → Int} {carried carried' : Kind → List M} {k : Kind} {l : Lane M}
    (acc : ∀ j, (b.lane j).Accounted (lag j) (carried j)) (own : l.Accounted (lag' k) (carried' k))
    (other : ∀ j, j ≠ k → lag' j = lag j ∧ carried' j = carried j) (j : Kind) :
    ((b.setLane k l).lane j).Accounted (lag' j) (carried' j) := by
  by_cases same : j = k
  · subst same
    simpa using own
  · obtain ⟨lags, carries⟩ := other j same
    rw [DefaultMailbox.lane_setLane_of_ne b l same, lags, carries]
    exact acc j

/-- A step of the worker that carries everything in flight keeps both lanes
accounted for; `lag` is what the other calls owe. -/
theorem Worker.step_accounted {w w' : Worker M} {lag : Kind → Int} (act : w.step h b = some (b', w'))
    (acc : ∀ k, (b.lane k).Accounted (lag k + w.owes k) (w.carried k)) (k : Kind) :
    (b'.lane k).Accounted (lag k + w'.owes k) (w'.carried k) := by
  have outside : w.holds = false → (b'.lane k).Accounted (lag k + w'.owes k) (w'.carried k) := by
    intro free
    obtain ⟨lanes, carries, owed⟩ := Worker.step_outside act free k
    obtain ⟨carried, owes⟩ := Worker.idle_of_not_holds free k
    have own := acc k
    rw [lanes, carries, owed]
    rwa [carried, owes] at own
  cases Worker.act act with
  | @take j m seen pc answer looked =>
    have own := acc j
    simp only [Worker.carried, Worker.owes, pc] at own acc
    apply accounted_setLane acc
    · simpa [Worker.carried, Worker.owes] using own.pop_some answer
    · intro i different
      simp [Worker.carried, Worker.owes, different.symm]
  | @miss j seen pc answer looked =>
    have own := acc j
    simp only [Worker.carried, Worker.owes, pc] at own acc
    apply accounted_setLane acc
    · rw [(own.pop_none answer).2]
      cases j <;> exact own
    · intro i different
      cases j <;> exact ⟨rfl, rfl⟩
  | @fetchSub j m pc =>
    have own := acc j
    simp only [Worker.carried, Worker.owes, pc] at own acc
    apply accounted_setLane acc
    · simpa [Worker.carried, Worker.owes] using own.fetchSub
    · intro i different
      simp [Worker.carried, Worker.owes, different.symm]
  | @invoke j m pc =>
    have own := acc j
    simp only [Worker.carried, Worker.owes, pc, if_true] at own acc
    apply accounted_setLane acc
    · simpa [Worker.carried, Worker.owes] using own.invoke
    · intro i different
      simp [Worker.carried, Worker.owes, different.symm]
  | handled pc =>
    obtain ⟨carries, owed⟩ := Worker.carried_iterate (h := h) w k
    rw [carries, owed]
    simpa [Worker.carried, Worker.owes, pc] using acc k
  | suspended pc yes | active pc no | storeIdle pc => simpa [Worker.carried, Worker.owes, pc] using acc k
  | loadSys pc | loadUser pc | again pc more | drained pc none | reacquire pc idle | overtaken pc running =>
    exact outside (by simp [Worker.holds, pc])

/-- A step of a post of a real message keeps both lanes accounted for. -/
theorem PostCall.step_accounted {c c' : PostCall M} {lag : Kind → Int} {carried : Kind → List M}
    (act : c.step b = some (b', c')) (real : c.message ≠ none)
    (acc : ∀ k, (b.lane k).Accounted (lag k - c.owes k) (carried k)) (k : Kind) :
    (b'.lane k).Accounted (lag k - c'.owes k) (carried k) := by
  have own := acc c.kind
  cases PostCall.act act with
  | push pc =>
    obtain ⟨m, message⟩ := Option.ne_none_iff_exists'.1 real
    simp only [PostCall.owes, pc] at own acc
    apply accounted_setLane acc
    · rw [message]
      simpa [PostCall.owes] using own.push m
    · intro i different
      simp [PostCall.owes, different.symm]
  | fetchAdd pc =>
    simp only [PostCall.owes, pc, if_true] at own acc
    apply accounted_setLane acc
    · simpa [PostCall.owes] using own.fetchAdd
    · intro i different
      simp [PostCall.owes, different.symm]
  | win pc idle | lose pc running => simpa [PostCall.owes, pc] using acc k

end Protoactor.Actor
