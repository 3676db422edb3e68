import Protoactor.Actor.Mailbox

/-!
# What a lane owes

`Accounted lag carried` ties the three views of a lane together: every message pushed
has been invoked, is carried by a worker, or is still queued, in that order; and the
counter is the queue length up to `lag`, the steps that are still to be counted (a
post between `Push` and `fetch_add` counts `-1`, a worker between `Pop` and
`fetch_sub` counts `1`). One lemma for each operation says how the two indices move.
-/

namespace Protoactor.Actor
set_option autoImplicit false
open Lib

namespace Lane

variable {M : Type} {l : Lane M} {lag : Int} {carried : List M}

structure Accounted (l : Lane M) (lag : Int) (carried : List M) : Prop where
  solid : none ∉ l.queue
  history : l.pushed = (l.invoked ++ carried).map some ++ l.queue
  count : l.messages = int32 (l.queue.length + lag)

/-- Nothing is queued, counted or owed. -/
structure Resting (l : Lane M) : Prop where
  queue : l.queue = []
  messages : l.messages = 0
  history : l.pushed = l.invoked.map some

theorem Resting.accounted (h : l.Resting) : l.Accounted 0 [] := by
  refine ⟨by simp [h.queue], ?_, ?_⟩
  · simp [h.history, h.queue]
  · simp [h.queue, h.messages]

/-- A lane that owes nothing and has an empty queue rests. -/
theorem Accounted.resting (h : l.Accounted 0 []) (empty : l.queue = []) : l.Resting := by
  refine ⟨empty, ?_, ?_⟩
  · simp [h.count, empty]
  · simpa [empty] using h.history

theorem Accounted.push (h : l.Accounted lag carried) (m : M) :
    (l.push (some m)).Accounted (lag - 1) carried := by
  constructor
  case solid => simpa [Lane.push, Queue.push] using h.solid
  case history => simp [Lane.push, Queue.push, h.history]
  case count =>
    have shift : (((l.queue.push (some m)).length : Nat) : Int) + (lag - 1) = l.queue.length + lag := by
      rw [Queue.length_push]
      omega
    simpa only [Lane.push, shift] using h.count

theorem Accounted.fetchAdd (h : l.Accounted lag carried) : l.fetchAdd.Accounted (lag + 1) carried := by
  refine ⟨h.solid, h.history, ?_⟩
  have shift : (l.queue.length : Int) + (lag + 1) = l.queue.length + lag + 1 := by omega
  simp only [Lane.fetchAdd, h.count, int32_add, shift]

theorem Accounted.fetchSub (h : l.Accounted lag carried) : l.fetchSub.Accounted (lag - 1) carried := by
  refine ⟨h.solid, h.history, ?_⟩
  have shift : (l.queue.length : Int) + (lag - 1) = l.queue.length + lag - 1 := by omega
  simp only [Lane.fetchSub, h.count, int32_sub, shift]

/-- A null answer of `Pop` leaves the lane as it was: empty. -/
theorem Accounted.pop_none (h : l.Accounted lag carried) (answer : l.pop.1 = none) :
    l.queue = [] ∧ l.pop.2 = l := by
  obtain ⟨before, after⟩ := Queue.pop_none h.solid (Prod.ext answer rfl : l.queue.pop = (none, l.queue.pop.2))
  exact ⟨before, by simp only [Lane.pop, after, ← before]⟩

/-- A message that `Pop` returns is the oldest one and becomes the carried one. -/
theorem Accounted.pop_some (h : l.Accounted lag []) {m : M} (answer : l.pop.1 = some m) :
    l.pop.2.Accounted (lag + 1) [m] := by
  have split := Queue.pop_some (Prod.ext answer rfl : l.queue.pop = (some m, l.queue.pop.2))
  constructor
  case solid =>
    intro inside
    exact h.solid (split ▸ List.mem_cons_of_mem _ inside)
  case history =>
    rw [Lane.pop, h.history, split]
    simp
  case count =>
    have length := congrArg List.length split
    rw [List.length_cons] at length
    have shift : (l.queue.pop.2.length : Int) + (lag + 1) = l.queue.length + lag := by omega
    simpa only [Lane.pop, shift] using h.count

theorem Accounted.invoke {m : M} (h : l.Accounted lag [m]) : (l.invoke m).Accounted lag [] := by
  refine ⟨h.solid, ?_, h.count⟩
  simpa [Lane.invoke] using h.history

/-- The invoked messages are a prefix of the pushed ones. -/
theorem Accounted.invoked_initial (h : l.Accounted lag carried) : l.invoked.map some <+: l.pushed := by
  rw [h.history, List.map_append, List.append_assoc]
  exact List.prefix_append _ _

/-- With nothing carried and nothing queued, everything pushed has been invoked. -/
theorem Accounted.all_invoked (h : l.Accounted lag []) (empty : l.queue = []) : l.pushed = l.invoked.map some := by
  simpa [empty] using h.history

end Lane

end Protoactor.Actor
