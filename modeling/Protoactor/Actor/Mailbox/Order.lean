import Protoactor.Actor.Mailbox.Delivery
import Protoactor.Actor.Mailbox.First

/-!
# Order, whatever is posted

`Delivery` is about posts of real messages. A posted null pointer upsets the counters and
not the order: what has been invoked is, in order, what was pushed first, the
nulls left out. `InOrder` says so of one lane.
-/

namespace Protoactor.Actor
set_option autoImplicit false
open Lib

variable {M : Type} {h : Handlers} {b b' : DefaultMailbox M}

/-! ## One lane -/

namespace Lane

variable {l : Lane M} {carried : List M}

/-- The messages that were pushed and are not null, in order. -/
def enqueued (l : Lane M) : List M := l.pushed.filterMap id

/-- They have been invoked, are carried by a worker, or wait in the queue. -/
def InOrder (l : Lane M) (carried : List M) : Prop := l.enqueued = l.invoked ++ carried ++ l.queue.filterMap id

theorem InOrder.push (inOrder : l.InOrder carried) (item : Option M) : (l.push item).InOrder carried := by
  unfold InOrder enqueued at *
  simp only [Lane.push, Queue.push, List.filterMap_append, inOrder, List.append_assoc]

theorem InOrder.pop_some (inOrder : l.InOrder []) {m : M} (answer : l.pop.1 = some m) : l.pop.2.InOrder [m] := by
  have split := Queue.pop_some (Prod.ext answer rfl : l.queue.pop = (some m, l.queue.pop.2))
  unfold InOrder enqueued at *
  simp only [Lane.pop]
  rw [inOrder, split]
  simp

/-- A null answer takes nothing out of the queue, or a null. -/
theorem InOrder.pop_none (inOrder : l.InOrder []) (answer : l.pop.1 = none) : l.pop.2.InOrder [] := by
  have same : l.queue.pop.2.filterMap id = l.queue.filterMap id := by
    cases queue : l.queue with
    | nil => rfl
    | cons item rest =>
      have null : item = none := by simpa [Lane.pop, queue] using answer
      simp [null]
  unfold InOrder enqueued at *
  simp only [Lane.pop]
  rw [inOrder, same]

theorem InOrder.fetchAdd (inOrder : l.InOrder carried) : l.fetchAdd.InOrder carried := inOrder

theorem InOrder.fetchSub (inOrder : l.InOrder carried) : l.fetchSub.InOrder carried := inOrder

theorem InOrder.invoke {m : M} (inOrder : l.InOrder [m]) : (l.invoke m).InOrder [] := by
  unfold InOrder enqueued at *
  simp only [Lane.invoke]
  rw [inOrder, List.append_nil]

theorem InOrder.invoked (inOrder : l.InOrder carried) : l.invoked <+: l.enqueued := by
  refine ⟨carried ++ l.queue.filterMap id, ?_⟩
  rw [inOrder, List.append_assoc]

end Lane

/-! ## One call -/

/-- Writing one lane keeps the order of the other. -/
theorem inOrder_setLane {carried carried' : Kind → List M} {k : Kind} {l : Lane M}
    (all : ∀ j, (b.lane j).InOrder (carried j)) (own : l.InOrder (carried' k)) (other : ∀ j, j ≠ k → carried' j = carried j)
    (j : Kind) : ((b.setLane k l).lane j).InOrder (carried' j) := by
  rcases b.lane_setLane_cases k j l with ⟨rfl, here⟩ | ⟨different, there⟩
  · rwa [here]
  · rw [there, other j different]
    exact all j

theorem Worker.step_inOrder {w w' : Worker M} (act : w.step h b = some (b', w'))
    (all : ∀ k, (b.lane k).InOrder (w.carried k)) (k : Kind) : (b'.lane k).InOrder (w'.carried k) := by
  have outside : w.holds = false → (b'.lane k).InOrder (w'.carried k) := by
    intro free
    obtain ⟨lanes, carries, -⟩ := Worker.step_outside act free k
    have own := all k
    rw [(Worker.idle_of_not_holds free k).1] at own
    rwa [lanes, carries]
  cases Worker.act act with
  | @take j m seen pc answer looked =>
    have own := all j
    simp only [Worker.carried, pc] at own all
    apply inOrder_setLane all
    · simpa [Worker.carried] using own.pop_some answer
    · intro i different
      simp [Worker.carried, different.symm]
  | @miss j seen pc answer looked =>
    have own := all j
    simp only [Worker.carried, pc] at own all
    apply inOrder_setLane all
    · cases j <;> exact own.pop_none answer
    · intro i different
      cases j <;> rfl
  | @fetchSub j m pc =>
    have own := all j
    simp only [Worker.carried, pc] at own all
    apply inOrder_setLane all
    · simpa [Worker.carried] using own.fetchSub
    · intro i different
      simp [Worker.carried, different.symm]
  | @invoke j m pc =>
    have own := all j
    simp only [Worker.carried, pc, if_true] at own all
    apply inOrder_setLane all
    · exact own.invoke
    · intro i different
      simp [Worker.carried, different.symm]
  | handled pc =>
    rw [(Worker.carried_iterate w k).1]
    simpa [Worker.carried, pc] using all k
  | suspended pc yes | active pc no | storeIdle pc => simpa [Worker.carried, pc] using all k
  | loadSys pc | loadUser pc | again pc more | drained pc none | reacquire pc idle | overtaken pc running =>
    exact outside (by simp [Worker.holds, pc])

theorem PostCall.step_inOrder {c c' : PostCall M} {carried : Kind → List M} (act : c.step b = some (b', c'))
    (all : ∀ k, (b.lane k).InOrder (carried k)) (k : Kind) : (b'.lane k).InOrder (carried k) := by
  have own := all c.kind
  cases PostCall.act act with
  | push pc => exact inOrder_setLane all (own.push c.message) (fun _ _ => rfl) k
  | fetchAdd pc => exact inOrder_setLane all own.fetchAdd (fun _ _ => rfl) k
  | win pc idle | lose pc running => simpa using all k

/-! ## Any number of threads -/

namespace Interleaving

variable {s s' : State M} {l : Label M}

/-- Both lanes are in order. -/
def InOrder (s : State M) : Prop := ∀ k, (s.box.lane k).InOrder (inFlight k s)

theorem inOrder_init : InOrder (init : State M) := by
  intro k
  cases k <;> rfl

theorem inOrder_worker {pre post : List (Worker M)} {w w' : Worker M} (excl : Exclusive s) (inOrder : InOrder s)
    (here : s.calls = pre ++ w :: post) (act : w.step h s.box = some (b, w')) :
    InOrder { s with box := b, calls := pre ++ w' :: post } := by
  intro k
  cases held : w.holds with
  | true =>
    obtain ⟨⟨left, -⟩, right, -⟩ := others_idle (excl.one_call here) held k
    have all : ∀ j, (s.box.lane j).InOrder (w.carried j) := by
      intro j
      rw [← inFlight_of_holds excl here held]
      exact inOrder j
    have next := Worker.step_inOrder act all k
    simpa [inFlight, left, right] using next
  | false =>
    obtain ⟨lanes, carries, -⟩ := Worker.step_outside act held k
    have own := inOrder k
    simp only [inFlight, here, List.flatMap_append, List.flatMap_cons, (Worker.idle_of_not_holds held k).1] at own
    simpa [lanes, inFlight, carries] using own

theorem inOrder_keeps : Machine.Keeps (step h) Machine.free fun s : State M => Exclusive s ∧ InOrder s := by
  refine (exclusive_keeps Machine.free).with ?_
  intro s l s' excl inOrder _ move
  cases step_cases move with
  | post k message | dispatch here pc | lose pending => exact inOrder
  | poster here act => exact fun k => PostCall.step_inOrder act inOrder k
  | start pending =>
    intro k
    simpa [inFlight, (Worker.carried_processMessages (M := M) (h := h) k).1] using inOrder k
  | worker _ here act => exact inOrder_worker excl inOrder here act
  | @raise n pre post w here inside =>
    intro k
    have own := inOrder k
    simp only [inFlight, here, List.flatMap_append, List.flatMap_cons, (Worker.idle_of_invoking inside k).1] at own ⊢
    exact own

/-! ## Steps between the invocations -/

theorem pc_of_invoking {w : Worker M} (inside : w.invoking = true) : ∃ k m, w.pc = .invoking k m := by
  unfold Worker.invoking at inside
  split at inside
  · rename_i k m pc
    exact ⟨k, m, pc⟩
  · cases inside

theorem invoking_iterate (w : Worker M) : (w.iterate h).invoking = false := by
  unfold Worker.iterate
  split <;> rfl

theorem invoking_nextRound (w : Worker M) : (w.nextRound h).invoking = false := by
  unfold Worker.nextRound
  split
  · exact invoking_iterate _
  · rfl

/-- A call at neither of the two steps of an invocation. -/
theorem quiet_worker {w w' : Worker M} (act : w.step h b = some (b', w')) (before : ∀ k m, w.pc ≠ .invoke k m)
    (inside : ∀ k m, w.pc ≠ .invoking k m) : w'.invoking = false ∧ ∀ k, (b'.lane k).invoked = (b.lane k).invoked := by
  have written : ∀ {j : Kind} {l : Lane M}, l.invoked = (b.lane j).invoked →
      ∀ k, ((b.setLane j l).lane k).invoked = (b.lane k).invoked := by
    intro j l kept k
    rcases b.lane_setLane_cases j k l with ⟨rfl, own⟩ | ⟨-, other⟩
    · rw [own, kept]
    · rw [other]
  cases Worker.act act with
  | take pc answer looked => exact ⟨rfl, written rfl⟩
  | @miss k seen pc answer looked => exact ⟨by cases k <;> rfl, written rfl⟩
  | fetchSub pc => exact ⟨rfl, written rfl⟩
  | @invoke k m pc => exact absurd pc (before k m)
  | @handled k m pc => exact absurd pc (inside k m)
  | storeIdle pc => exact ⟨rfl, fun k => by simp⟩
  | reacquire pc idle => exact ⟨invoking_nextRound _, fun k => by simp⟩
  | suspended pc yes | active pc no | loadSys pc | loadUser pc | again pc more | drained pc none | overtaken pc running =>
    exact ⟨rfl, fun _ => rfl⟩

/-- A step that neither begins nor ends an invocation: the calls that are inside one stay there, and no
other is. -/
structure Unmoved (s s' : State M) : Prop where
  invoked : ∀ k, (s'.box.lane k).invoked = (s.box.lane k).invoked
  stays : ∀ (n : Nat) (w : Worker M), s.calls[n]? = some w → w.invoking = true → s'.calls[n]? = some w
  noOther : ∀ w ∈ s'.calls, w.invoking = true → w ∈ s.calls

theorem unmoved_worker {n : Nat} {w w' : Worker M} (here : s.calls[n]? = some w) (act : w.step h s.box = some (b, w'))
    (quiet : ∀ k m, w.pc ≠ .invoke k m ∧ w.pc ≠ .invoking k m) :
    Unmoved s { s with box := b, calls := s.calls.set n w' } := by
  obtain ⟨outside, invoked⟩ := quiet_worker act (fun k m => (quiet k m).1) fun k m => (quiet k m).2
  constructor
  case invoked => exact invoked
  case stays =>
    intro j v there inside
    have different : n ≠ j := by
      rintro rfl
      rw [here] at there
      cases there
      obtain ⟨k, m, pc⟩ := pc_of_invoking inside
      exact (quiet k m).2 pc
    exact (List.getElem?_set_ne different).trans there
  case noOther =>
    intro v member inside
    rcases List.mem_or_eq_of_mem_set member with old | rfl
    · exact old
    · rw [outside] at inside
      cases inside

theorem unmoved_of_calm (calm : Calm s l) (move : step h s l = some s') : Unmoved s s' := by
  cases l with
  | post k message =>
    cases move
    exact ⟨fun _ => rfl, fun _ _ here _ => here, fun _ member _ => member⟩
  | poster n =>
    cases step_cases move with
    | poster here act => exact ⟨fun k => (PostCall.step_invoked act k).2, fun _ _ here _ => here, fun _ member _ => member⟩
    | dispatch here pc => exact ⟨fun _ => rfl, fun _ _ here _ => here, fun _ member _ => member⟩
  | start =>
    cases step_cases move with
    | start pending =>
      refine ⟨fun _ => rfl, fun _ _ here _ => pool_grow here _, fun w member inside => ?_⟩
      rcases List.mem_append.1 member with old | new
      · exact old
      · rw [List.mem_singleton.1 new, Worker.processMessages, invoking_nextRound] at inside
        cases inside
  | lose =>
    cases step_cases move with
    | lose pending => exact ⟨fun _ => rfl, fun _ _ here _ => here, fun _ member _ => member⟩
  | worker n =>
    simp only [step] at move
    split at move
    · cases move
    · rename_i w here
      obtain ⟨⟨b, w'⟩, act, rfl⟩ := Option.map_eq_some_iff.1 move
      exact unmoved_worker here act (calm n w (.inl rfl) here)
  | raise n =>
    simp only [step] at move
    split at move
    · cases move
    · rename_i w here
      split at move
      · rename_i inside
        have quiet := calm n w (.inr rfl) here
        obtain ⟨k, m, pc⟩ := pc_of_invoking inside
        exact absurd pc (quiet k m).2
      · cases move

end Interleaving

end Protoactor.Actor
