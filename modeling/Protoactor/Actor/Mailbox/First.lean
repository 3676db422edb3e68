import Protoactor.Actor.Mailbox.Accounting
import Protoactor.Actor.Mailbox.Exclusion

/-!
# The first message

A system message that is pushed before any other is the first to be invoked, and nothing
else is invoked before its invocation is over: `Queued`, `Carried` and `Running` are the
places it goes through. It is the answer of the first system `Pop` of whichever worker comes
first, and that worker holds the right until the handler has returned or thrown.
-/

namespace Protoactor.Actor
set_option autoImplicit false
open Lib

variable {M : Type} {h : Handlers}

/-- At the beginning of `ProcessLoop`, or outside of it. -/
def Worker.early (w : Worker M) : Bool :=
  match w.pc with
  | .pop .system | .storeIdle | .loadSys | .loadUser _ | .loadSuspended _ _ | .reacquire | .returned => true
  | _ => false

theorem Worker.early_iterate (w : Worker M) : (w.iterate h).early = true := by
  unfold Worker.iterate
  split <;> rfl

theorem Worker.early_nextRound (w : Worker M) : (w.nextRound h).early = true := by
  unfold Worker.nextRound
  split
  · exact Worker.early_iterate _
  · rfl

/-- An early call takes the message at the head of the system queue, or goes on early. -/
theorem Worker.step_early {w w' : Worker M} {b b' : DefaultMailbox M} {m : M} {rest : Queue M} (early : w.early = true)
    (head : b.system.queue = some m :: rest) (act : w.step h b = some (b', w')) :
    (w'.early = true ∧ ∀ k, b'.lane k = b.lane k) ∨
    (w'.pc = .fetchSub .system m ∧ ∀ k, (b'.lane k).invoked = (b.lane k).invoked) := by
  unfold Worker.early at early
  cases Worker.act act with
  | @take k m' seen pc answer looked =>
    rw [pc] at early
    cases k with
    | user => cases early
    | system =>
      have answer' : b.system.queue.pop.1 = some m' := answer
      rw [head] at answer'
      cases answer'
      refine .inr ⟨rfl, fun k => ?_⟩
      rcases b.lane_setLane_cases .system k (b.lane .system).pop.2 with ⟨rfl, own⟩ | ⟨-, other⟩
      · rw [own, Lane.pop]
      · rw [other]
  | @miss k seen pc answer looked =>
    rw [pc] at early
    cases k with
    | user => cases early
    | system =>
      have answer' : b.system.queue.pop.1 = none := answer
      rw [head] at answer'
      cases answer'
  | fetchSub pc | invoke pc | handled pc | suspended pc yes | active pc no => simp [pc] at early
  | storeIdle pc => exact .inl ⟨rfl, fun k => by simp⟩
  | loadSys pc | loadUser pc | again pc more | drained pc none | overtaken pc running => exact .inl ⟨rfl, fun _ => rfl⟩
  | reacquire pc idle => exact .inl ⟨Worker.early_nextRound _, fun k => by simp⟩

/-- A post puts its message behind the others. -/
theorem PostCall.step_head {c c' : PostCall M} {b b' : DefaultMailbox M} {item : Option M} {rest : Queue M}
    (act : c.step b = some (b', c')) (head : b.system.queue = item :: rest) : ∃ rest, b'.system.queue = item :: rest := by
  cases PostCall.act act with
  | push pc =>
    cases kind : c.kind with
    | user => exact ⟨rest, head⟩
    | system => exact ⟨rest ++ [c.message], congrArg (· ++ [c.message]) head⟩
  | fetchAdd pc => cases kind : c.kind <;> exact ⟨rest, head⟩
  | win pc idle | lose pc running => exact ⟨rest, head⟩

namespace Interleaving

variable {s s' : State M} {l : Label M} {m : M}

/-- The step neither begins nor ends an invocation. -/
def Calm (s : State M) (l : Label M) : Prop :=
  ∀ n w, l = .worker n ∨ l = .raise n → s.calls[n]? = some w → ∀ k m, w.pc ≠ .invoke k m ∧ w.pc ≠ .invoking k m

/-- The message is the next one of the system queue, and no call has looked into the queues. -/
structure Queued (m : M) (s : State M) : Prop where
  head : ∃ rest, s.box.system.queue = some m :: rest
  untouched : s.box.user.invoked = []
  calls : ∀ w ∈ s.calls, w.early = true

/-- A call has popped the message. -/
structure Carried (m : M) (s : State M) : Prop where
  call : ∃ (n : Nat) (w : Worker M), s.calls[n]? = some w ∧ (w.pc = .fetchSub .system m ∨ w.pc = .invoke .system m)
  untouched : s.box.user.invoked = []

/-- A call is inside the invocation of the message. -/
structure Running (m : M) (s : State M) : Prop where
  call : ∃ (n : Nat) (w : Worker M), s.calls[n]? = some w ∧ w.pc = .invoking .system m
  untouched : s.box.user.invoked = []

/-- A step that is not one of the call that holds the right. -/
theorem bystander {n : Nat} {w : Worker M} (excl : Exclusive s) (here : s.calls[n]? = some w) (holds : w.holds = true)
    (move : step h s l = some s') (other : l ≠ .worker n ∧ l ≠ .raise n) :
    Calm s l ∧ s'.calls[n]? = some w ∧ ∀ k, (s'.box.lane k).invoked = (s.box.lane k).invoked := by
  have one : s.calls.countP Worker.holds ≤ 1 := by
    have bound := excl.one
    simp only [holders] at bound
    omega
  -- another call does not hold the right
  have free : ∀ {j : Nat} {v : Worker M}, s.calls[j]? = some v → j ≠ n → v.holds = false := by
    intro j v there different
    cases held : v.holds with
    | false => rfl
    | true => exact absurd (index_unique one there here held holds) different
  have quiet : (∀ j, ¬ (l = .worker j ∨ l = .raise j)) → Calm s l := fun none j _ acts => absurd acts (none j)
  have calm : ∀ {j : Nat}, l = .worker j ∨ l = .raise j → j ≠ n → Calm s l := by
    intro j acts different j' v acts' there k m
    have same : j' = j := by
      rcases acts with rfl | rfl <;> rcases acts' with same | same <;> cases same <;> rfl
    subst same
    have idle := free there different
    constructor <;> (intro pc; simp [Worker.holds, pc] at idle)
  cases l with
  | post k message =>
    cases move
    exact ⟨quiet (by simp), here, fun _ => rfl⟩
  | poster j =>
    refine ⟨quiet (by simp), ?_⟩
    cases step_cases move with
    | poster split act => exact ⟨here, fun k => (PostCall.step_invoked act k).2⟩
    | dispatch split pc => exact ⟨here, fun _ => rfl⟩
  | start =>
    refine ⟨quiet (by simp), ?_⟩
    cases step_cases move with
    | start pending => exact ⟨pool_grow here _, fun _ => rfl⟩
  | lose =>
    refine ⟨quiet (by simp), ?_⟩
    cases step_cases move with
    | lose pending => exact ⟨here, fun _ => rfl⟩
  | worker j =>
    have different : j ≠ n := fun same => other.1 (by rw [same])
    refine ⟨calm (.inl rfl) different, ?_⟩
    simp only [step] at move
    split at move
    · cases move
    · rename_i v there
      obtain ⟨⟨b, v'⟩, act, rfl⟩ := Option.map_eq_some_iff.1 move
      exact ⟨by rw [List.getElem?_set_ne different, here],
        fun k => congrArg Lane.invoked (Worker.step_outside act (free there different) k).1⟩
  | raise j =>
    have different : j ≠ n := fun same => other.2 (by rw [same])
    refine ⟨calm (.inr rfl) different, ?_⟩
    simp only [step] at move
    split at move
    · cases move
    · split at move
      · cases move
        exact ⟨by rw [List.getElem?_set_ne different, here], fun _ => rfl⟩
      · cases move

/-- A queued message is popped before any invocation. -/
theorem queued_step (queued : Queued m s) (move : step h s l = some s') : Calm s l ∧ (Queued m s' ∨ Carried m s') := by
  obtain ⟨⟨rest, head⟩, untouched, calls⟩ := queued
  have early : ∀ {n : Nat} {w : Worker M}, s.calls[n]? = some w → w.early = true := fun here =>
    calls _ (List.mem_of_getElem? here)
  refine ⟨fun n w _ here k x => ?_, ?_⟩
  · have start := early here
    constructor <;> (intro pc; simp [Worker.early, pc] at start)
  cases l with
  | post k message =>
    cases move
    exact .inl ⟨⟨rest, head⟩, untouched, calls⟩
  | poster n =>
    cases step_cases move with
    | poster split act =>
      exact .inl ⟨PostCall.step_head act head, (PostCall.step_invoked act .user).2.trans untouched, calls⟩
    | dispatch split pc => exact .inl ⟨⟨rest, head⟩, untouched, calls⟩
  | start =>
    cases step_cases move with
    | start pending =>
      exact .inl ⟨⟨rest, head⟩, untouched, pool_all_new calls (Worker.early_nextRound _)⟩
  | lose =>
    cases step_cases move with
    | lose pending => exact .inl ⟨⟨rest, head⟩, untouched, calls⟩
  | worker n =>
    simp only [step] at move
    split at move
    · cases move
    · rename_i w here
      obtain ⟨⟨b, w'⟩, act, rfl⟩ := Option.map_eq_some_iff.1 move
      rcases Worker.step_early (early here) head act with ⟨again, lanes⟩ | ⟨pc, invoked⟩
      · refine .inl ⟨⟨rest, (congrArg Lane.queue (lanes .system)).trans head⟩,
          (congrArg Lane.invoked (lanes .user)).trans untouched, fun v member => ?_⟩
        rcases List.mem_or_eq_of_mem_set member with old | rfl
        · exact calls v old
        · exact again
      · exact .inr ⟨⟨n, w', pool_put here w', .inl pc⟩, (invoked .user).trans untouched⟩
  | raise n =>
    simp only [step] at move
    split at move
    · cases move
    · rename_i w here
      split at move
      · rename_i inside
        have start := early here
        unfold Worker.invoking at inside
        split at inside
        · rename_i pc
          simp [Worker.early, pc] at start
        · cases inside
      · cases move

theorem carried_step (excl : Exclusive s) (carried : Carried m s) (move : step h s l = some s') :
    (Calm s l ∧ Carried m s') ∨
    (Running m s' ∧ ∃ n w, l = .worker n ∧ s.calls[n]? = some w ∧ w.pc = .invoke .system m) := by
  obtain ⟨⟨n, w, here, pc⟩, untouched⟩ := carried
  have holds : w.holds = true := by rcases pc with pc | pc <;> simp [Worker.holds, pc]
  by_cases own : l = .worker n ∨ l = .raise n
  · rcases own with rfl | rfl
    · simp only [step, here] at move
      obtain ⟨⟨b, w'⟩, act, rfl⟩ := Option.map_eq_some_iff.1 move
      have there := pool_put here w'
      rcases pc with pc | pc
      · simp only [Worker.step, pc] at act
        cases act
        refine .inl ⟨fun j v acts at_j k x => ?_, ⟨n, _, there, .inr rfl⟩, untouched⟩
        have same : j = n := by rcases acts with acts | acts <;> cases acts; rfl
        subst same
        rw [here] at at_j
        cases at_j
        simp [pc]
      · simp only [Worker.step, pc] at act
        cases act
        exact .inr ⟨⟨⟨n, _, there, rfl⟩, untouched⟩, n, w, rfl, here, pc⟩
    · have outside : w.invoking = false := by rcases pc with pc | pc <;> simp [Worker.invoking, pc]
      simp [step, here, outside] at move
  · obtain ⟨calm, still, invoked⟩ := bystander excl here holds move (not_or.1 own)
    exact .inl ⟨calm, ⟨n, w, still, pc⟩, (invoked .user).trans untouched⟩

theorem running_step (excl : Exclusive s) (running : Running m s) (move : step h s l = some s') :
    (Calm s l ∧ Running m s') ∨
    ∃ n w, (l = .worker n ∨ l = .raise n) ∧ s.calls[n]? = some w ∧ w.pc = .invoking .system m := by
  obtain ⟨⟨n, w, here, pc⟩, untouched⟩ := running
  have holds : w.holds = true := by simp [Worker.holds, pc]
  by_cases own : l = .worker n ∨ l = .raise n
  · exact .inr ⟨n, w, own, here, pc⟩
  · obtain ⟨calm, still, invoked⟩ := bystander excl here holds move (not_or.1 own)
    exact .inl ⟨calm, ⟨n, w, still, pc⟩, (invoked .user).trans untouched⟩

end Interleaving

end Protoactor.Actor
