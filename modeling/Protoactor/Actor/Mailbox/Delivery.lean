import Protoactor.Actor.Mailbox.Accounting
import Protoactor.Actor.Mailbox.Exclusion

/-!
# Delivery: order, no loss, no duplication

`Delivery` holds in every run whose posts are of real messages (the null pointer is
what `Pop` answers for an empty queue, so a posted null would be lost). Each lane
accounts for every push, and a worker that has found the system queue empty in this
iteration has seen every system message pushed before that `Pop` invoked.
-/

namespace Protoactor.Actor
set_option autoImplicit false
open Lib

section Seen

variable {M : Type} {h : Handlers} {b b' : DefaultMailbox M}

/-- Past the system `Pop` of its iteration, which answered null. -/
def Worker.polled (w : Worker M) : Bool :=
  match w.pc with
  | .checkSuspended | .pop .user | .fetchSub .user _ | .invoke .user _ | .invoking .user _ => true
  | _ => false

theorem Worker.holds_of_polled {w : Worker M} (past : w.polled = true) : w.holds = true := by
  unfold Worker.polled at past
  split at past <;> simp_all [Worker.holds]

@[simp] theorem Worker.polled_iterate (w : Worker M) : (w.iterate h).polled = false := by
  unfold Worker.iterate
  split <;> rfl

@[simp] theorem Worker.polled_nextRound (w : Worker M) : (Worker.nextRound h w).polled = false := by
  unfold Worker.nextRound
  split
  · exact Worker.polled_iterate _
  · rfl

/-- What a worker has seen at its system `Pop` stays exactly what has been invoked,
as long as it alone can invoke. -/
theorem Worker.step_seen {w w' : Worker M} {lag : Int} (act : w.step h b = some (b', w'))
    (acc : b.system.Accounted lag (w.carried .system))
    (seen : w.polled = true → w.seen = b.system.invoked.map some) :
    w'.polled = true → w'.seen = b'.system.invoked.map some := by
  intro past
  cases Worker.act act with
  | @take k m seen' pc answer looked =>
    cases k with
    | system => simp [Worker.polled] at past
    | user =>
      have before := seen (by simp [Worker.polled, pc])
      simpa [looked, DefaultMailbox.setLane] using before
  | @miss k seen' pc answer looked =>
    cases k with
    | user => simp [Worker.popped, Worker.polled] at past
    | system =>
      simp only [Worker.carried, pc] at acc
      obtain ⟨empty, same⟩ := acc.pop_none answer
      have lane : b.lane .system = b.system := rfl
      simpa [Worker.popped, looked, lane, same, DefaultMailbox.setLane] using acc.all_invoked empty
  | @fetchSub k m pc | @invoke k m pc =>
    cases k with
    | system => simp [Worker.polled] at past
    | user =>
      have before := seen (by simp [Worker.polled, pc])
      simpa [DefaultMailbox.setLane] using before
  | active pc no => exact seen (by simp [Worker.polled, pc])
  | handled pc | reacquire pc idle => simp at past
  | suspended pc yes | storeIdle pc | loadSys pc | loadUser pc | again pc more | drained pc none
  | overtaken pc running => simp [Worker.polled] at past

/-- A step without the processing right never gets past a system `Pop`. -/
theorem Worker.polled_outside {w w' : Worker M} (act : w.step h b = some (b', w')) (free : w.holds = false) :
    w'.polled = false := by
  rcases Worker.step_right act with ⟨same, -⟩ | ⟨held, -⟩ | ⟨-, -, -, -, next⟩
  · cases past : w'.polled with
    | false => rfl
    | true => simp [Worker.holds_of_polled past, free] at same
  · simp [free] at held
  · rw [next]
    exact Worker.polled_nextRound _

/-- Inside an invocation nothing is in flight. -/
theorem Worker.idle_of_invoking {w : Worker M} (inside : w.invoking = true) (k : Kind) :
    w.carried k = [] ∧ w.owes k = 0 := by
  unfold Worker.invoking at inside
  split at inside
  · rename_i pc
    simp [Worker.carried, Worker.owes, pc]
  · cases inside

end Seen

namespace Interleaving

variable {M : Type} {h : Handlers}

/-- The label posts no null pointer. -/
def Label.real : Label M → Bool
  | .post _ message => message.isSome
  | _ => true

/-- The runs in which every posted message is non-null. -/
def real : State M → Label M → Prop := fun _ l => l.real = true

/-- The messages of kind `k` that have been popped and not passed on yet. -/
def inFlight (k : Kind) (s : State M) : List M := s.calls.flatMap (Worker.carried k)

/-- The queue operations of kind `k` that are not counted yet: pops minus pushes. -/
def lag (k : Kind) (s : State M) : Int :=
  (s.calls.map (Worker.owes k)).sum - (s.posts.map (PostCall.owes k)).sum

structure Delivery (s : State M) : Prop where
  real : ∀ c ∈ s.posts, c.message ≠ none
  lanes : ∀ k, (s.box.lane k).Accounted (lag k s) (inFlight k s)
  seen : ∀ w ∈ s.calls, w.polled = true → w.seen = s.box.system.invoked.map some

theorem delivery_init : Delivery (init : State M) where
  real := nofun
  lanes := fun k => Lane.Resting.accounted (by cases k <;> exact ⟨rfl, rfl, rfl⟩)
  seen := nofun

/-- Where one call holds the processing right, the other calls contribute nothing. -/
theorem others_idle {pre post : List (Worker M)} {w : Worker M} (one : (pre ++ w :: post).countP Worker.holds ≤ 1)
    (held : w.holds = true) (k : Kind) :
    (pre.flatMap (Worker.carried k) = [] ∧ (pre.map (Worker.owes k)).sum = 0) ∧
    post.flatMap (Worker.carried k) = [] ∧ (post.map (Worker.owes k)).sum = 0 := by
  have idle : ∀ l : List (Worker M), (∀ v ∈ l, v.holds = false) →
      l.flatMap (Worker.carried k) = [] ∧ (l.map (Worker.owes k)).sum = 0 := by
    intro l free
    exact ⟨List.flatMap_eq_nil_iff.2 fun v inside => (Worker.idle_of_not_holds (free v inside) k).1,
      sum_eq_zero fun v inside => (Worker.idle_of_not_holds (free v inside) k).2⟩
  obtain ⟨left, right⟩ := only_one one held
  exact ⟨idle pre left, idle post right⟩

/-- At most one `ProcessMessages` call holds the right. -/
theorem Exclusive.one_call {s : State M} {calls : List (Worker M)} (excl : Exclusive s) (here : s.calls = calls) :
    calls.countP Worker.holds ≤ 1 := by
  have all := excl.one
  simp only [holders, here] at all
  omega

/-- The one holder carries everything in flight. -/
theorem inFlight_of_holds {s : State M} {pre post : List (Worker M)} {w : Worker M} (excl : Exclusive s)
    (here : s.calls = pre ++ w :: post) (held : w.holds = true) (k : Kind) : inFlight k s = w.carried k := by
  obtain ⟨⟨left, -⟩, right, -⟩ := others_idle (excl.one_call here) held k
  simp [inFlight, here, left, right]

/-- Replacing one post moves the lag by what that post owes. -/
theorem lag_poster {s : State M} {pre post : List (PostCall M)} {c c' : PostCall M} {b : DefaultMailbox M} {n : Nat}
    (here : s.posts = pre ++ c :: post) (k : Kind) :
    lag k { s with box := b, posts := pre ++ c' :: post, scheduled := n } = lag k s + c.owes k - c'.owes k := by
  simp only [lag, here, List.map_append, List.map_cons, List.sum_append, List.sum_cons]
  omega

/-- Replacing one `ProcessMessages` call moves the lag by what that call owes. -/
theorem lag_worker {s : State M} {pre post : List (Worker M)} {w w' : Worker M} {b : DefaultMailbox M}
    (here : s.calls = pre ++ w :: post) (k : Kind) :
    lag k { s with box := b, calls := pre ++ w' :: post } = lag k s - w.owes k + w'.owes k := by
  simp only [lag, here, List.map_append, List.map_cons, List.sum_append, List.sum_cons]
  omega

/-- The lanes along a step of a `ProcessMessages` call. -/
theorem lanes_worker {s : State M} {pre post : List (Worker M)} {w w' : Worker M} {b : DefaultMailbox M}
    (excl : Exclusive s) (inv : Delivery s) (here : s.calls = pre ++ w :: post)
    (act : w.step h s.box = some (b, w')) (k : Kind) :
    (b.lane k).Accounted (lag k { s with box := b, calls := pre ++ w' :: post })
      (inFlight k { s with box := b, calls := pre ++ w' :: post }) := by
  rw [lag_worker here]
  cases held : w.holds with
  | true =>
    obtain ⟨⟨left, -⟩, right, -⟩ := others_idle (excl.one_call here) held k
    have acc : ∀ j, (s.box.lane j).Accounted (lag j s - w.owes j + w.owes j) (w.carried j) := by
      intro j
      rw [Int.sub_add_cancel, ← inFlight_of_holds excl here held]
      exact inv.lanes j
    have next := Worker.step_accounted act acc k
    simpa [inFlight, left, right] using next
  | false =>
    obtain ⟨lanes, carries, owed⟩ := Worker.step_outside act held k
    obtain ⟨carried, owes⟩ := Worker.idle_of_not_holds held k
    have own := inv.lanes k
    simp only [inFlight, here, List.flatMap_append, List.flatMap_cons, carried] at own
    simpa [lanes, owes, owed, inFlight, carries] using own

/-- The system messages seen along a step of a `ProcessMessages` call: only the
holder of the right can have polled, and it is the only one that invokes. -/
theorem seen_worker {s : State M} {pre post : List (Worker M)} {w w' : Worker M} {b : DefaultMailbox M}
    (excl : Exclusive s) (inv : Delivery s) (here : s.calls = pre ++ w :: post)
    (act : w.step h s.box = some (b, w')) :
    ∀ v ∈ pre ++ w' :: post, v.polled = true → v.seen = b.system.invoked.map some := by
  have member : w ∈ s.calls := by simp [here]
  cases held : w.holds with
  | true =>
    obtain ⟨left, right⟩ := only_one (excl.one_call here) held
    have acc : s.box.system.Accounted (lag .system s) (w.carried .system) := by
      rw [← inFlight_of_holds excl here held]
      exact inv.lanes .system
    intro v inside past
    simp only [List.mem_append, List.mem_cons] at inside
    rcases inside with before | rfl | after
    · exact absurd (Worker.holds_of_polled past) (by simp [left v before])
    · exact Worker.step_seen act acc (inv.seen w member) past
    · exact absurd (Worker.holds_of_polled past) (by simp [right v after])
  | false =>
    have same : b.system = s.box.system := (Worker.step_outside act held .system).1
    rw [same]
    refine pool_all here inv.seen fun past => ?_
    simp [Worker.polled_outside act held] at past

theorem delivery_keeps : Machine.Keeps (step h) real fun s : State M => Exclusive s ∧ Delivery s := by
  refine (exclusive_keeps real).with ?_
  intro s l s' excl inv allowed move
  cases step_cases move with
  | post k message =>
    refine ⟨pool_all_new inv.real (Option.isSome_iff_ne_none.1 allowed), ?_, inv.seen⟩
    · intro j
      simpa [lag, inFlight, PostCall.owes] using inv.lanes j
  | poster here act =>
    rename_i n pre post c c' b
    have real := inv.real c (by simp [here])
    refine ⟨?_, ?_, ?_⟩
    · refine pool_all here inv.real ?_
      rw [(PostCall.step_invoked act .user).1]
      exact real
    · intro k
      rw [lag_poster here]
      apply PostCall.step_accounted act real
      intro j
      rw [Int.add_sub_cancel]
      exact inv.lanes j
    · intro w inside past
      have same : b.system.invoked = s.box.system.invoked := (PostCall.step_invoked act .system).2
      rw [same]
      exact inv.seen w inside past
  | dispatch here pc =>
    rename_i n pre post c
    refine ⟨?_, ?_, inv.seen⟩
    · have real := inv.real c (by simp [here])
      exact pool_all here inv.real real
    · intro k
      rw [lag_poster here]
      simpa [PostCall.owes, pc, inFlight] using inv.lanes k
  | start pending =>
    refine ⟨inv.real, ?_, ?_⟩
    · intro k
      obtain ⟨carries, owed⟩ := Worker.carried_processMessages (M := M) (h := h) k
      simpa [lag, inFlight, carries, owed] using inv.lanes k
    · refine pool_all_new inv.seen fun past => ?_
      simp [Worker.processMessages] at past
  | lose pending => exact ⟨inv.real, inv.lanes, inv.seen⟩
  | worker _ here act =>
    exact ⟨inv.real, lanes_worker excl inv here act, seen_worker excl inv here act⟩
  | raise here inside =>
    rename_i n pre post w
    refine ⟨inv.real, ?_, ?_⟩
    · intro k
      obtain ⟨carries, owed⟩ := Worker.idle_of_invoking inside k
      have own := inv.lanes k
      simp only [lag, inFlight, here, List.map_append, List.map_cons, List.flatMap_append, List.flatMap_cons, carries,
        owed] at own ⊢
      exact own
    · refine pool_all here inv.seen fun past => ?_
      simp [Worker.polled] at past

theorem delivery_run {ls : List (Label M)} {s : State M} (run : Machine.Run (step h) real init ls s) :
    Exclusive s ∧ Delivery s := by
  have kept := run.keeps delivery_keeps
  exact kept ⟨exclusive_init, delivery_init⟩

/-- At most one message is in flight. -/
theorem inFlight_le_one {s : State M} (excl : Exclusive s) (k : Kind) : (inFlight k s).length ≤ 1 := by
  cases none : s.calls.find? Worker.holds with
  | none =>
    have free : ∀ w ∈ s.calls, w.carried k = [] := fun w member =>
      (Worker.idle_of_not_holds (by simpa using List.find?_eq_none.1 none w member) k).1
    simp [inFlight, List.flatMap_eq_nil_iff.2 free]
  | some w =>
    obtain ⟨pre, post, here⟩ := List.append_of_mem (List.mem_of_find?_eq_some none)
    rw [inFlight_of_holds excl here (List.find?_some none)]
    unfold Worker.carried
    split
    · split <;> simp
    · split <;> simp
    · simp

/-- **FIFO without loss or duplication, system messages first.** In every state
reached by posting real messages, each queue's pushes are, in order, the messages
already invoked, at most one that is popped and about to be invoked, and the
queued rest; and a user message being invoked finds every system message pushed
before the system `Pop` of its iteration already invoked. -/
theorem fifo_delivery {ls : List (Label M)} {s : State M} (run : Machine.Run (step h) real init ls s) :
    (∀ k, (s.box.lane k).pushed = ((s.box.lane k).invoked ++ inFlight k s).map some ++ (s.box.lane k).queue ∧
      (inFlight k s).length ≤ 1 ∧ (s.box.lane k).invoked.map some <+: (s.box.lane k).pushed) ∧
    ∀ w ∈ s.calls, ∀ m, w.pc = .invoke .user m ∨ w.pc = .invoking .user m →
      w.seen <+: s.box.system.invoked.map some := by
  obtain ⟨excl, inv⟩ := delivery_run run
  refine ⟨fun k => ⟨(inv.lanes k).history, inFlight_le_one excl k, (inv.lanes k).invoked_initial⟩, ?_⟩
  intro w member m at_user
  have past : w.polled = true := by
    rcases at_user with pc | pc <;> simp [Worker.polled, pc]
  exact ⟨[], by rw [inv.seen w member past, List.append_nil]⟩

/-- A system message posted first, then a user message, up to the call of
`InvokeUserMessage`. -/
def systemThenUser : List (Label Nat) :=
  [.post .system (some 1), .poster 0, .poster 0, .poster 0, .poster 0, .post .user (some 2), .poster 1, .poster 1,
    .poster 1, .start] ++ List.replicate 8 (.worker 0)

/-- The state `systemThenUser` leads to. -/
def atUserInvoke : State Nat where
  box := ⟨⟨[], 0, [some 2], []⟩, ⟨[], 0, [some 1], [1]⟩, .running, 0⟩
  posts := [⟨.system, some 1, .returned⟩, ⟨.user, some 2, .returned⟩]
  scheduled := 0
  calls := [⟨.invoke .user 2, 0, 2, true, [some 1]⟩]

theorem fifo_delivery_systemThenUser : Machine.Run (step ⟨1⟩) real init systemThenUser atUserInvoke ∧
    (atUserInvoke.box.lane .user).pushed = ([] ++ [2]).map some ++ [] ∧
    [some 1] <+: atUserInvoke.box.system.invoked.map some := by
  have run : Machine.Run (step ⟨1⟩) real init systemThenUser atUserInvoke :=
    Machine.run_of_exec (by decide) (by decide)
  have delivered := fifo_delivery run
  exact ⟨run, (delivered.1 .user).1, delivered.2 _ (List.mem_singleton.2 rfl) 2 (.inl rfl)⟩

end Interleaving

end Protoactor.Actor
