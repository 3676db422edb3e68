import Mathlib.Data.List.TakeWhile
import Protoactor.Actor.Mailbox

/-!
# One call of `ProcessLoop`

The loop runs while others push messages and suspend the mailbox: the actor that it invokes, and other
threads. `i` is reset to `0` before it reaches `max_iterations`, so the test of the `while` does not end the
loop. What ends it is a look at the queues that finds nothing: whether there is one is a matter of what has
arrived.
-/

namespace Protoactor.Actor
set_option autoImplicit false

variable {M : Type}

/-- What others do during one iteration. What they push while a message is invoked is there at the next look. -/
structure Meanwhile (M : Type) where
  /-- pushed to `system_mailbox_` before its `Pop` -/
  system : List (Option M)
  /-- what `suspended_.load()` finds -/
  suspended : Int
  /-- pushed to `user_mailbox_` before its `Pop` -/
  user : List (Option M)
  deriving Repr

def Lane.arrive (l : Lane M) (items : List (Option M)) : Lane M := { l with queue := l.queue ++ items, pushed := l.pushed ++ items }

namespace Meanwhile

def pushSystem (e : Meanwhile M) (b : DefaultMailbox M) : DefaultMailbox M := { b with system := b.system.arrive e.system }

def suspend (e : Meanwhile M) (b : DefaultMailbox M) : DefaultMailbox M := { b with suspended := e.suspended }

def pushUser (e : Meanwhile M) (b : DefaultMailbox M) : DefaultMailbox M := { b with user := b.user.arrive e.user }

end Meanwhile

namespace ProcessLoop

/-- From the `fetch_sub` to the next test of the `while`, the handler having returned. -/
def invoke (h : Handlers) (s : DefaultMailbox M × Worker M) : Option (DefaultMailbox M × Worker M) := do
  let s ← s.2.step h s.1
  let s ← s.2.step h s.1
  s.2.step h s.1

/-- From one test of the `while` to the next, or to the return. -/
def iteration (h : Handlers) (e : Meanwhile M) (s : DefaultMailbox M × Worker M) : Option (DefaultMailbox M × Worker M) := do
  let (b, w) ← s.2.step h (e.pushSystem s.1)
  match w.pc with
  | .fetchSub _ _ => invoke h (e.pushUser b, w)
  | _ =>
    let (b, w) ← w.step h (e.suspend b)
    match w.pc with
    | .pop _ =>
      let (b, w) ← w.step h (e.pushUser b)
      match w.pc with
      | .fetchSub _ _ => invoke h (b, w)
      | _ => return (b, w)
    | _ => return (b, w)

/-- After that many iterations, or at the return. -/
def loop (h : Handlers) (feed : Nat → Meanwhile M) (b : DefaultMailbox M) (w : Worker M) : Nat → DefaultMailbox M × Worker M
  | 0 => (b, w.processLoop h)
  | k + 1 =>
    let s := loop h feed b w k
    match s.2.pc with
    | .storeIdle => s
    | _ => (iteration h (feed k) s).getD s

/-- The calls of `InvokeUserMessage` and `InvokeSystemMessage`. -/
def invocations (b : DefaultMailbox M) : Nat := b.user.invoked.length + b.system.invoked.length

/-- **The call returns** after at most `10 * throughput` messages. -/
def Bounded (h : Handlers) (feed : Nat → Meanwhile M) (b : DefaultMailbox M) (w : Worker M) : Prop :=
  ∃ k, (loop h feed b w k).2.pc = .storeIdle ∧
    (invocations (loop h feed b w k).1 : Int) ≤ invocations b + 10 * h.throughput

/-! ## One iteration -/

variable {h : Handlers} {e : Meanwhile M} {b : DefaultMailbox M} {w : Worker M}

/-- The look at the queues finds no message. -/
def Idle (e : Meanwhile M) (b : DefaultMailbox M) : Prop :=
  (Queue.pop (b.system.queue ++ e.system)).1 = none ∧ (e.suspended = 1 ∨ (Queue.pop (b.user.queue ++ e.user)).1 = none)

theorem invoke_eq {k : Kind} {m : M} (pc : w.pc = .fetchSub k m) :
    invoke h (b, w) = some ((b.setLane k (b.lane k).fetchSub).setLane k (((b.setLane k (b.lane k).fetchSub).lane k).invoke m),
      ({ w with pc := .invoking k m, processedAny := true } : Worker M).iterate h) := by
  simp only [invoke, Worker.step, pc, Option.bind_eq_bind, Option.bind_some]

/-- The system `Pop`. -/
theorem step_system (pc : w.pc = .pop .system) :
    w.step h (e.pushSystem b) =
      some ({ b with system := { b.system.arrive e.system with queue := (Queue.pop (b.system.queue ++ e.system)).2 } },
        ({ w with seen := b.system.pushed ++ e.system } : Worker M).popped .system (Queue.pop (b.system.queue ++ e.system)).1) := by
  simp only [Worker.step, pc, if_true]
  rfl

/-- The user `Pop`. -/
theorem step_user (item : Option M) (pc : w.pc = .pop .user) (found : (Queue.pop (b.user.queue ++ e.user)).1 = item) :
    w.step h (e.pushUser b) =
      some ({ b with user := { b.user.arrive e.user with queue := (Queue.pop (b.user.queue ++ e.user)).2 } },
        w.popped .user item) := by
  rw [← found]
  simp only [Worker.step, pc, reduceCtorEq, if_false]
  rfl

/-- The load between them. -/
theorem step_suspended (pc : w.pc = .checkSuspended) :
    w.step h (e.suspend b) = some (e.suspend b, { w with pc := if e.suspended = 1 then .storeIdle else .pop .user }) := by
  simp only [Worker.step, pc]
  rfl

theorem invocations_invoke (k : Kind) (m : M) (b : DefaultMailbox M) :
    invocations ((b.setLane k (b.lane k).fetchSub).setLane k (((b.setLane k (b.lane k).fetchSub).lane k).invoke m)) = invocations b + 1 := by
  rw [DefaultMailbox.lane_setLane]
  cases k with
  | user =>
    show (b.user.invoked ++ [m]).length + b.system.invoked.length = b.user.invoked.length + b.system.invoked.length + 1
    rw [List.length_append, List.length_singleton]
    omega
  | system =>
    show b.user.invoked.length + (b.system.invoked ++ [m]).length = b.user.invoked.length + b.system.invoked.length + 1
    rw [List.length_append, List.length_singleton]
    omega

theorem iteration_idle (pc : w.pc = .pop .system) (idle : Idle e b) :
    ∃ s, iteration h e (b, w) = some s ∧ s.2.pc = .storeIdle ∧ invocations s.1 = invocations b := by
  obtain ⟨nothing, rest⟩ := idle
  simp only [iteration, step_system pc, nothing, Worker.popped, Option.bind_eq_bind, Option.bind_some]
  rw [step_suspended rfl]
  by_cases suspended : e.suspended = 1
  · simp only [suspended, if_true, Option.bind_some]
    exact ⟨_, rfl, rfl, rfl⟩
  · simp only [suspended, if_false, Option.bind_some]
    rw [step_user none rfl]
    · exact ⟨_, rfl, rfl, rfl⟩
    · exact rest.resolve_left suspended

/-- What is left of the user queue when a message has been found. -/
def leftUser (e : Meanwhile M) (b : DefaultMailbox M) : Queue M :=
  match (Queue.pop (b.system.queue ++ e.system)).1 with
  | some _ => b.user.queue ++ e.user
  | none => (Queue.pop (b.user.queue ++ e.user)).2

theorem iteration_busy (pc : w.pc = .pop .system) (busy : ¬ Idle e b) :
    ∃ (b' : DefaultMailbox M) (w' : Worker M), iteration h e (b, w) = some (b', w'.iterate h) ∧ w'.i = w.i ∧ invocations b' = invocations b + 1 ∧
      b'.system.queue = (Queue.pop (b.system.queue ++ e.system)).2 ∧ b'.user.queue = leftUser e b := by
  unfold leftUser
  simp only [iteration, step_system pc, Option.bind_eq_bind, Option.bind_some]
  cases found : (Queue.pop (b.system.queue ++ e.system)).1 with
  | some m =>
    simp only [Worker.popped]
    rw [invoke_eq rfl]
    exact ⟨_, _, rfl, rfl, invocations_invoke _ m _, rfl, rfl⟩
  | none =>
    have more : ¬ (e.suspended = 1 ∨ (Queue.pop (b.user.queue ++ e.user)).1 = none) := fun rest => busy ⟨found, rest⟩
    obtain ⟨suspended, waiting⟩ := not_or.1 more
    obtain ⟨m, found⟩ := Option.ne_none_iff_exists'.1 waiting
    simp only [Worker.popped]
    rw [step_suspended rfl]
    simp only [suspended, if_false, Option.bind_some]
    rw [step_user (some m) rfl]
    rotate_left
    · exact found
    simp only [Worker.popped, Option.bind_some]
    rw [invoke_eq rfl]
    exact ⟨_, _, rfl, rfl, invocations_invoke _ m _, rfl, rfl⟩

/-! ## What has arrived -/

/-- All that has been in the system queue up to the `k`-th look. -/
def systemIn (feed : Nat → Meanwhile M) (b : DefaultMailbox M) : Nat → List (Option M)
  | 0 => b.system.queue ++ (feed 0).system
  | k + 1 => systemIn feed b k ++ (feed (k + 1)).system

def userIn (feed : Nat → Meanwhile M) (b : DefaultMailbox M) : Nat → List (Option M)
  | 0 => b.user.queue ++ (feed 0).user
  | k + 1 => userIn feed b k ++ (feed (k + 1)).user

/-- How many items the system queue has given up before the `k`-th look: one at each look that found some. -/
def taken (feed : Nat → Meanwhile M) (b : DefaultMailbox M) : Nat → Nat
  | 0 => 0
  | k + 1 => min (taken feed b k + 1) (systemIn feed b k).length

/-- The items that are no null pointers. -/
def messages (items : List (Option M)) : Nat := items.countP Option.isSome

/-- Those in front of the first null pointer, which looks like the end of the queue. -/
def leading (items : List (Option M)) : Nat := (items.takeWhile Option.isSome).length

/-- At the `k`-th look no system message is left, and the mailbox is suspended or the `k` messages that have been
taken are all there are. -/
def Dry (feed : Nat → Meanwhile M) (b : DefaultMailbox M) (k : Nat) : Prop :=
  ((systemIn feed b k)[taken feed b k]?).join = none ∧
    ((feed k).suspended = 1 ∨ leading (userIn feed b k) + messages ((systemIn feed b k).take (taken feed b k)) ≤ k)

section Items

variable (items more : List (Option M)) {n : Nat}

theorem pop_drop (n : Nat) : (Queue.pop (items.drop n)).1 = items[n]?.join := by
  rw [← List.head?_drop]
  cases items.drop n <;> rfl

theorem pop_drop_left (bound : n ≤ items.length) : (Queue.pop (items.drop n)).2 = items.drop (min (n + 1) items.length) := by
  have tail : (Queue.pop (items.drop n)).2 = items.drop (n + 1) := by
    rw [← List.tail_drop]
    cases items.drop n <;> rfl
  rw [tail]
  by_cases last : n = items.length
  · rw [last, Nat.min_eq_right (by omega), List.drop_length, List.drop_of_length_le (by omega)]
  · rw [Nat.min_eq_left (by omega)]

theorem messages_take (n : Nat) : messages (items.take (min (n + 1) items.length)) =
    messages (items.take n) + if items[n]?.join.isSome then 1 else 0 := by
  unfold messages
  by_cases inside : n < items.length
  · rw [Nat.min_eq_left (by omega), List.take_add_one, List.countP_append, List.getElem?_eq_getElem inside]
    cases items[n] <;> simp
  · rw [Nat.min_eq_right (by omega), List.take_length, List.take_of_length_le (by omega), List.getElem?_eq_none (by omega)]
    rfl

theorem leading_le_length : leading items ≤ items.length := (List.takeWhile_sublist _).length_le

theorem leading_le_append : leading items ≤ leading (items ++ more) := by
  unfold leading
  induction items with
  | nil => exact Nat.zero_le _
  | cons item items ih =>
    cases item with
    | none => exact Nat.zero_le _
    | some m => exact Nat.succ_le_succ ih

/-- The first item that is no message is the one after those. -/
theorem leading_le_iff (bound : n ≤ leading items) : items[n]?.join = none ↔ leading items ≤ n := by
  induction items generalizing n with
  | nil => exact iff_of_true rfl (Nat.zero_le _)
  | cons item items ih =>
    cases item with
    | none =>
      obtain rfl : n = 0 := Nat.le_zero.1 bound
      exact iff_of_true rfl (Nat.zero_le _)
    | some m =>
      cases n with
      | zero => exact iff_of_false nofun (Nat.not_succ_le_zero _)
      | succ n => exact (ih (Nat.le_of_succ_le_succ bound)).trans Nat.succ_le_succ_iff.symm

end Items

variable {feed : Nat → Meanwhile M} {b₀ : DefaultMailbox M} {k : Nat}

theorem taken_le (feed : Nat → Meanwhile M) (b : DefaultMailbox M) (k : Nat) : taken feed b k ≤ (systemIn feed b k).length := by
  cases k with
  | zero => exact Nat.zero_le _
  | succ k =>
    rw [systemIn, taken, List.length_append]
    omega

/-- The mailbox before the `k`-th look: what is in it, with what is pushed then, is what has arrived and not been taken. -/
structure Look (feed : Nat → Meanwhile M) (b₀ : DefaultMailbox M) (k : Nat) (b : DefaultMailbox M) : Prop where
  system : b.system.queue ++ (feed k).system = (systemIn feed b₀ k).drop (taken feed b₀ k)
  user : ∃ u, u + messages ((systemIn feed b₀ k).take (taken feed b₀ k)) = k ∧ u ≤ leading (userIn feed b₀ k) ∧
    b.user.queue ++ (feed k).user = (userIn feed b₀ k).drop u

theorem look_zero (feed : Nat → Meanwhile M) (b : DefaultMailbox M) : Look feed b 0 b := ⟨rfl, 0, rfl, Nat.zero_le _, rfl⟩

theorem idle_iff (look : Look feed b₀ k b) : Idle (feed k) b ↔ Dry feed b₀ k := by
  obtain ⟨system, u, sum, bound, user⟩ := look
  unfold Idle Dry
  rw [system, user, pop_drop, pop_drop, leading_le_iff _ bound]
  refine and_congr_right fun _ => or_congr_right ?_
  omega

theorem look_succ {b' : DefaultMailbox M} (look : Look feed b₀ k b) (busy : ¬ Idle (feed k) b)
    (system' : b'.system.queue = (Queue.pop (b.system.queue ++ (feed k).system)).2) (user' : b'.user.queue = leftUser (feed k) b) :
    Look feed b₀ (k + 1) b' := by
  have bound := taken_le feed b₀ k
  obtain ⟨system, u, sum, front, user⟩ := look
  have count : messages ((systemIn feed b₀ (k + 1)).take (taken feed b₀ (k + 1))) =
      messages ((systemIn feed b₀ k).take (taken feed b₀ k)) + if (systemIn feed b₀ k)[taken feed b₀ k]?.join.isSome then 1 else 0 := by
    rw [systemIn, taken, List.take_append_of_le_length (Nat.min_le_right _ _), messages_take]
  have grows := leading_le_append (userIn feed b₀ k) (feed (k + 1)).user
  have short := leading_le_length (userIn feed b₀ k)
  refine ⟨?_, ?_⟩
  · rw [system', system, pop_drop_left _ bound, systemIn, taken, List.drop_append_of_le_length (Nat.min_le_right _ _)]
  · rw [count, user']
    unfold leftUser
    rw [Idle, system, user, pop_drop, pop_drop, leading_le_iff _ front] at busy
    rw [system, user, pop_drop]
    cases found : (systemIn feed b₀ k)[taken feed b₀ k]?.join with
    | some m =>
      refine ⟨u, ?_, Nat.le_trans front grows, ?_⟩
      · show u + (messages ((systemIn feed b₀ k).take (taken feed b₀ k)) + 1) = k + 1
        omega
      · rw [userIn, List.drop_append_of_le_length (Nat.le_trans front short)]
    | none =>
      have waiting : u < leading (userIn feed b₀ k) := by
        by_contra all
        exact busy ⟨found, .inr (by omega)⟩
      refine ⟨u + 1, ?_, Nat.lt_of_lt_of_le waiting grows, ?_⟩
      · show u + 1 + (messages ((systemIn feed b₀ k).take (taken feed b₀ k)) + 0) = k + 1
        omega
      · rw [userIn, List.drop_append_of_le_length (by omega), pop_drop_left _ (by omega), Nat.min_eq_left (by omega)]

/-! ## The loop -/

theorem loop_returned {n : Nat} (pc : (loop h feed b₀ w n).2.pc = .storeIdle) : loop h feed b₀ w (n + 1) = loop h feed b₀ w n := by
  simp only [loop, pc]

theorem loop_idle {n : Nat} (pc : (loop h feed b₀ w n).2.pc = .pop .system) (idle : Idle (feed n) (loop h feed b₀ w n).1) :
    (loop h feed b₀ w (n + 1)).2.pc = .storeIdle ∧
      invocations (loop h feed b₀ w (n + 1)).1 = invocations (loop h feed b₀ w n).1 := by
  obtain ⟨s, ran, ended, same⟩ := iteration_idle (h := h) pc idle
  simp only [loop, pc, ran, Option.getD_some]
  exact ⟨ended, same⟩

theorem loop_busy {n : Nat} (pc : (loop h feed b₀ w n).2.pc = .pop .system) (busy : ¬ Idle (feed n) (loop h feed b₀ w n).1) :
    ∃ w' : Worker M, (loop h feed b₀ w (n + 1)).2 = w'.iterate h ∧ w'.i = (loop h feed b₀ w n).2.i ∧
      invocations (loop h feed b₀ w (n + 1)).1 = invocations (loop h feed b₀ w n).1 + 1 ∧
      (Look feed b₀ n (loop h feed b₀ w n).1 → Look feed b₀ (n + 1) (loop h feed b₀ w (n + 1)).1) := by
  obtain ⟨b', w', ran, i, more, system, user⟩ := iteration_busy (h := h) pc busy
  simp only [loop, pc, ran, Option.getD_some]
  exact ⟨w', rfl, i, more, fun look => look_succ look busy system user⟩

/-- `i` is reset before it reaches `max_iterations`. -/
theorem iterate_reset (one : 1 ≤ h.throughput) (above : h.throughput + 1 < maxIterations h) {w : Worker M} (i : w.i ≤ h.throughput + 1) :
    (w.iterate h).pc = .pop .system ∧ (w.iterate h).i ≤ h.throughput + 1 := by
  have more : w.i < maxIterations h := by omega
  simp only [Worker.iterate, more, if_true, true_and]
  split <;> omega

/-- **Only a look that finds nothing ends the loop.** -/
theorem loop_cases (one : 1 ≤ h.throughput) (above : h.throughput + 1 < maxIterations h) (feed : Nat → Meanwhile M)
    (b₀ : DefaultMailbox M) (w : Worker M) (n : Nat) :
    ((loop h feed b₀ w n).2.pc = .pop .system ∧ (loop h feed b₀ w n).2.i ≤ h.throughput + 1 ∧ Look feed b₀ n (loop h feed b₀ w n).1 ∧
        invocations (loop h feed b₀ w n).1 = invocations b₀ + n ∧ ∀ k < n, ¬ Dry feed b₀ k) ∨
      ((loop h feed b₀ w n).2.pc = .storeIdle ∧ ∃ k < n, Dry feed b₀ k ∧
        invocations (loop h feed b₀ w n).1 = invocations b₀ + k ∧ ∀ j < k, ¬ Dry feed b₀ j) := by
  induction n with
  | zero =>
    have low : ({ w with i := 0, processedAny := false } : Worker M).i ≤ h.throughput + 1 := by
      show (0 : Int) ≤ h.throughput + 1
      omega
    obtain ⟨pc, i⟩ := iterate_reset one above low
    exact .inl ⟨pc, i, look_zero feed b₀, rfl, nofun⟩
  | succ n ih =>
    rcases ih with ⟨pc, i, look, count, none⟩ | ⟨pc, k, before, found⟩
    · by_cases idle : Idle (feed n) (loop h feed b₀ w n).1
      · obtain ⟨ended, same⟩ := loop_idle pc idle
        exact .inr ⟨ended, n, by omega, (idle_iff look).1 idle, same.trans count, none⟩
      · obtain ⟨w', next, i', more, looks⟩ := loop_busy pc idle
        obtain ⟨pc', low⟩ := iterate_reset one above (i'.symm ▸ i)
        refine .inl ⟨next ▸ pc', next ▸ low, looks look, by omega, fun k before => ?_⟩
        rcases Nat.lt_succ_iff_lt_or_eq.1 before with earlier | rfl
        · exact none k earlier
        · exact fun dry => idle ((idle_iff look).2 dry)
    · rw [loop_returned pc]
      exact .inr ⟨pc, k, by omega, found⟩

/-- Where `throughput * 10` has wrapped to a small number the test of the `while` ends the loop. -/
theorem loop_counted (one : 1 ≤ h.throughput) (small : maxIterations h ≤ h.throughput + 1) (n : Nat) :
    ((loop h feed b₀ w n).2.pc = .pop .system ∧ (loop h feed b₀ w n).2.i = n + 1 ∧ n < maxIterations h ∧
        invocations (loop h feed b₀ w n).1 = invocations b₀ + n) ∨
      ((loop h feed b₀ w n).2.pc = .storeIdle ∧
        (invocations (loop h feed b₀ w n).1 : Int) ≤ invocations b₀ + max 0 (maxIterations h)) := by
  induction n with
  | zero =>
    by_cases more : (0 : Int) < maxIterations h
    · refine .inl ⟨?_, ?_, more, rfl⟩
      · simp only [loop, Worker.processLoop, Worker.iterate, more, if_true]
      · simp only [loop, Worker.processLoop, Worker.iterate, more, if_true]
        rw [if_neg (by omega)]
        rfl
    · refine .inr ⟨?_, ?_⟩
      · simp only [loop, Worker.processLoop, Worker.iterate, more, if_false]
      · simp only [loop]
        omega
  | succ n ih =>
    rcases ih with ⟨pc, i, below, count⟩ | ⟨pc, few⟩
    · by_cases idle : Idle (feed n) (loop h feed b₀ w n).1
      · obtain ⟨ended, same⟩ := loop_idle pc idle
        refine .inr ⟨ended, ?_⟩
        omega
      · obtain ⟨w', next, i', more, -⟩ := loop_busy pc idle
        rw [next]
        by_cases again : w'.i < maxIterations h
        · refine .inl ⟨?_, ?_, ?_, by omega⟩
          · simp only [Worker.iterate, again, if_true]
          · simp only [Worker.iterate, again, if_true]
            rw [if_neg (by omega)]
            omega
          · omega
        · refine .inr ⟨?_, ?_⟩
          · simp only [Worker.iterate, again, if_false]
          · omega
    · rw [loop_returned pc]
      exact .inr ⟨pc, few⟩

theorem messages_of_real {items : List (Option M)} (real : none ∉ items) : messages items = items.length ∧ leading items = items.length := by
  have all : ∀ item ∈ items, item.isSome = true := fun item inside => Option.isSome_iff_ne_none.2 fun null => real (null ▸ inside)
  exact ⟨List.countP_eq_length.2 all, congrArg List.length (List.takeWhile_eq_self_iff.2 all)⟩

/-- Without null pointers and suspensions: some look finds nothing if at some look no more has arrived than has been taken. -/
theorem exists_dry_iff {n : Int} (real : ∀ k, none ∉ systemIn feed b₀ k ∧ none ∉ userIn feed b₀ k) (active : ∀ k, (feed k).suspended ≠ 1) :
    (∃ k : Nat, k ≤ n ∧ Dry feed b₀ k) ↔ ∃ k : Nat, k ≤ n ∧ (systemIn feed b₀ k).length + (userIn feed b₀ k).length ≤ k := by
  constructor
  · rintro ⟨k, few, last, rest⟩
    obtain ⟨system, user⟩ := real k
    have all : (systemIn feed b₀ k).length ≤ taken feed b₀ k := by
      by_contra more
      rw [List.getElem?_eq_getElem (by omega), Option.join_some] at last
      exact system (last ▸ List.getElem_mem _)
    have counts := rest.resolve_left (active k)
    rw [List.take_of_length_le all, (messages_of_real system).1, (messages_of_real user).2] at counts
    exact ⟨k, few, by omega⟩
  · rintro ⟨k, few, sum⟩
    obtain ⟨system, user⟩ := real k
    rcases loop_cases (h := ⟨1⟩) (by decide) (by decide) feed b₀ ⟨.returned, 0, 0, false, []⟩ k with
      ⟨-, -, ⟨-, u, count, front, -⟩, -⟩ | ⟨-, j, before, dry, -⟩
    · have low := taken_le feed b₀ k
      have most := List.countP_le_length (p := Option.isSome) (l := (systemIn feed b₀ k).take (taken feed b₀ k))
      rw [List.length_take] at most
      rw [(messages_of_real user).2] at front
      unfold messages at count
      have all : taken feed b₀ k = (systemIn feed b₀ k).length := by omega
      refine ⟨k, few, ?_, .inr ?_⟩
      · rw [all, List.getElem?_eq_none (Nat.le_refl _)]
        rfl
      · rw [all, List.take_length, (messages_of_real system).1, (messages_of_real user).2]
        omega
    · exact ⟨j, by omega, dry⟩

/-- **The loop is bounded** exactly if a look finds nothing in time, or `max_iterations` has wrapped. -/
theorem bounded_iff (one : 1 ≤ h.throughput) (feed : Nat → Meanwhile M) (b : DefaultMailbox M) (w : Worker M) :
    Bounded h feed b w ↔ maxIterations h ≤ h.throughput + 1 ∨ ∃ k : Nat, k ≤ 10 * h.throughput ∧ Dry feed b k := by
  by_cases small : maxIterations h ≤ h.throughput + 1
  · refine iff_of_true ⟨(maxIterations h).toNat, ?_⟩ (.inl small)
    rcases loop_counted one small (maxIterations h).toNat with ⟨-, -, below, -⟩ | ⟨pc, few⟩
    · omega
    · exact ⟨pc, by omega⟩
  · rw [or_iff_right small]
    have above : h.throughput + 1 < maxIterations h := by omega
    constructor
    · rintro ⟨n, pc, few⟩
      rcases loop_cases one above feed b w n with ⟨pc', -⟩ | ⟨-, k, -, dry, count, -⟩
      · cases pc.symm.trans pc'
      · exact ⟨k, by omega, dry⟩
    · rintro ⟨k, few, dry⟩
      refine ⟨k + 1, ?_⟩
      rcases loop_cases one above feed b w (k + 1) with ⟨-, -, -, -, none⟩ | ⟨pc, j, before, -, count, -⟩
      · exact absurd dry (none k (Nat.lt_succ_self k))
      · exact ⟨pc, by omega⟩

theorem bounded_iff_empty : Bounded ⟨300⟩ (fun _ => ⟨[], 0, []⟩) (.new : DefaultMailbox Nat) ⟨.returned, 0, 0, false, []⟩ :=
  (bounded_iff (by decide) _ _ _).2 (.inr ⟨0, by decide, rfl, .inr (by decide)⟩)

/-! ### An actor that sends itself a message for each message -/

def echo : Nat → Meanwhile Nat := fun _ => ⟨[], 0, [some 0]⟩

theorem echo_userIn (k : Nat) : userIn echo .new k = List.replicate (k + 1) (some 0) := by
  induction k with
  | zero => rfl
  | succ k ih =>
    rw [userIn, ih]
    exact List.replicate_succ'.symm

theorem echo_not_dry (k : Nat) : ¬ Dry echo .new k := by
  rintro ⟨-, suspended | few⟩
  · cases suspended
  · rw [echo_userIn, leading, List.takeWhile_replicate] at few
    have more : (List.replicate (k + 1) (some 0)).length ≤ k := Nat.le_trans (Nat.le_add_right _ _) few
    rw [List.length_replicate] at more
    omega

/-- It is invoked for ever. -/
theorem not_bounded : ¬ Bounded ⟨1⟩ echo .new ⟨.returned, 0, 0, false, []⟩ ∧
    ∀ n, (loop ⟨1⟩ echo .new ⟨.returned, 0, 0, false, []⟩ n).2.pc = .pop .system ∧
      invocations (loop ⟨1⟩ echo .new ⟨.returned, 0, 0, false, []⟩ n).1 = n := by
  have going : ∀ n, (loop ⟨1⟩ echo .new ⟨.returned, 0, 0, false, []⟩ n).2.pc = .pop .system ∧
      invocations (loop ⟨1⟩ echo .new ⟨.returned, 0, 0, false, []⟩ n).1 = n := by
    intro n
    rcases loop_cases (h := ⟨1⟩) (by decide) (by decide) echo .new ⟨.returned, 0, 0, false, []⟩ n with
      ⟨pc, -, -, count, -⟩ | ⟨-, k, -, dry, -⟩
    · exact ⟨pc, by rw [count]; exact Nat.zero_add n⟩
    · exact absurd dry (echo_not_dry k)
  refine ⟨?_, going⟩
  rintro ⟨n, pc, -⟩
  cases pc.symm.trans (going n).1

end ProcessLoop

end Protoactor.Actor
