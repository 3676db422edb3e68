import Protoactor.Actor.ThreadPool.Notified

/-!
# `Shutdown` returns (`src/actor/thread_pool.cpp`)

Once the pool is stopped no worker waits any more, so each of them empties the queue and leaves, and
the one call that joins gets past them all; only the call of a task on its own thread throws. How far
that is from the end is a number that every step lowers (`rank`), and where no step is left to make
nothing is left to do.
-/

namespace Protoactor.Actor.ThreadPool
set_option autoImplicit false
open Lib

variable {T : Type} {s t : ThreadPool T}

/-- A step of a worker, or of a call that joins. -/
def Signal.own : Signal T → Bool
  | .step (.join _) | .step (.lock _) | .step (.wake _) | .step (.run _) | .step (.finish _ _) => true
  | _ => false

/-- The steps to the end of a worker that finds no further task. -/
def Worker.rest : Worker T → Nat
  | .asleep => 2
  | .ready => 1
  | .taken _ _ => 3
  | .running _ _ => 2
  | .returned => 0

/-- The steps to the end of a call, with so many threads to join. -/
def Caller.rest (threads : Nat) (c : Caller) : Nat :=
  match c.phase with
  | .joining k => threads + 1 - k
  | _ => 0

/-- A bound for the steps that a stopped pool can make: a task costs three, to pop it, to begin and to end it. -/
def rank (s : ThreadPool T) : Nat :=
  3 * s.queue.length + (s.workers.map Worker.rest).sum + (s.callers.map (Caller.rest s.workers.length)).sum

/-- Only the first call joins. -/
def OneJoins (s : ThreadPool T) : Prop := ∀ n c, s.callers[n]? = some c → c.phase.isOpen = true → n = 0

theorem keeps_oneJoins : Machine.Keeps step Machine.free fun s : ThreadPool T => FirstCall s ∧ OneJoins s := by
  refine keeps_firstCall.with fun s l s' first one _ moved => ?_
  have added : ∀ (worker : Option Nat) (phase : CallPhase), (phase.isOpen = true → s.callers = []) →
      ∀ n c, (s.callers ++ [⟨worker, phase⟩])[n]? = some c → c.phase.isOpen = true → n = 0 := by
    intro worker phase first_ n c here up
    rcases Nat.lt_or_ge n s.callers.length with before | after
    · rw [List.getElem?_append_left before] at here
      exact one n c here up
    · rw [List.getElem?_append_right after, List.getElem?_singleton] at here
      split at here
      · cases here
        have none_ : s.callers.length = 0 := by rw [first_ up, List.length_nil]
        omega
      · cases here
  have nobody : s.stop = false → s.callers = [] := by
    intro open_
    cases none_ : s.callers with
    | nil => rfl
    | cons =>
      have stopped := first.called.2 (by simp [none_])
      rw [open_] at stopped
      cases stopped
  have written : ∀ {n : Nat} {a : Caller} (b : Caller), s.callers[n]? = some a → a.phase.isOpen = true →
      ∀ m c, (s.callers.set n b)[m]? = some c → c.phase.isOpen = true → m = 0 := by
    intro n a b caller was m c here up
    by_cases own : n = m
    · subst own
      exact one n a caller was
    · rw [List.getElem?_set_ne own] at here
      exact one m c here up
  cases change_of_step moved with
  | refuse | accept | sleep | leave | pop | wake | run | finish => exact one
  | shutdown worker open_ | shutdownNow worker open_ => exact added worker _ fun _ => nobody open_
  | late worker l call stopped => exact added worker _ fun up => by cases up
  | join c k worker caller => exact written _ caller rfl
  | joinEnd c k worker caller => exact written _ caller rfl
  | joinSelf c k caller => exact written _ caller rfl

/-- What a run of the pool has, with or without notifications. -/
structure Sane (s : ThreadPool T) : Prop where
  manned : Manned s
  first : FirstCall s
  one : OneJoins s
  served : Served s

theorem sane_run {numThreads : Nat} {cpuCount : Int} {signals : List (Signal T)}
    (run : Machine.Run notifying Machine.free (new numThreads cpuCount) signals s) : Sane s := by
  obtain ⟨first, one⟩ := run.keeps (keeps_notifying keeps_oneJoins) ⟨FirstCall.start numThreads cpuCount, nofun⟩
  exact ⟨run.keeps (keeps_notifying keeps_manned) (Manned.start numThreads cpuCount), first, one,
    run.keeps keeps_served (Served.start numThreads cpuCount)⟩

theorem Sane.step {signal : Signal T} (sane : Sane s) (moved : notifying s signal = some t) : Sane t := by
  obtain ⟨first, one⟩ := keeps_notifying keeps_oneJoins s signal t ⟨sane.first, sane.one⟩ True.intro moved
  exact ⟨keeps_notifying keeps_manned s signal t sane.manned True.intro moved, first, one,
    keeps_served s signal t sane.served True.intro moved⟩

/-- A step of a worker or of a call that joins is one of the other machine, and leaves `stop_` set. -/
theorem step_of_own {signal : Signal T} (own : signal.own = true) (moved : notifying s signal = some t) :
    ∃ l, signal = .step l ∧ step s l = some t := by
  cases signal with
  | submit => cases own
  | step l =>
    refine ⟨l, rfl, ?_⟩
    cases l with
    | submit | shutdown | shutdownNow => cases own
    | join | lock | wake | run | finish => exact moved

/-- The call that joins is not past the last thread. -/
theorem Sane.joins (sane : Sane s) {n k : Nat} {worker : Option Nat} (caller : s.callers[n]? = some ⟨worker, .joining k⟩) :
    k ≤ s.workers.length := by
  have zero := sane.one n _ caller rfl
  subst zero
  have gone := (sane.first.first _ caller).joined k rfl
  rcases Nat.lt_or_ge s.workers.length k with past | within
  · have none_ := gone s.workers.length past
    rw [List.getElem?_eq_none (Nat.le_refl _)] at none_
    cases none_
  · exact within

/-- **Every step goes towards the end.** -/
theorem rank_own (sane : Sane s) (stop : s.stop = true) {signal : Signal T} (own : signal.own = true)
    (moved : notifying s signal = some t) : rank t < rank s ∧ t.stop = true := by
  obtain ⟨l, rfl, stepped⟩ := step_of_own own moved
  have calls : ∀ {n : Nat} {a : Caller} (b : Caller), s.callers[n]? = some a →
      b.rest s.workers.length < a.rest s.workers.length →
      ((s.callers.set n b).map (Caller.rest s.workers.length)).sum < (s.callers.map (Caller.rest s.workers.length)).sum := by
    intro n a b caller less
    have sum := pool_sum caller b (Caller.rest s.workers.length)
    omega
  have works : ∀ {w : Nat} {a : Worker T} (b : Worker T), s.workers[w]? = some a →
      ((s.workers.set w b).map Worker.rest).sum + a.rest = (s.workers.map Worker.rest).sum + b.rest :=
    fun b worker => pool_sum worker b Worker.rest
  unfold rank
  cases change_of_step stepped with
  | refuse | accept | shutdown | shutdownNow => cases own
  | late worker l call =>
    rcases call with rfl | rfl
    · cases own
    · cases own
  | sleep w worker empty open_ =>
    rw [stop] at open_
    cases open_
  | join c k worker caller =>
    have within := sane.joins caller
    refine ⟨?_, stop⟩
    have less := calls ⟨worker, .joining (k + 1)⟩ caller (by simp only [Caller.rest]; omega)
    dsimp only
    omega
  | joinEnd c k worker caller =>
    have within := sane.joins caller
    refine ⟨?_, stop⟩
    have less := calls ⟨worker, .returned⟩ caller (by simp only [Caller.rest]; omega)
    dsimp only
    omega
  | joinSelf c k caller =>
    have within := sane.joins caller
    refine ⟨?_, stop⟩
    have less := calls ⟨some k, .threw⟩ caller (by simp only [Caller.rest]; omega)
    dsimp only
    omega
  | leave w worker =>
    have sum := works .returned worker
    simp only [Worker.rest, List.length_set] at sum ⊢
    exact ⟨by omega, stop⟩
  | pop w task queue worker head =>
    have sum := works (.taken s.left.length task) worker
    simp only [Worker.rest, List.length_set, head, List.length_cons] at sum ⊢
    exact ⟨by omega, stop⟩
  | wake w worker =>
    have sum := works .ready worker
    simp only [Worker.rest, List.length_set] at sum ⊢
    exact ⟨by omega, stop⟩
  | run w n task worker =>
    have sum := works (.running n task) worker
    simp only [Worker.rest, List.length_set] at sum ⊢
    exact ⟨by omega, stop⟩
  | finish w n task threw worker =>
    have sum := works .ready worker
    simp only [Worker.rest, List.length_set] at sum ⊢
    exact ⟨by omega, stop⟩

/-- No step is left for a worker or for a call that joins. -/
def Stuck (s : ThreadPool T) : Prop := ∀ signal : Signal T, signal.own = true → notifying s signal = none

/-- The call that a worker at a task cannot go on for. -/
theorem blocked_of_stuck (stuck : Stuck s) {w n : Nat} {task : T} (here : s.workers[w]? = some (.running n task)) :
    ∃ c ∈ s.callers, c.worker = some w ∧ c.phase.isOpen = true := by
  have none_ : step s (.finish w false) = none := stuck (.step (.finish w false)) rfl
  simp only [step, here] at none_
  split at none_
  · cases none_
  · rename_i busy
    simpa [available, here] using busy

/-- **Where no step is left** all workers are gone, and the first call is over. -/
theorem gone_of_stuck (sane : Sane s) (stop : s.stop = true) (stuck : Stuck s) :
    (∀ w ∈ s.workers, w = .returned) ∧ ∃ c, s.callers[0]? = some c ∧ c.phase.isOpen = false := by
  have joins : ∀ {k : Nat} {worker : Option Nat}, s.callers[0]? = some ⟨worker, .joining k⟩ →
      ∃ a, s.workers[k]? = some a ∧ a ≠ .returned ∧ worker ≠ some k := by
    intro k worker caller
    have none_ : step s (.join 0) = none := stuck (.step (.join 0)) rfl
    simp only [step, caller] at none_
    split at none_
    · cases none_
    · cases none_
    · rename_i a other here
      split at none_
      · cases none_
      · exact ⟨a, here, other, ‹_›⟩
  have awake : ∀ {w : Nat} {a : Worker T}, s.workers[w]? = some a → a = .returned ∨ ∃ n task, a = .running n task := by
    intro w a here
    cases a with
    | ready =>
      have none_ : step s (.lock w) = none := stuck (.step (.lock w)) rfl
      simp only [step, here] at none_
      cases none_
    | asleep =>
      have none_ : step s (.wake w) = none := stuck (.step (.wake w)) rfl
      simp only [step, here] at none_
      cases none_
    | taken n task =>
      have none_ : step s (.run w) = none := stuck (.step (.run w)) rfl
      simp only [step, here] at none_
      cases none_
    | running n task => exact .inr ⟨n, task, rfl⟩
    | returned => exact .inl rfl
  -- a task that does not end is in the call that joins, which waits for another task that does not end
  have idle : ∀ {w n : Nat} {task : T}, s.workers[w]? ≠ some (.running n task) := by
    intro w n task here
    obtain ⟨c, member, worker, up⟩ := blocked_of_stuck stuck here
    obtain ⟨i, at_⟩ := List.mem_iff_getElem?.1 member
    have zero := sane.one i c at_ up
    subst zero
    obtain ⟨own, phase⟩ := c
    cases phase with
    | returned | threw => cases up
    | joining k =>
      obtain ⟨a, there, present, other⟩ := joins at_
      rcases awake there with gone | ⟨m, next, running⟩
      · exact present gone
      · subst running
        obtain ⟨c', member', worker', up'⟩ := blocked_of_stuck stuck there
        obtain ⟨j, at'⟩ := List.mem_iff_getElem?.1 member'
        have zero' := sane.one j c' at' up'
        subst zero'
        rw [at_] at at'
        cases at'
        exact other worker'
  have gone : ∀ w ∈ s.workers, w = .returned := by
    intro w member
    obtain ⟨i, here⟩ := List.mem_iff_getElem?.1 member
    rcases awake here with gone | ⟨n, task, running⟩
    · exact gone
    · subst running
      exact absurd here idle
  refine ⟨gone, ?_⟩
  obtain ⟨c, rest, some_⟩ := List.exists_cons_of_ne_nil (sane.first.called.1 stop)
  have here : s.callers[0]? = some c := by simp [some_]
  refine ⟨c, here, ?_⟩
  obtain ⟨worker, phase⟩ := c
  cases phase with
  | returned | threw => rfl
  | joining k =>
    obtain ⟨a, there, present, -⟩ := joins here
    exact absurd (gone a (List.mem_of_getElem? there)) present

/-- **`Shutdown` returns.** From any state of a pool that has been stopped the workers and the calls make boundedly many steps,
and where they can make no more all tasks have been run, all workers have left and the first call is over. -/
theorem shutdown_returns {numThreads : Nat} {cpuCount : Int} {signals : List (Signal T)}
    (run : Machine.Run notifying Machine.free (new numThreads cpuCount) signals s) (stop : s.stop = true) :
    ∀ later t, Machine.Run notifying (fun _ signal => signal.own = true) s later t →
      later.length + rank t ≤ rank s ∧ (Stuck t → (∀ w ∈ t.workers, w = .returned) ∧ t.queue = [] ∧
        ∃ c, t.callers[0]? = some c ∧ c.phase.isOpen = false) := by
  have sane := sane_run run
  intro later t rest
  suffices known : later.length + rank t ≤ rank s ∧ Sane t ∧ t.stop = true by
    obtain ⟨bound, sane', stop'⟩ := known
    refine ⟨bound, fun stuck => ?_⟩
    obtain ⟨gone, call⟩ := gone_of_stuck sane' stop' stuck
    exact ⟨gone, sane'.manned.empty_of_all gone, call⟩
  clear run
  induction rest with
  | nil => exact ⟨Nat.le_of_eq (Nat.zero_add _), sane, stop⟩
  | @cons s u t signal later moved own _ ih =>
    obtain ⟨lower, stop'⟩ := rank_own sane stop own moved
    obtain ⟨bound, last⟩ := ih stop' (sane.step moved)
    exact ⟨by rw [List.length_cons]; omega, last⟩

/-- A call on a thread of its own while one task is run and another one is queued. -/
theorem shutdown_returns_two : ∃ s : ThreadPool String, s.queue = ["b"] ∧ s.workers = [.running 0 "a", .ready] ∧ rank s = 9 ∧
    ∀ later t, Machine.Run notifying (fun _ signal => signal.own = true) s later t →
      later.length + rank t ≤ rank s ∧ (Stuck t → (∀ w ∈ t.workers, w = .returned) ∧ t.queue = [] ∧
        ∃ c, t.callers[0]? = some c ∧ c.phase.isOpen = false) := by
  have run : ∃ s : ThreadPool String, (s.queue = ["b"] ∧ s.workers = [.running 0 "a", .ready] ∧ rank s = 9 ∧ s.stop = true) ∧
      Machine.Run notifying Machine.free (new 2 8)
        [.step (.lock 1), .submit "a" (some 1), .step (.lock 0), .step (.run 0), .submit "b" none, .step (.shutdown none)] s :=
    ⟨_, ⟨rfl, rfl, rfl, rfl⟩, Machine.free_of_exec rfl⟩
  obtain ⟨s, ⟨queue, workers, nine, stop⟩, run⟩ := run
  exact ⟨s, queue, workers, nine, shutdown_returns run stop⟩

end Protoactor.Actor.ThreadPool
