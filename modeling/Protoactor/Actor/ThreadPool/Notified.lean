import Protoactor.Actor.ThreadPool.FirstCall

/-!
# Notifications (`src/actor/thread_pool.cpp`)

The machine of the pool lets a worker that waits on `cv_` wake at any time. Here it wakes where it is
notified: `Submit` calls `notify_one` and the calls of `Shutdown` `notify_all`, all under `mutex_`.
`notify_one` wakes one of the waiting workers, any of them, and nobody only where nobody waits. The
standard allows a worker to wake unnotified, so that stays a step of its own. The runs of this machine
are runs of the other one (`run_of_notified`).
-/

namespace Protoactor.Actor.ThreadPool
set_option autoImplicit false
open Lib

variable {T : Type} {s t : ThreadPool T}

namespace Worker

def ready? : Worker T → Bool
  | .ready => true
  | _ => false

def asleep? : Worker T → Bool
  | .asleep => true
  | _ => false

/-- What a notification makes of a worker. -/
def notified : Worker T → Worker T
  | .asleep => .ready
  | w => w

end Worker

/-- `notify_one`, with the worker it wakes. -/
def notifyOne (woken : Option Nat) (s : ThreadPool T) : Option (ThreadPool T) :=
  match woken with
  | none => if s.workers.any Worker.asleep? then none else some s
  | some w =>
    match s.workers[w]? with
    | some .asleep => some { s with workers := s.workers.set w .ready }
    | _ => none

def notifyAll (s : ThreadPool T) : ThreadPool T := { s with workers := s.workers.map Worker.notified }

inductive Signal (T : Type) where
  /-- `Submit` of a task, with the worker that its notification wakes -/
  | submit (task : T) (woken : Option Nat)
  /-- a step that notifies nobody or everybody -/
  | step (l : Label T)
  deriving DecidableEq, Repr

def notifying : Machine (ThreadPool T) (Signal T) := fun s signal =>
  match signal with
  | .submit task woken =>
    if s.stop || s.stopNow then if woken = none then some s else none else (s.submit (some task)).notifyOne woken
  | .step l =>
    match l with
    | .submit (some _) => none
    | .shutdown _ | .shutdownNow _ => (step s l).map fun t => if s.stop then t else t.notifyAll
    | _ => step s l

/-- The steps, one constructor for each way of notifying. -/
inductive Notice (s : ThreadPool T) : Signal T → ThreadPool T → Prop where
  | refused (task : T) (stopped : (s.stop || s.stopNow) = true) : Notice s (.submit task none) s
  | unheard (task : T) (open_ : (s.stop || s.stopNow) = false) (awake : ∀ w ∈ s.workers, w.asleep? = false) :
      Notice s (.submit task none) (s.submit (some task))
  | heard (task : T) (w : Nat) (open_ : (s.stop || s.stopNow) = false) (here : s.workers[w]? = some .asleep) :
      Notice s (.submit task (some w)) { s.submit (some task) with workers := s.workers.set w .ready }
  | stop (l : Label T) (worker : Option Nat) (call : l = .shutdown worker ∨ l = .shutdownNow worker) (open_ : s.stop = false)
      (t : ThreadPool T) (moved : step s l = some t) : Notice s (.step l) t.notifyAll
  | plain (l : Label T) (t : ThreadPool T) (moved : step s l = some t) (task : ∀ task, l ≠ .submit (some task))
      (late : ∀ worker, l = .shutdown worker ∨ l = .shutdownNow worker → s.stop = true) : Notice s (.step l) t

theorem notice_of_notifying {signal : Signal T} (moved : notifying s signal = some t) : Notice s signal t := by
  have calls : ∀ {l : Label T} {worker : Option Nat}, l = .shutdown worker ∨ l = .shutdownNow worker →
      (step s l).map (fun t => if s.stop then t else t.notifyAll) = some t → Notice s (.step l) t := by
    intro l worker call taken
    obtain ⟨t', stepped, rfl⟩ := Option.map_eq_some_iff.1 taken
    cases stop : s.stop with
    | false => exact .stop l worker call stop t' stepped
    | true => exact .plain l t' stepped (fun task same => by rcases call with rfl | rfl <;> cases same) fun _ _ => stop
  cases signal with
  | submit task woken =>
    simp only [notifying] at moved
    split at moved
    · rename_i stopped
      split at moved
      · rename_i nobody
        subst nobody
        cases moved
        exact .refused task stopped
      · cases moved
    · rename_i open_
      have closed : (s.stop || s.stopNow) = false := by simpa using open_
      have same : (s.submit (some task)).workers = s.workers := by simp only [ThreadPool.submit, if_neg open_]
      cases woken with
      | none =>
        simp only [notifyOne, same] at moved
        split at moved
        · cases moved
        · rename_i awake
          cases moved
          exact .unheard task closed (by simpa using awake)
      | some w =>
        simp only [notifyOne, same] at moved
        split at moved
        · cases moved
          exact .heard task w closed ‹_›
        · cases moved
  | step l =>
    have plain : step s l = some t → (∀ task, l ≠ .submit (some task)) →
        (∀ worker, ¬(l = .shutdown worker ∨ l = .shutdownNow worker)) → Notice s (.step l) t :=
      fun stepped task late => .plain l t stepped task fun worker call => absurd call (late worker)
    cases l with
    | submit task =>
      cases task with
      | none => exact plain moved (by simp) (by simp)
      | some => cases moved
    | shutdown worker => exact calls (.inl rfl) moved
    | shutdownNow worker => exact calls (.inr rfl) moved
    | join | lock | wake | run | finish => exact plain moved (by simp) (by simp)

/-! ## A notified run is a run -/

theorem run_wake {w : Nat} (here : s.workers[w]? = some .asleep) :
    Machine.Run step Machine.free s [.wake w] { s with workers := s.workers.set w .ready } := by
  refine .cons ?_ True.intro (.nil _)
  simp only [step, here]

/-- `notify_all` wakes one worker after the other. -/
theorem run_notifyAll (s : ThreadPool T) : ∃ ws : List Nat, Machine.Run step Machine.free s (ws.map .wake) s.notifyAll := by
  have each : ∀ (later before : List (Worker T)) (s : ThreadPool T), s.workers = before ++ later →
      ∃ ws : List Nat, Machine.Run step Machine.free s (ws.map .wake) { s with workers := before ++ later.map Worker.notified } := by
    intro later
    induction later with
    | nil =>
      intro before s here
      rw [List.map_nil, ← here]
      exact ⟨[], .nil s⟩
    | cons w later ih =>
      intro before s here
      by_cases asleep : w = .asleep
      · subst asleep
        have own : s.workers[before.length]? = some .asleep := by simp [here]
        have woken : s.workers.set before.length .ready = (before ++ [.ready]) ++ later := by simp [here]
        obtain ⟨ws, rest⟩ := ih (before ++ [.ready]) { s with workers := s.workers.set before.length .ready } woken
        refine ⟨before.length :: ws, (run_wake own).append ?_⟩
        rw [List.append_assoc] at rest
        exact rest
      · have same : w.notified = w := by cases w <;> first | rfl | exact absurd rfl asleep
        obtain ⟨ws, rest⟩ := ih (before ++ [w]) s (by simp [here])
        refine ⟨ws, ?_⟩
        simpa [same] using rest
  exact each s.workers [] s rfl

/-- **Each notified step** is a run of the other machine. -/
theorem run_of_notifying {signal : Signal T} (moved : notifying s signal = some t) : ∃ ls, Machine.Run step Machine.free s ls t := by
  have one : ∀ {l : Label T} {t : ThreadPool T}, step s l = some t → Machine.Run step Machine.free s [l] t :=
    fun stepped => .cons stepped True.intro (.nil _)
  cases notice_of_notifying moved with
  | refused => exact ⟨[], .nil s⟩
  | unheard task => exact ⟨_, one (l := .submit (some task)) rfl⟩
  | heard task w open_ here =>
    have same : (s.submit (some task)).workers = s.workers := by simp only [ThreadPool.submit, open_, Bool.false_eq_true, if_false]
    have woken := run_wake (s := s.submit (some task)) (same ▸ here)
    rw [same] at woken
    exact ⟨_, (one (l := .submit (some task)) rfl).append woken⟩
  | stop l worker call open_ t' stepped =>
    obtain ⟨ws, woken⟩ := run_notifyAll t'
    exact ⟨_, (one stepped).append woken⟩
  | plain l t' stepped => exact ⟨_, one stepped⟩

/-- **What every step of the other machine keeps**, every notified step keeps. -/
theorem keeps_notifying {Inv : ThreadPool T → Prop} (keep : Machine.Keeps step Machine.free Inv) :
    Machine.Keeps notifying Machine.free Inv := by
  intro s signal t inv _ moved
  obtain ⟨ls, run⟩ := run_of_notifying moved
  exact run.keeps keep inv

/-! ## No wake-up is lost -/

/-- While a worker waits there is a worker on its way for every task, and once the pool is stopped none waits. -/
structure Served (s : ThreadPool T) : Prop where
  matched : .asleep ∈ s.workers → s.queue.length ≤ s.workers.countP Worker.ready?
  woken : s.stop = true → .asleep ∉ s.workers

namespace Served

theorem start (numThreads : Nat) (cpuCount : Int) : Served (new numThreads cpuCount : ThreadPool T) where
  matched := fun _ => Nat.zero_le _
  woken := fun _ member => by cases List.eq_of_mem_replicate member

/-- Neither the queue nor the workers nor `stop_` change. -/
theorem same (served : Served s) (queue : t.queue = s.queue) (workers : t.workers = s.workers) (stop : t.stop = s.stop) : Served t where
  matched := by
    rw [queue, workers]
    exact served.matched
  woken := by
    rw [workers, stop]
    exact served.woken

theorem asleep_of_set {w : Nat} {b : Worker T} (awake : b.asleep? = false) (member : .asleep ∈ s.workers.set w b) :
    .asleep ∈ s.workers := by
  rcases List.mem_or_eq_of_mem_set member with old | new
  · exact old
  · rw [← new] at awake
    cases awake

/-- A worker that stays awake changes its place; the queue is no longer for that. -/
theorem swap (served : Served s) {w : Nat} {a : Worker T} (here : s.workers[w]? = some a) (b : Worker T) (awake : b.asleep? = false)
    (workers : t.workers = s.workers.set w b) (stop : t.stop = s.stop)
    (queue : t.queue.length + (if a.ready? then 1 else 0) ≤ s.queue.length + if b.ready? then 1 else 0) : Served t := by
  have count := pool_count here b Worker.ready?
  constructor
  case matched =>
    rw [workers]
    intro member
    have before := served.matched (asleep_of_set awake member)
    omega
  case woken =>
    rw [workers, stop]
    exact fun stopped member => served.woken stopped (asleep_of_set awake member)

end Served

theorem notified_ne_asleep (w : Worker T) : w.notified ≠ .asleep := by
  cases w <;> simp [Worker.notified]

theorem served_notifyAll (s : ThreadPool T) : Served s.notifyAll := by
  have nobody : .asleep ∉ s.notifyAll.workers := by
    intro member
    obtain ⟨w, -, asleep⟩ := List.mem_map.1 member
    exact notified_ne_asleep w asleep
  exact ⟨fun member => absurd member nobody, fun _ => nobody⟩

theorem keeps_served : Machine.Keeps notifying Machine.free (Served (T := T)) := by
  intro s signal t served _ moved
  cases notice_of_notifying moved with
  | refused => exact served
  | unheard task open_ awake =>
    have nobody : .asleep ∉ s.workers := fun member => Bool.noConfusion (awake _ member)
    have workers : (s.submit (some task)).workers = s.workers := by simp only [ThreadPool.submit, open_, Bool.false_eq_true, if_false]
    constructor
    · intro member
      exact absurd (workers ▸ member) nobody
    · intro _ member
      exact nobody (workers ▸ member)
  | heard task w open_ here =>
    refine served.swap here .ready rfl rfl ?_ ?_
    · simp only [ThreadPool.submit, open_, Bool.false_eq_true, if_false]
    · simp only [ThreadPool.submit, open_, Bool.false_eq_true, if_false, List.length_append, List.length_singleton, Worker.ready?, if_true]
      omega
  | stop l worker call open_ t' stepped => exact served_notifyAll t'
  | plain l t stepped noTask late =>
    cases change_of_step stepped with
    | refuse => exact served
    | accept task => exact absurd rfl (noTask task)
    | shutdown worker open_ =>
      rw [late worker (.inl rfl)] at open_
      cases open_
    | shutdownNow worker open_ =>
      rw [late worker (.inr rfl)] at open_
      cases open_
    | late | join | joinEnd | joinSelf => exact served.same rfl rfl rfl
    | sleep w worker empty open_ =>
      refine ⟨fun _ => ?_, fun stopped => ?_⟩
      · rw [show s.queue = [] from empty]
        exact Nat.zero_le _
      · rw [show s.stop = true from stopped] at open_
        cases open_
    | leave w worker empty stopped =>
      have nobody : .asleep ∉ s.workers.set w .returned := fun member => served.woken stopped (Served.asleep_of_set rfl member)
      exact ⟨fun member => absurd member nobody, fun _ => nobody⟩
    | pop w task queue worker head => exact served.swap worker (.taken _ task) rfl rfl rfl (by simp [head, Worker.ready?])
    | wake w worker => exact served.swap worker .ready rfl rfl rfl (by simp [Worker.ready?])
    | run w n task worker => exact served.swap worker (.running n task) rfl rfl rfl (Nat.le_refl _)
    | finish w n task threw worker => exact served.swap worker .ready rfl rfl rfl (by simp [Worker.ready?])

/-- **No wake-up is lost.** At any time of any run, if a worker waits, the pool has not been stopped, and for every task of the
queue another worker is on its way to the mutex. -/
theorem no_lost_wakeup {numThreads : Nat} {cpuCount : Int} {signals : List (Signal T)}
    (run : Machine.Run notifying Machine.free (new numThreads cpuCount) signals s) (waits : .asleep ∈ s.workers) :
    s.stop = false ∧ s.queue.length ≤ s.workers.countP Worker.ready? := by
  have served := run.keeps keeps_served (Served.start numThreads cpuCount)
  refine ⟨?_, served.matched waits⟩
  cases stop : s.stop with
  | false => rfl
  | true => exact absurd waits (served.woken stop)

/-- Three workers, of which two have fallen asleep, and two tasks. -/
theorem no_lost_wakeup_two : ∃ s : ThreadPool String, s.workers = [.ready, .ready, .asleep] ∧ s.queue = ["a", "b"] ∧
    s.stop = false ∧ s.queue.length ≤ s.workers.countP Worker.ready? := by
  have run : ∃ s : ThreadPool String, (s.workers = [.ready, .ready, .asleep] ∧ s.queue = ["a", "b"]) ∧
      Machine.Run notifying Machine.free (new 3 8)
        [.step (.lock 0), .step (.lock 1), .step (.lock 2), .submit "a" (some 1), .submit "b" (some 0)] s :=
    ⟨_, ⟨rfl, rfl⟩, Machine.free_of_exec rfl⟩
  obtain ⟨s, ⟨workers, queue⟩, run⟩ := run
  exact ⟨s, workers, queue, no_lost_wakeup run (by simp [workers])⟩

end Protoactor.Actor.ThreadPool
