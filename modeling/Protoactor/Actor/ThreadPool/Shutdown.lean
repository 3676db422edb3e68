import Protoactor.Actor.ThreadPool

/-!
# What a returning `Shutdown` says

The first call of `Shutdown` or `ShutdownNow` joins every worker. A call that finds `stop_`
set returns at once, whatever the workers are doing; it says the same as the first one only
where there is nothing left to do.
-/

namespace Protoactor.Actor.ThreadPool
set_option autoImplicit false
open Lib

variable {T : Type} {s : ThreadPool T}

/-- Nothing in the queue and nothing with a worker. -/
structure Quiet (s : ThreadPool T) : Prop where
  queue : s.queue = []
  workers : ∀ w ∈ s.workers, w.idle = true

/-- No worker has a task, and none will begin one. -/
structure Drained (s : ThreadPool T) : Prop where
  now : ∀ w ∈ s.workers, w.idle = true
  later : ∀ ls t, Machine.Run step Machine.free s ls t → t.runs = s.runs

/-- A call that finds `stop_` set is made on a quiet pool. -/
def LateCallsQuiet (s : ThreadPool T) : Label T → Prop
  | .shutdown _ | .shutdownNow _ => s.stop = true → Quiet s
  | _ => True

/-- A stopped and quiet pool stays so and begins nothing. -/
theorem keeps_quiet (begun : List (Nat × T)) :
    Machine.Keeps step Machine.free fun s => s.stop = true ∧ Quiet s ∧ s.runs = begun := by
  intro s l s' inv _ moved
  obtain ⟨stopped, quiet, same⟩ := inv
  have busy : ∀ {w : Nat} {a : Worker T}, s.workers[w]? = some a → a.idle = true := fun here =>
    quiet.workers _ (List.mem_of_getElem? here)
  have replaced : ∀ {w : Nat} {b : Worker T}, b.idle = true → Quiet { s with workers := s.workers.set w b } :=
    fun idle => ⟨quiet.queue, pool_set quiet.workers idle⟩
  cases change_of_step moved with
  | accept _ open_ | shutdown _ open_ | shutdownNow _ open_ | sleep _ _ _ open_ =>
    rw [stopped] at open_
    cases open_
  | refuse => exact ⟨stopped, quiet, same⟩
  | late | join | joinEnd | joinSelf => exact ⟨stopped, ⟨quiet.queue, quiet.workers⟩, same⟩
  | leave | wake => exact ⟨stopped, replaced rfl, same⟩
  | pop w task queue worker head =>
    have empty := quiet.queue
    rw [head] at empty
    cases empty
  | run w n task worker => cases busy worker
  | finish w n task threw worker => cases busy worker

theorem Quiet.drained (quiet : Quiet s) (stopped : s.stop = true) : Drained s where
  now := quiet.workers
  later := fun _ _ run => (run.keeps (keeps_quiet s.runs) ⟨stopped, quiet, rfl⟩).2.2

/-! ## The callers -/

/-- What holds of the pool and of the calls. -/
structure Stopping (s : ThreadPool T) : Prop where
  unset : s.stop = false → s.callers = []
  joined : ∀ c ∈ s.callers, ∀ k, c.phase = .joining k → ∀ j, j < k → s.workers[j]? = some .returned
  returned : ∀ c ∈ s.callers, c.phase = .returned → Quiet s

namespace Stopping

theorem start (numThreads : Nat) (cpuCount : Int) : Stopping (new numThreads cpuCount : ThreadPool T) where
  unset := fun _ => rfl
  joined := fun _ member => absurd member List.not_mem_nil
  returned := fun _ member => absurd member List.not_mem_nil

/-- A worker that was not gone changes its place; a popped task was in the queue. -/
theorem swap {t : ThreadPool T} (inv : Stopping s) {w : Nat} {a b : Worker T} (worker : s.workers[w]? = some a)
    (present : a ≠ .returned) (workers : t.workers = s.workers.set w b) (callers : t.callers = s.callers)
    (stop : t.stop = s.stop) (queue : s.queue = [] → t.queue = []) (quiet : Quiet s → b.idle = true) : Stopping t := by
  constructor
  case unset =>
    rw [stop, callers]
    exact inv.unset
  case joined =>
    rw [callers, workers]
    intro c member k phase j less
    have home := inv.joined c member k phase j less
    have other : w ≠ j := by
      rintro rfl
      rw [worker] at home
      exact present (Option.some.inj home)
    exact (List.getElem?_set_ne other).trans home
  case returned =>
    rw [callers]
    intro c member phase
    have still := inv.returned c member phase
    refine ⟨queue still.queue, ?_⟩
    rw [workers]
    exact pool_set still.workers (quiet still)

/-- The first call: nobody has returned, neither a caller nor a worker. -/
theorem first {t : ThreadPool T} (inv : Stopping s) (open_ : s.stop = false) (worker : Option Nat)
    (callers : t.callers = s.callers ++ [⟨worker, .joining 0⟩]) (stop : t.stop = true) : Stopping t := by
  rw [inv.unset open_, List.nil_append] at callers
  constructor
  case unset =>
    rw [stop]
    exact nofun
  case joined =>
    rw [callers]
    intro c member k phase j less
    rw [List.mem_singleton.1 member] at phase
    cases phase
    exact absurd less (Nat.not_lt_zero j)
  case returned =>
    rw [callers]
    intro c member phase
    rw [List.mem_singleton.1 member] at phase
    cases phase

/-- A call that has come late has returned. -/
theorem late (inv : Stopping s) (worker : Option Nat) (stopped : s.stop = true) (quiet : Quiet s) :
    Stopping (s.call worker .returned) where
  unset := by
    intro open_
    have closed : s.stop = false := open_
    rw [stopped] at closed
    cases closed
  joined := pool_all_new inv.joined nofun
  returned := fun _ _ _ => ⟨quiet.queue, quiet.workers⟩

/-- A caller moves on. -/
theorem call_on (inv : Stopping s) {c : Nat} {a b : Caller} (caller : s.callers[c]? = some a)
    (joined : ∀ k, b.phase = .joining k → ∀ j, j < k → s.workers[j]? = some .returned)
    (returned : b.phase = .returned → Quiet s) : Stopping { s with callers := s.callers.set c b } := by
  constructor
  case unset =>
    intro open_
    have none_ := inv.unset open_
    rw [none_] at caller
    cases caller
  case joined => exact pool_set inv.joined joined
  case returned =>
    have all : ∀ x ∈ s.callers.set c b, x.phase = .returned → Quiet s := pool_set inv.returned returned
    exact fun x member phase => ⟨(all x member phase).queue, (all x member phase).workers⟩

end Stopping

/-- With every worker gone there is nothing left. -/
theorem Manned.quiet (manned : Manned s) (all : ∀ j, j < s.workers.length → s.workers[j]? = some .returned) : Quiet s := by
  have gone : ∀ w ∈ s.workers, w = .returned := by
    intro w member
    obtain ⟨j, bound, here⟩ := List.mem_iff_getElem.1 member
    have home := all j bound
    rw [List.getElem?_eq_getElem bound, here] at home
    exact Option.some.inj home
  refine ⟨manned.empty_of_all gone, fun x member => ?_⟩
  rw [gone x member]
  rfl

theorem keeps_stopping : Machine.Keeps step LateCallsQuiet fun s : ThreadPool T => Manned s ∧ Stopping s := by
  refine (keeps_manned.mono fun _ _ _ => True.intro).with fun s l s' manned inv allowed moved => ?_
  cases change_of_step moved with
  | refuse => exact inv
  | accept task open_ =>
    refine ⟨inv.unset, inv.joined, fun c member => ?_⟩
    rw [show s.callers = [] from inv.unset open_] at member
    cases member
  | shutdown worker open_ => exact inv.first open_ worker rfl rfl
  | shutdownNow worker open_ => exact inv.first open_ worker rfl rfl
  | late worker l call stopped =>
    have quiet : Quiet s := by
      rcases call with rfl | rfl
      · exact allowed stopped
      · exact allowed stopped
    exact inv.late worker stopped quiet
  | join c k worker caller ended =>
    refine inv.call_on caller (fun k' next j less => ?_) nofun
    cases next
    rcases Nat.lt_succ_iff_lt_or_eq.1 less with before | rfl
    · exact inv.joined _ (List.mem_of_getElem? caller) k rfl j before
    · exact ended
  | joinEnd c k worker caller all =>
    refine inv.call_on caller nofun fun _ => manned.quiet fun j bound => ?_
    have past := List.getElem?_eq_none_iff.1 all
    exact inv.joined _ (List.mem_of_getElem? caller) k rfl j (by omega)
  | joinSelf c k caller => exact inv.call_on caller nofun nofun
  | sleep w worker => exact inv.swap worker nofun rfl rfl rfl id fun _ => rfl
  | leave w worker => exact inv.swap worker nofun rfl rfl rfl id fun _ => rfl
  | wake w worker => exact inv.swap worker nofun rfl rfl rfl id fun _ => rfl
  | pop w task queue worker head =>
    have full : ¬ s.queue = [] := by simp [head]
    exact inv.swap worker nofun rfl rfl rfl (fun empty => absurd empty full) fun quiet => absurd quiet.queue full
  | run w n task worker =>
    refine inv.swap worker nofun rfl rfl rfl id fun quiet => ?_
    cases quiet.workers _ (List.mem_of_getElem? worker)
  | finish w n task threw worker => exact inv.swap worker nofun rfl rfl rfl id fun _ => rfl

/-! ## Late calls -/

/-- A worker that is ready pops the first task and begins it. -/
theorem begins_ready {w : Nat} {task : T} {queue : List T} (worker : s.workers[w]? = some .ready)
    (head : s.queue = task :: queue) :
    ∃ t, Machine.Run step Machine.free s [.lock w, .run w] t ∧ t.runs = s.runs ++ [(s.left.length, task)] := by
  have first : step s (.lock w) = some { s with
      queue := queue
      workers := s.workers.set w (.taken s.left.length task)
      left := s.left ++ [task] } := by
    simp only [step, worker, ThreadPool.lock, head]
  obtain ⟨t, second, runs⟩ : ∃ t, step { s with
      queue := queue
      workers := s.workers.set w (.taken s.left.length task)
      left := s.left ++ [task] } (.run w) = some t ∧ t.runs = s.runs ++ [(s.left.length, task)] := by
    simp only [step, pool_put worker]
    exact ⟨_, rfl, rfl⟩
  exact ⟨t, .cons first True.intro (.cons second True.intro (.nil t)), runs⟩

/-- As long as there are tasks and workers without one, one will be begun. -/
theorem begins (manned : Manned s) (idle : ∀ w ∈ s.workers, w.idle = true) (full : s.queue ≠ []) :
    ∃ ls t, Machine.Run step Machine.free s ls t ∧ t.runs ≠ s.runs := by
  obtain ⟨w, rest, here⟩ := List.exists_cons_of_length_pos manned.staffed
  obtain ⟨task, queue, head⟩ := List.exists_cons_of_ne_nil full
  have member : w ∈ s.workers := here ▸ List.mem_cons_self
  have first : s.workers[0]? = some w := by rw [here]; rfl
  cases w with
  | ready =>
    obtain ⟨t, run, runs⟩ := begins_ready first head
    exact ⟨_, t, run, by simp [runs]⟩
  | asleep =>
    have woken : step s (.wake 0) = some { s with workers := s.workers.set 0 .ready } := by simp only [step, first]
    obtain ⟨t, run, runs⟩ := begins_ready (s := { s with workers := s.workers.set 0 .ready }) (pool_put first .ready) head
    exact ⟨_, t, .cons woken True.intro run, by simp [runs]⟩
  | taken | running => cases idle _ member
  | returned => exact absurd (manned.ended member).2 full

/-- **A late call says what it should** exactly on a quiet pool. -/
theorem late_drained_iff (manned : Manned s) (worker : Option Nat) (stopped : s.stop = true) :
    Drained (s.call worker .returned) ↔ Quiet s := by
  constructor
  · intro drained
    refine ⟨?_, drained.now⟩
    by_cases full : s.queue = []
    · exact full
    · have manned' : Manned (s.call worker .returned) := ⟨manned.staffed, manned.ended⟩
      obtain ⟨ls, t, run, more⟩ := begins manned' drained.now full
      exact absurd (drained.later ls t run) more
  · intro quiet
    exact Quiet.drained ⟨quiet.queue, quiet.workers⟩ stopped

/-- **Shutdown means drained** in every run whose late calls find a quiet pool; the next late
call returns to a drained pool exactly if it does. -/
theorem shutdown_drains {numThreads : Nat} {cpuCount : Int} {ls : List (Label T)}
    (run : Machine.Run step LateCallsQuiet (new numThreads cpuCount) ls s) :
    (∀ c ∈ s.callers, c.phase = .returned → Drained s) ∧
    (s.stop = true → ∀ worker, Drained (s.call worker .returned) ↔ Quiet s) := by
  obtain ⟨manned, stopping⟩ := run.keeps keeps_stopping ⟨.start numThreads cpuCount, .start numThreads cpuCount⟩
  refine ⟨fun c member phase => ?_, fun stopped worker => late_drained_iff manned worker stopped⟩
  have stopped : s.stop = true := by
    cases open_ : s.stop with
    | true => rfl
    | false =>
      rw [stopping.unset open_] at member
      cases member
  exact (stopping.returned c member phase).drained stopped

/-- One call joins the worker after its last task, and another one comes when it has left. -/
theorem shutdown_drains_twice : ∃ s : ThreadPool String, s.callers = [⟨none, .returned⟩, ⟨none, .returned⟩] ∧
    s.runs = [(0, "a")] ∧ ∀ c ∈ s.callers, c.phase = .returned → Drained s := by
  have run : ∃ s : ThreadPool String, (s.callers = [⟨none, .returned⟩, ⟨none, .returned⟩] ∧ s.runs = [(0, "a")]) ∧
      Machine.Run step LateCallsQuiet (new 1 8) [.submit (some "a"), .lock 0, .shutdown none, .run 0, .finish 0 false, .lock 0,
        .shutdownNow none, .join 0, .join 0] s := by
    refine ⟨_, ?_, .cons rfl True.intro (.cons rfl True.intro (.cons rfl nofun (.cons rfl True.intro (.cons rfl True.intro
      (.cons rfl True.intro (.cons rfl (fun _ => ⟨rfl, by decide⟩) (.cons rfl True.intro (.cons rfl True.intro (.nil _)))))))))⟩
    exact ⟨rfl, rfl⟩
  obtain ⟨s, ⟨callers, runs⟩, run⟩ := run
  exact ⟨s, callers, runs, (shutdown_drains run).1⟩

/-- The second of two callers returns while the task is running. -/
theorem shutdown_twice_early : ¬ ∀ ls (s : ThreadPool String), Machine.Run step Machine.free (new 1 8) ls s →
    ∀ c ∈ s.callers, c.phase = .returned → Drained s := by
  intro claim
  have moved : Machine.exec step [.submit (some "a"), .lock 0, .run 0, .shutdown none, .shutdown none] (new 1 8) = some
      ⟨[], true, false, true, [.running 0 "a"], [⟨none, .joining 0⟩, ⟨none, .returned⟩], ["a"], ["a"], [(0, "a")], []⟩ := rfl
  have drained := claim _ _ (Machine.free_of_exec moved) ⟨none, .returned⟩ (by simp) rfl
  have idle := drained.now (.running 0 "a") (by simp)
  cases idle

end Protoactor.Actor.ThreadPool
