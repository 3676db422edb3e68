import Protoactor.Actor.ThreadPool

/-!
# Every accepted task is run, once

The numbers of the popped tasks are shared out: each of them is with one worker or finished.
A worker leaves only from an empty queue of a pool that accepts nothing any more, so when
all have left nothing is in the queue and nothing with a worker.
-/

namespace Protoactor.Actor.ThreadPool
set_option autoImplicit false
open Lib

variable {T : Type} {s s' : ThreadPool T}

/-- `ShutdownNow` is not called. -/
def NoShutdownNow (_ : ThreadPool T) : Label T → Prop
  | .shutdownNow _ => False
  | _ => True

/-- The worker's task is the one of its number. -/
def TaskOk (left : List T) : Worker T → Prop
  | .taken n task | .running n task => left[n]? = some task
  | _ => True

/-- What every step but `ShutdownNow` keeps. -/
structure Inv (s : ThreadPool T) : Prop where
  fifo : s.left ++ s.queue = s.accepted
  tasks : ∀ w ∈ s.workers, TaskOk s.left w
  ran : ∀ r ∈ s.runs, s.left[r.1]? = some r.2
  /-- each number is with one worker or finished -/
  shared : ∀ n, s.workers.countP (Worker.holding n) + s.finished.count n = if n < s.left.length then 1 else 0
  begun : ∀ n, (s.runs.map Prod.fst).count n = s.workers.countP (Worker.executing n) + s.finished.count n

namespace Inv

theorem start (numThreads : Nat) (cpuCount : Int) : Inv (new numThreads cpuCount : ThreadPool T) := by
  have ready : ∀ w ∈ (new numThreads cpuCount : ThreadPool T).workers, w = .ready :=
    fun w member => List.eq_of_mem_replicate member
  constructor
  case fifo => rfl
  case tasks =>
    intro w member
    rw [ready w member]
    exact True.intro
  case ran => exact fun _ member => absurd member List.not_mem_nil
  case shared => exact fun n => by rw [pool_none ready rfl]; rfl
  case begun => exact fun n => by rw [pool_none ready rfl]; rfl

/-- A worker that changes its place and not its task. -/
theorem swap (inv : Inv s) {w : Nat} {a b : Worker T} (worker : s.workers[w]? = some a)
    (same : ∀ n, a.holding n = b.holding n ∧ a.executing n = b.executing n) (own : TaskOk s.left b) :
    Inv { s with workers := s.workers.set w b } := by
  constructor
  case fifo => exact inv.fifo
  case tasks => exact pool_set inv.tasks own
  case ran => exact inv.ran
  case shared =>
    intro n
    have counted := pool_count worker b (Worker.holding n)
    rw [(same n).1] at counted
    have known := inv.shared n
    simp only at known ⊢
    omega
  case begun =>
    intro n
    have counted := pool_count worker b (Worker.executing n)
    rw [(same n).2] at counted
    have known := inv.begun n
    simp only at known ⊢
    omega

/-- A worker pops a task, which gets the next number. -/
theorem pop (inv : Inv s) {w : Nat} {task : T} {queue : List T} (worker : s.workers[w]? = some .ready)
    (head : s.queue = task :: queue) : Inv { s with
      queue := queue
      workers := s.workers.set w (.taken s.left.length task)
      left := s.left ++ [task] } := by
  have older : ∀ {n : Nat} {t : T}, s.left[n]? = some t → (s.left ++ [task])[n]? = some t := fun known => pool_grow known _
  constructor
  case fifo =>
    have known := inv.fifo
    rw [head] at known
    rw [← known, List.append_assoc]
    rfl
  case tasks =>
    have others : ∀ x ∈ s.workers, TaskOk (s.left ++ [task]) x := by
      intro x member
      have known := inv.tasks x member
      cases x with
      | taken n t | running n t => exact older known
      | ready | asleep | returned => exact True.intro
    exact pool_set others List.getElem?_concat_length
  case ran => exact fun r member => older (inv.ran r member)
  case shared =>
    intro n
    have counted := pool_count worker (.taken s.left.length task) (Worker.holding n)
    have known := inv.shared n
    simp only [Worker.holding, Bool.false_eq_true, if_false, decide_eq_true_eq] at counted
    simp only [List.length_append, List.length_singleton] at known ⊢
    split at known <;> split at counted <;> split <;> omega
  case begun =>
    intro n
    have counted := pool_count worker (.taken s.left.length task) (Worker.executing n)
    have known := inv.begun n
    simp only [Worker.executing, Bool.false_eq_true, if_false] at counted
    simp only at known ⊢
    omega

/-- The task is begun. -/
theorem run (inv : Inv s) {w n : Nat} {task : T} (worker : s.workers[w]? = some (.taken n task)) :
    Inv { s with workers := s.workers.set w (.running n task), runs := s.runs ++ [(n, task)] } := by
  have own : TaskOk s.left (.taken n task) := inv.tasks _ (List.mem_of_getElem? worker)
  constructor
  case fifo => exact inv.fifo
  case tasks => exact pool_set inv.tasks own
  case ran => exact pool_all_new inv.ran own
  case shared =>
    intro k
    have counted := pool_count worker (.running n task) (Worker.holding k)
    have known := inv.shared k
    simp only [Worker.holding, decide_eq_true_eq] at counted
    simp only at known ⊢
    omega
  case begun =>
    intro k
    have counted := pool_count worker (.running n task) (Worker.executing k)
    have known := inv.begun k
    simp only [Worker.executing, Bool.false_eq_true, if_false, decide_eq_true_eq] at counted
    simp only [List.map_append, List.map_singleton, List.count_append, List.count_singleton, beq_iff_eq] at known ⊢
    omega

/-- The task ends, in either way. -/
theorem finish (inv : Inv s) {w n : Nat} {task : T} (worker : s.workers[w]? = some (.running n task)) :
    Inv { s with workers := s.workers.set w .ready, finished := s.finished ++ [n] } := by
  constructor
  case fifo => exact inv.fifo
  case tasks => exact pool_set inv.tasks True.intro
  case ran => exact inv.ran
  case shared =>
    intro k
    have counted := pool_count worker .ready (Worker.holding k)
    have known := inv.shared k
    simp only [Worker.holding, Bool.false_eq_true, if_false, decide_eq_true_eq] at counted
    simp only [List.count_append, List.count_singleton, beq_iff_eq] at known ⊢
    omega
  case begun =>
    intro k
    have counted := pool_count worker .ready (Worker.executing k)
    have known := inv.begun k
    simp only [Worker.executing, Bool.false_eq_true, if_false, decide_eq_true_eq] at counted
    simp only [List.count_append, List.count_singleton, beq_iff_eq] at known ⊢
    omega

end Inv

theorem keeps_inv : Machine.Keeps step NoShutdownNow (Inv (T := T)) := by
  intro s l s' inv allowed moved
  cases change_of_step moved with
  | refuse => exact inv
  | accept task open_ =>
    refine ⟨?_, inv.tasks, inv.ran, inv.shared, inv.begun⟩
    rw [← inv.fifo, List.append_assoc]
  | shutdownNow => exact allowed.elim
  | shutdown | late | join | joinEnd | joinSelf => exact ⟨inv.fifo, inv.tasks, inv.ran, inv.shared, inv.begun⟩
  | sleep w worker => exact inv.swap worker (fun _ => ⟨rfl, rfl⟩) True.intro
  | leave w worker => exact inv.swap worker (fun _ => ⟨rfl, rfl⟩) True.intro
  | wake w worker => exact inv.swap worker (fun _ => ⟨rfl, rfl⟩) True.intro
  | pop w task queue worker head => exact inv.pop worker head
  | run w n task worker => exact inv.run worker
  | finish w n task threw worker => exact inv.finish worker

/-- After `stop_` nothing is accepted. -/
theorem keeps_accepted (l₀ : List T) : Machine.Keeps step Machine.free fun s => s.stop = true ∧ s.accepted = l₀ := by
  intro s l s' inv _ moved
  obtain ⟨stopped, same⟩ := inv
  cases change_of_step moved with
  | accept task open_ =>
    rw [stopped] at open_
    cases open_
  | shutdown | shutdownNow => exact ⟨rfl, same⟩
  | _ => exact ⟨stopped, same⟩

/-- Every accepted task is run once, in the order of the queue. -/
structure ExactlyOnce (s : ThreadPool T) : Prop where
  ordered : s.left ++ s.queue = s.accepted
  once : (s.runs.map Prod.fst).Nodup
  own : ∀ r ∈ s.runs, s.accepted[r.1]? = some r.2
  drained : (∀ w ∈ s.workers, w = .returned) →
    ∀ n, n < s.accepted.length → n ∈ s.runs.map Prod.fst ∧ n ∈ s.finished

theorem Inv.exactlyOnce (inv : Inv s) (manned : Manned s) : ExactlyOnce s := by
  constructor
  case ordered => exact inv.fifo
  case once =>
    rw [List.nodup_iff_count]
    intro n
    have fewer : s.workers.countP (Worker.executing n) ≤ s.workers.countP (Worker.holding n) := by
      refine List.countP_mono_left fun w _ run => ?_
      cases w <;> first | exact run | cases run
    have known := inv.shared n
    have begun := inv.begun n
    split at known <;> omega
  case own =>
    intro r member
    rw [← inv.fifo]
    exact pool_grow (inv.ran r member) _
  case drained =>
    intro all n bound
    have empty := manned.empty_of_all all
    have known := inv.shared n
    have begun := inv.begun n
    rw [← inv.fifo, empty, List.append_nil] at bound
    rw [pool_none all rfl, if_pos bound] at known
    rw [pool_none all rfl] at begun
    exact ⟨List.count_pos_iff.1 (by omega), List.count_pos_iff.1 (by omega)⟩

/-- **Each accepted task is run exactly once**: over every interleaving of submitters, workers and callers of
`Shutdown`, and none that is submitted after `stop_` was set. -/
theorem runs_exactly_once {numThreads : Nat} {cpuCount : Int} {ls : List (Label T)}
    (run : Machine.Run step NoShutdownNow (new numThreads cpuCount) ls s) :
    ExactlyOnce s ∧ (s.stop = true → ∀ ls' t, Machine.Run step NoShutdownNow s ls' t →
      t.accepted = s.accepted ∧ ∀ r ∈ t.runs, r.1 < s.accepted.length) := by
  have any : ∀ (s : ThreadPool T) l, NoShutdownNow s l → Machine.free s l := fun _ _ _ => True.intro
  have inv := run.keeps keeps_inv (Inv.start numThreads cpuCount)
  have manned := run.keeps (keeps_manned.mono any) (Manned.start numThreads cpuCount)
  refine ⟨inv.exactlyOnce manned, fun stopped ls' t rest => ?_⟩
  have later := (rest.keeps keeps_inv inv).exactlyOnce (rest.keeps (keeps_manned.mono any) manned)
  have same := (rest.keeps ((keeps_accepted s.accepted).mono any) ⟨stopped, rfl⟩).2
  refine ⟨same, fun r member => ?_⟩
  have known := later.own r member
  rw [same] at known
  exact (List.getElem?_eq_some_iff.1 known).1

/-- Two tasks on two workers, one of them throwing, and a third that comes after `Shutdown`. -/
theorem runs_exactly_once_drained : ∃ s : ThreadPool String, s.runs = [(0, "a"), (1, "b")] ∧ s.accepted = ["a", "b"] ∧
    s.workers = [.returned, .returned] ∧ ExactlyOnce s := by
  have run : ∃ s : ThreadPool String, (s.runs = [(0, "a"), (1, "b")] ∧ s.accepted = ["a", "b"] ∧
      s.workers = [.returned, .returned]) ∧ Machine.Run step NoShutdownNow (new 2 8)
        [.submit (some "a"), .lock 1, .submit (some "b"), .run 1, .lock 0, .shutdown none, .submit (some "c"), .run 0,
          .finish 0 true, .finish 1 false, .lock 0, .lock 1, .join 0, .join 0, .join 0] s := by
    refine ⟨_, ?_, Machine.run_of_exec rfl fun l member => ?_⟩
    · exact ⟨rfl, rfl, rfl⟩
    · revert l
      simp
  obtain ⟨s, ⟨runs, accepted, workers⟩, run⟩ := run
  exact ⟨s, runs, accepted, workers, (runs_exactly_once run).1⟩

end Protoactor.Actor.ThreadPool
