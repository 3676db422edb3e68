import Protoactor.Lib.Machine
import Protoactor.Lib.Pool

/-!
# The thread pool (`src/actor/thread_pool.cpp`)

`ThreadPool::Impl` with its workers and the threads that are in a `Shutdown` or
`ShutdownNow`. Each section under `mutex_` is one step; a task runs between two steps of its
worker and may itself call the pool. A worker that waits on `cv_` may wake at any time,
notified or not, and then evaluates the predicate again. `T` is the type of the tasks.

`accepted`, `left`, `runs` and `finished` are auxiliary: the tasks pushed and popped, and the
runs begun and ended. A popped task is known by its number among them.
-/

namespace Protoactor.Actor
set_option autoImplicit false
open Lib

namespace ThreadPool

/-- Where a worker is in `WorkerLoop`. -/
inductive Worker (T : Type) where
  /-- about to lock `mutex_` and evaluate the predicate -/
  | ready
  | asleep
  /-- it has popped its `n`-th task and not begun it -/
  | taken (n : Nat) (task : T)
  | running (n : Nat) (task : T)
  | returned
  deriving DecidableEq, Repr

/-- Where a call of `Shutdown` or `ShutdownNow` is. -/
inductive CallPhase where
  /-- at the `k`-th thread of `workers_` -/
  | joining (k : Nat)
  | returned
  /-- `join` on the own thread: `std::system_error` -/
  | threw
  deriving DecidableEq, Repr

/-- The call has not come to its end. -/
def CallPhase.isOpen : CallPhase → Bool
  | .joining _ => true
  | _ => false

structure Caller where
  /-- the worker whose task makes the call -/
  worker : Option Nat
  phase : CallPhase
  deriving DecidableEq, Repr

namespace Worker

variable {T : Type}

/-- The worker has the `n`-th task, begun or not. -/
def holding (n : Nat) : Worker T → Bool
  | .taken k _ | .running k _ => k = n
  | _ => false

def executing (n : Nat) : Worker T → Bool
  | .running k _ => k = n
  | _ => false

/-- The worker has no task. -/
def idle : Worker T → Bool
  | .taken _ _ | .running _ _ => false
  | _ => true

end Worker

end ThreadPool

structure ThreadPool (T : Type) where
  queue : List T
  stop : Bool
  stopNow : Bool
  shutdownCalled : Bool
  workers : List (Actor.ThreadPool.Worker T)
  callers : List Actor.ThreadPool.Caller
  accepted : List T
  left : List T
  runs : List (Nat × T)
  finished : List Nat
  deriving DecidableEq, Repr

namespace ThreadPool

variable {T : Type}

/-- The constructor; `cpuCount` is `platform::GetCPUCount()`. -/
def new (numThreads : Nat) (cpuCount : Int) : ThreadPool T where
  queue := []
  stop := false
  stopNow := false
  shutdownCalled := false
  workers := .replicate (if numThreads = 0 then (max 1 cpuCount).toNat else numThreads) .ready
  callers := []
  accepted := []
  left := []
  runs := []
  finished := []

/-- `Submit`; a null `std::function` is ignored. -/
def submit (task : Option T) (s : ThreadPool T) : ThreadPool T :=
  match task with
  | none => s
  | some task =>
    if s.stop || s.stopNow then s
    else { s with queue := s.queue ++ [task], accepted := s.accepted ++ [task] }

def call (worker : Option Nat) (phase : CallPhase) (s : ThreadPool T) : ThreadPool T :=
  { s with callers := s.callers ++ [⟨worker, phase⟩] }

/-- The section of `Shutdown`. -/
def shutdown (worker : Option Nat) (s : ThreadPool T) : ThreadPool T :=
  if s.stop then s.call worker .returned
  else { s with stop := true, shutdownCalled := true }.call worker (.joining 0)

/-- The section of `ShutdownNow`. -/
def shutdownNow (worker : Option Nat) (s : ThreadPool T) : ThreadPool T :=
  if s.stop then s.call worker .returned
  else { s with stopNow := true, stop := true, shutdownCalled := true, queue := [] }.call worker (.joining 0)

/-- The section of `WorkerLoop`: it falls asleep, returns, or pops a task. -/
def lock (w : Nat) (s : ThreadPool T) : ThreadPool T :=
  match s.queue with
  | [] => { s with workers := s.workers.set w (if s.stop then .returned else .asleep) }
  | task :: queue => { s with
      queue := queue
      workers := s.workers.set w (.taken s.left.length task)
      left := s.left ++ [task] }

inductive Label (T : Type) where
  | submit (task : Option T)
  /-- `Shutdown`, called on the given worker or on a thread of its own -/
  | shutdown (worker : Option Nat)
  | shutdownNow (worker : Option Nat)
  /-- the next step of the loop over `workers_` of the `c`-th call -/
  | join (c : Nat)
  | lock (w : Nat)
  | wake (w : Nat)
  | run (w : Nat)
  /-- the task of the worker returns, or throws and is caught -/
  | finish (w : Nat) (threw : Bool)
  deriving DecidableEq, Repr

/-- The thread can make a step of its own: a worker has to be running a task, and not to be in a call made by it. -/
def available (s : ThreadPool T) : Option Nat → Bool
  | none => true
  | some w =>
    (match s.workers[w]? with
      | some (.running _ _) => true
      | _ => false) && s.callers.all fun c => c.worker ≠ some w || !c.phase.isOpen

def step : Machine (ThreadPool T) (Label T) := fun s l =>
  match l with
  | .submit task => some (s.submit task)
  | .shutdown worker => if s.available worker then some (s.shutdown worker) else none
  | .shutdownNow worker => if s.available worker then some (s.shutdownNow worker) else none
  | .join c =>
    match s.callers[c]? with
    | some ⟨worker, .joining k⟩ =>
      match s.workers[k]? with
      | none => some { s with callers := s.callers.set c ⟨worker, .returned⟩ }
      | some .returned => some { s with callers := s.callers.set c ⟨worker, .joining (k + 1)⟩ }
      | some _ => if worker = some k then some { s with callers := s.callers.set c ⟨worker, .threw⟩ } else none
    | _ => none
  | .lock w =>
    match s.workers[w]? with
    | some .ready => some (s.lock w)
    | _ => none
  | .wake w =>
    match s.workers[w]? with
    | some .asleep => some { s with workers := s.workers.set w .ready }
    | _ => none
  | .run w =>
    match s.workers[w]? with
    | some (.taken n task) => some { s with workers := s.workers.set w (.running n task), runs := s.runs ++ [(n, task)] }
    | _ => none
  | .finish w _ =>
    match s.workers[w]? with
    | some (.running n _) =>
      if s.available (some w) then some { s with workers := s.workers.set w .ready, finished := s.finished ++ [n] } else none
    | _ => none

/-! ## What a step can do -/

/-- The steps, one constructor for each thing that can happen. -/
inductive Change (s : ThreadPool T) : Label T → ThreadPool T → Prop where
  | refuse (task : Option T) : Change s (.submit task) s
  | accept (task : T) (open_ : s.stop = false) :
      Change s (.submit (some task)) { s with queue := s.queue ++ [task], accepted := s.accepted ++ [task] }
  | shutdown (worker : Option Nat) (first : s.stop = false) :
      Change s (.shutdown worker) ({ s with stop := true, shutdownCalled := true }.call worker (.joining 0))
  | shutdownNow (worker : Option Nat) (first : s.stop = false) :
      Change s (.shutdownNow worker)
        ({ s with stopNow := true, stop := true, shutdownCalled := true, queue := [] }.call worker (.joining 0))
  | late (worker : Option Nat) (l : Label T) (call : l = .shutdown worker ∨ l = .shutdownNow worker) (stopped : s.stop = true) :
      Change s l (s.call worker .returned)
  | join (c k : Nat) (worker : Option Nat) (caller : s.callers[c]? = some ⟨worker, .joining k⟩)
      (ended : s.workers[k]? = some .returned) :
      Change s (.join c) { s with callers := s.callers.set c ⟨worker, .joining (k + 1)⟩ }
  | joinEnd (c k : Nat) (worker : Option Nat) (caller : s.callers[c]? = some ⟨worker, .joining k⟩)
      (all : s.workers[k]? = none) : Change s (.join c) { s with callers := s.callers.set c ⟨worker, .returned⟩ }
  | joinSelf (c k : Nat) (caller : s.callers[c]? = some ⟨some k, .joining k⟩) :
      Change s (.join c) { s with callers := s.callers.set c ⟨some k, .threw⟩ }
  | sleep (w : Nat) (worker : s.workers[w]? = some .ready) (empty : s.queue = []) (open_ : s.stop = false) :
      Change s (.lock w) { s with workers := s.workers.set w .asleep }
  | leave (w : Nat) (worker : s.workers[w]? = some .ready) (empty : s.queue = []) (stopped : s.stop = true) :
      Change s (.lock w) { s with workers := s.workers.set w .returned }
  | pop (w : Nat) (task : T) (queue : List T) (worker : s.workers[w]? = some .ready) (head : s.queue = task :: queue) :
      Change s (.lock w) { s with
        queue := queue
        workers := s.workers.set w (.taken s.left.length task)
        left := s.left ++ [task] }
  | wake (w : Nat) (worker : s.workers[w]? = some .asleep) : Change s (.wake w) { s with workers := s.workers.set w .ready }
  | run (w n : Nat) (task : T) (worker : s.workers[w]? = some (.taken n task)) :
      Change s (.run w) { s with workers := s.workers.set w (.running n task), runs := s.runs ++ [(n, task)] }
  | finish (w n : Nat) (task : T) (threw : Bool) (worker : s.workers[w]? = some (.running n task)) :
      Change s (.finish w threw) { s with workers := s.workers.set w .ready, finished := s.finished ++ [n] }

theorem change_of_step {s s' : ThreadPool T} {l : Label T} (moved : step s l = some s') : Change s l s' := by
  cases l with
  | submit task =>
    cases moved
    cases task with
    | none => exact .refuse none
    | some task =>
      unfold submit
      dsimp only
      split
      · exact .refuse _
      · rename_i open_
        rw [Bool.or_eq_true, not_or, Bool.not_eq_true] at open_
        exact .accept task open_.1
  | shutdown worker =>
    simp only [step] at moved
    split at moved
    · cases moved
      unfold ThreadPool.shutdown
      split
      · rename_i stopped
        exact .late worker _ (.inl rfl) stopped
      · rename_i first
        exact .shutdown worker (by simpa using first)
    · cases moved
  | shutdownNow worker =>
    simp only [step] at moved
    split at moved
    · cases moved
      unfold ThreadPool.shutdownNow
      split
      · rename_i stopped
        exact .late worker _ (.inr rfl) stopped
      · rename_i first
        exact .shutdownNow worker (by simpa using first)
    · cases moved
  | join c =>
    simp only [step] at moved
    split at moved
    · rename_i worker k caller
      split at moved
      · cases moved
        exact .joinEnd c k worker caller ‹_›
      · cases moved
        exact .join c k worker caller ‹_›
      · split at moved
        · rename_i own
          cases moved
          subst own
          exact .joinSelf c k caller
        · cases moved
    · cases moved
  | lock w =>
    simp only [step] at moved
    split at moved
    · cases moved
      unfold ThreadPool.lock
      split
      · split
        · exact .leave w ‹_› ‹_› ‹_›
        · rename_i open_
          exact .sleep w ‹_› ‹_› (by simpa using open_)
      · exact .pop w _ _ ‹_› ‹_›
    · cases moved
  | wake w =>
    simp only [step] at moved
    split at moved
    · cases moved
      exact .wake w ‹_›
    · cases moved
  | run w =>
    simp only [step] at moved
    split at moved
    · cases moved
      exact .run w _ _ ‹_›
    · cases moved
  | finish w threw =>
    simp only [step] at moved
    split at moved
    · split at moved
      · cases moved
        exact .finish w _ _ threw ‹_›
      · cases moved
    · cases moved

/-! ## The workers -/

/-- There is a worker, and none has left a pool that is open or has tasks. -/
structure Manned (s : ThreadPool T) : Prop where
  staffed : 0 < s.workers.length
  ended : .returned ∈ s.workers → s.stop = true ∧ s.queue = []

namespace Manned

variable {s t : ThreadPool T}

theorem start (numThreads : Nat) (cpuCount : Int) : Manned (new numThreads cpuCount : ThreadPool T) where
  staffed := by
    rw [ThreadPool.new, List.length_replicate]
    split <;> omega
  ended := fun member => absurd (List.eq_of_mem_replicate member) nofun

/-- Before the first call no worker has left. -/
theorem working (manned : Manned s) (open_ : s.stop = false) : .returned ∉ s.workers := by
  intro member
  have stopped := (manned.ended member).1
  rw [open_] at stopped
  cases stopped

/-- A worker changes its place. -/
theorem swap (manned : Manned s) {w : Nat} {b : Worker T} (workers : t.workers = s.workers.set w b) (stop : t.stop = s.stop)
    (queue : s.queue = [] → t.queue = []) (gone : b = .returned → s.stop = true ∧ t.queue = []) : Manned t where
  staffed := by simpa [workers] using manned.staffed
  ended := by
    rw [workers, stop]
    intro member
    rcases List.mem_or_eq_of_mem_set member with old | new
    · exact ⟨(manned.ended old).1, queue (manned.ended old).2⟩
    · exact gone new.symm

/-- With every worker gone the queue is empty. -/
theorem empty_of_all (manned : Manned s) (all : ∀ w ∈ s.workers, w = .returned) : s.queue = [] := by
  obtain ⟨w, rest, here⟩ := List.exists_cons_of_length_pos manned.staffed
  have member : w ∈ s.workers := here ▸ List.mem_cons_self
  exact (manned.ended (all w member ▸ member)).2

end Manned

theorem keeps_manned : Machine.Keeps step Machine.free (Manned (T := T)) := by
  intro s l s' manned _ moved
  cases change_of_step moved with
  | accept task open_ => exact ⟨manned.staffed, fun member => absurd member (manned.working open_)⟩
  | shutdown worker open_ => exact ⟨manned.staffed, fun member => absurd member (manned.working open_)⟩
  | shutdownNow worker open_ => exact ⟨manned.staffed, fun member => absurd member (manned.working open_)⟩
  | refuse | late | join | joinEnd | joinSelf => exact ⟨manned.staffed, manned.ended⟩
  | sleep => exact manned.swap rfl rfl id nofun
  | leave w worker empty stopped => exact manned.swap rfl rfl id fun _ => ⟨stopped, empty⟩
  | wake => exact manned.swap rfl rfl id nofun
  | pop w task queue worker head => exact manned.swap rfl rfl (fun empty => by simp [head] at empty) nofun
  | run => exact manned.swap rfl rfl id nofun
  | finish => exact manned.swap rfl rfl id nofun

end ThreadPool

end Protoactor.Actor
