import Protoactor.Lib.Int32
import Protoactor.Actor.Queue

/-!
# The default mailbox (`src/actor/mailbox.cpp`)

`DefaultMailbox` is modelled at the grain of its atomic steps: one queue operation, one
atomic load, store, read-modify-write or compare-exchange at a time. A call of
`PostUserMessage` / `PostSystemMessage` (`PostCall`) and a call of `ProcessMessages`
(`Worker`) are program counters with their locals; what a step does to the mailbox is
the same whichever dispatcher runs the calls. `Interleaving` runs them on any number of
threads, `Synchronized` on one stack.

The `pushed` and `invoked` fields of a lane and the `seen` field of a worker are
auxiliary: they record history, and no step reads them.
-/

namespace Protoactor.Actor
set_option autoImplicit false
open Lib

/-- Which of the two queues a message travels in. -/
inductive Kind where
  | user
  | system
  deriving DecidableEq, Repr

/-- `scheduler_status_`. -/
inductive SchedulerStatus where
  | idle
  | running
  deriving DecidableEq, Repr

/-- One queue with its counter: `user_mailbox_` with `user_messages_`, or
`system_mailbox_` with `sys_messages_`. -/
structure Lane (M : Type) where
  queue : Queue M
  messages : Int
  pushed : List (Option M)
  invoked : List M
  deriving DecidableEq, Repr

namespace Lane

variable {M : Type}

/-- `Push`. -/
def push (l : Lane M) (item : Option M) : Lane M :=
  { l with queue := l.queue.push item, pushed := l.pushed ++ [item] }

/-- `Pop`: the answer and the lane it leaves. -/
def pop (l : Lane M) : Option M × Lane M :=
  (l.queue.pop.1, { l with queue := l.queue.pop.2 })

/-- `fetch_add(1)`. -/
def fetchAdd (l : Lane M) : Lane M := { l with messages := int32 (l.messages + 1) }

/-- `fetch_sub(1)`. -/
def fetchSub (l : Lane M) : Lane M := { l with messages := int32 (l.messages - 1) }

/-- The message is passed to `InvokeUserMessage` / `InvokeSystemMessage`. -/
def invoke (l : Lane M) (m : M) : Lane M := { l with invoked := l.invoked ++ [m] }

end Lane

structure DefaultMailbox (M : Type) where
  user : Lane M
  system : Lane M
  schedulerStatus : SchedulerStatus
  suspended : Int
  deriving DecidableEq, Repr

namespace DefaultMailbox

variable {M : Type}

def lane (b : DefaultMailbox M) : Kind → Lane M
  | .user => b.user
  | .system => b.system

def setLane (b : DefaultMailbox M) (k : Kind) (l : Lane M) : DefaultMailbox M :=
  match k with
  | .user => { b with user := l }
  | .system => { b with system := l }

/-- The constructor. -/
def new : DefaultMailbox M where
  user := ⟨[], 0, [], []⟩
  system := ⟨[], 0, [], []⟩
  schedulerStatus := .idle
  suspended := 0

@[simp] theorem lane_setLane (b : DefaultMailbox M) (k : Kind) (l : Lane M) : (b.setLane k l).lane k = l := by
  cases k <;> rfl

theorem lane_setLane_of_ne (b : DefaultMailbox M) {k k' : Kind} (l : Lane M) (h : k' ≠ k) :
    (b.setLane k l).lane k' = b.lane k' := by
  cases k <;> cases k' <;> first | rfl | exact absurd rfl h

@[simp] theorem status_setLane (b : DefaultMailbox M) (k : Kind) (l : Lane M) :
    (b.setLane k l).schedulerStatus = b.schedulerStatus := by
  cases k <;> rfl

@[simp] theorem suspended_setLane (b : DefaultMailbox M) (k : Kind) (l : Lane M) :
    (b.setLane k l).suspended = b.suspended := by
  cases k <;> rfl

@[simp] theorem lane_status (b : DefaultMailbox M) (st : SchedulerStatus) (k : Kind) :
    ({ b with schedulerStatus := st } : DefaultMailbox M).lane k = b.lane k := by
  cases k <;> rfl

end DefaultMailbox

/-! ## Posting -/

/-- The next atomic step of a post. -/
inductive PostPc where
  /-- `Push(message)` -/
  | push
  /-- `fetch_add(1)` on the counter of the queue pushed to -/
  | fetchAdd
  /-- `Schedule`: the compare-exchange from `IDLE` to `RUNNING` -/
  | schedule
  /-- `Schedule`, the compare-exchange having succeeded: `dispatcher_->Schedule(...)` -/
  | dispatch
  /-- `Schedule` has nothing left to do: the call returns -/
  | returned
  deriving DecidableEq, Repr

/-- A call of `PostUserMessage` or `PostSystemMessage`. -/
structure PostCall (M : Type) where
  kind : Kind
  message : Option M
  pc : PostPc
  deriving DecidableEq, Repr

namespace PostCall

variable {M : Type}

/-- One atomic step on the mailbox. Handing a task to the dispatcher and
returning are not steps on the mailbox. -/
def step (b : DefaultMailbox M) (c : PostCall M) : Option (DefaultMailbox M × PostCall M) :=
  match c.pc with
  | .push => some (b.setLane c.kind ((b.lane c.kind).push c.message), { c with pc := .fetchAdd })
  | .fetchAdd => some (b.setLane c.kind (b.lane c.kind).fetchAdd, { c with pc := .schedule })
  | .schedule =>
    match b.schedulerStatus with
    | .idle => some ({ b with schedulerStatus := .running }, { c with pc := .dispatch })
    | .running => some (b, { c with pc := .returned })
  | .dispatch => none
  | .returned => none

end PostCall

/-! ## Processing -/

/-- What `RegisterHandlers` has left in the mailbox: `invoker_ptr_` is set, and
`dispatcher_` answers `Throughput()`. -/
structure Handlers where
  throughput : Int
  deriving DecidableEq, Repr

/-- `max_rounds` of `ProcessMessages`. -/
def maxRounds : Nat := 1000

/-- `max_iterations` of `ProcessLoop`: `throughput * 10` in `int`. -/
def maxIterations (h : Handlers) : Int := int32 (h.throughput * 10)

/-- The next atomic step of `ProcessMessages`, with the locals it needs. -/
inductive WorkerPc (M : Type) where
  /-- `Pop()` on the queue of that kind -/
  | pop (k : Kind)
  /-- a message was popped: `fetch_sub(1)` -/
  | fetchSub (k : Kind) (m : M)
  /-- the call of `InvokeUserMessage` / `InvokeSystemMessage` -/
  | invoke (k : Kind) (m : M)
  /-- inside that call -/
  | invoking (k : Kind) (m : M)
  /-- `suspended_.load() == 1` between the two queues -/
  | checkSuspended
  /-- `ProcessLoop` has returned: `scheduler_status_.store(IDLE)` -/
  | storeIdle
  /-- `sys_messages_.load()` -/
  | loadSys
  /-- `user_messages_.load()` -/
  | loadUser (sys : Int)
  /-- `suspended_.load()`, and the test on the three values -/
  | loadSuspended (sys user : Int)
  /-- the compare-exchange back to `RUNNING` -/
  | reacquire
  /-- `ProcessMessages` has returned -/
  | returned
  /-- an exception has left `ProcessMessages` -/
  | threw
  deriving DecidableEq, Repr

/-- A call of `ProcessMessages`. -/
structure Worker (M : Type) where
  pc : WorkerPc M
  round : Nat
  i : Int
  processedAny : Bool
  /-- the system messages pushed before the system `Pop` of this iteration -/
  seen : List (Option M)
  deriving DecidableEq, Repr

namespace Worker

variable {M : Type}

/-- `ProcessLoop` at `while (i < max_iterations)`, up to the system `Pop`. -/
def iterate (h : Handlers) (w : Worker M) : Worker M :=
  if w.i < maxIterations h then
    { w with i := (if h.throughput < w.i then 0 else w.i) + 1, pc := .pop .system }
  else { w with pc := .storeIdle }

/-- `ProcessLoop` from its entry. -/
def processLoop (h : Handlers) (w : Worker M) : Worker M := iterate h { w with i := 0, processedAny := false }

/-- `ProcessMessages` at `while (round < max_rounds)`. -/
def nextRound (h : Handlers) (w : Worker M) : Worker M :=
  if w.round < maxRounds then w.processLoop h else { w with pc := .returned }

/-- `ProcessMessages` from its entry. -/
def processMessages (h : Handlers) : Worker M :=
  nextRound h { pc := .returned, round := 0, i := 0, processedAny := false, seen := [] }

/-- The step after a `Pop` on the queue of kind `k`. -/
def popped (w : Worker M) (k : Kind) : Option M → Worker M
  | some m => { w with pc := .fetchSub k m }
  | none =>
    match k with
    | .system => { w with pc := .checkSuspended }
    | .user => { w with pc := .storeIdle }

/-- One atomic step on the mailbox; at `invoking` the step is the normal return of
the invoked handler. -/
def step (h : Handlers) (b : DefaultMailbox M) (w : Worker M) : Option (DefaultMailbox M × Worker M) :=
  match w.pc with
  | .pop k =>
    let w := if k = .system then { w with seen := b.system.pushed } else w
    some (b.setLane k (b.lane k).pop.2, w.popped k (b.lane k).pop.1)
  | .fetchSub k m => some (b.setLane k (b.lane k).fetchSub, { w with pc := .invoke k m, processedAny := true })
  | .invoke k m => some (b.setLane k ((b.lane k).invoke m), { w with pc := .invoking k m })
  | .invoking _ _ => some (b, w.iterate h)
  | .checkSuspended => some (b, { w with pc := if b.suspended = 1 then .storeIdle else .pop .user })
  | .storeIdle => some ({ b with schedulerStatus := .idle }, { w with pc := .loadSys })
  | .loadSys => some (b, { w with pc := .loadUser b.system.messages })
  | .loadUser sys => some (b, { w with pc := .loadSuspended sys b.user.messages })
  | .loadSuspended sys user =>
    some (b, { w with pc := if 0 < sys ∨ (b.suspended = 0 ∧ 0 < user) then .reacquire else .returned })
  | .reacquire =>
    match b.schedulerStatus with
    | .idle => some ({ b with schedulerStatus := .running }, nextRound h { w with round := w.round + 1 })
    | .running => some (b, { w with pc := .returned })
  | .returned => none
  | .threw => none

/-- Between gaining `RUNNING` and storing `IDLE`. -/
def holds (w : Worker M) : Bool :=
  match w.pc with
  | .pop _ | .fetchSub _ _ | .invoke _ _ | .invoking _ _ | .checkSuspended | .storeIdle => true
  | _ => false

/-- Inside `InvokeUserMessage` or `InvokeSystemMessage`. -/
def invoking (w : Worker M) : Bool :=
  match w.pc with
  | .invoking _ _ => true
  | _ => false

/-- The call is over. -/
def finished (w : Worker M) : Bool :=
  match w.pc with
  | .returned | .threw => true
  | _ => false

/-- The popped message that has not been passed on yet. -/
def carried (k : Kind) (w : Worker M) : List M :=
  match w.pc with
  | .fetchSub k' m | .invoke k' m => if k' = k then [m] else []
  | _ => []

end Worker

end Protoactor.Actor
