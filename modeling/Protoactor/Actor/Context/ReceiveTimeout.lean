import Mathlib.Data.List.Basic
import Mathlib.Data.List.Induction

/-!
# Receive timeouts (`src/actor/actor_context.cpp`)

The methods of a context that start and cancel its receive-timeout timer, with the timers that
`SendOnce` has started for it. Durations are milliseconds. A call is made on some thread, and the
thread of a timer is one of them: where the dispatcher is synchronized, `Receive` of the message that
the timer sends runs on it. A `CancelFunc` joins the thread of its timer, so on that thread it throws
and the rest of the method is not run. That is the only way in which the timers come out wrong
(`oneTimer_iff`).
-/

namespace Protoactor.Actor.Timeouts
set_option autoImplicit false

/-- A timer of `SendOnce`, numbered by its place among those of the context. -/
structure SentOnce where
  delay : Int
  /-- its `CancelFunc` has been called -/
  cancelled : Bool
  deriving DecidableEq, Repr

/-- A `CancelFunc`: empty, or that of a timer. -/
abbrev CancelFunc := Option Nat

structure Extras where
  receiveTimeoutTimer : Option CancelFunc
  deriving DecidableEq, Repr

structure ActorContext where
  receiveTimeout : Int
  /-- `extras_`, null at first -/
  extras : Option Extras
  /-- auxiliary: the timers started so far -/
  timers : List SentOnce
  /-- auxiliary: how often `ReceiveTimeoutHandler` has sent the message -/
  sent : Nat
  deriving DecidableEq, Repr

/-- A thread: that of a timer, or another. -/
abbrev Thread := Option Nat

/-- How a call ends, with what it leaves: it returns, or an exception leaves it. -/
abbrev Ending := Except ActorContext ActorContext

def Ending.context : Ending → ActorContext
  | .ok c | .error c => c

namespace ActorContext

def new : ActorContext := ⟨0, none, [], 0⟩

/-- `EnsureExtras`. -/
def ensureExtras (c : ActorContext) : ActorContext := { c with extras := some (c.extras.getD ⟨none⟩) }

/-- `extras_->receive_timeout_timer_`, null without extras. -/
def receiveTimeoutTimer (c : ActorContext) : Option CancelFunc := c.extras.bind Extras.receiveTimeoutTimer

/-- Call the `CancelFunc` of a timer. -/
def cancel (i : Nat) (timers : List SentOnce) : List SentOnce := timers.modify i fun timer => { timer with cancelled := true }

/-- Cancel the timer of the extras and `reset` it. On the timer's own thread `join` throws. -/
def cancelTimer (thread : Thread) (c : ActorContext) : Ending :=
  match c.receiveTimeoutTimer with
  | none => .ok c
  | some none => .ok { c with extras := some ⟨none⟩ }
  | some (some i) =>
    if thread = some i then .error { c with timers := cancel i c.timers }
    else .ok { c with extras := some ⟨none⟩, timers := cancel i c.timers }

/-- `SendOnce(timeout, self_, timeout_msg)`, with its `CancelFunc` stored in the extras. -/
def startTimer (timeout : Int) (c : ActorContext) : ActorContext :=
  { c with extras := some ⟨some (some c.timers.length)⟩, timers := c.timers ++ [⟨timeout, false⟩] }

/-- The duration that `SetReceiveTimeout` takes a duration for. -/
def wholeMilliseconds (timeout : Int) : Int := if timeout < 1 then 0 else timeout

def setReceiveTimeout (thread : Thread) (timeout : Int) (c : ActorContext) : Ending :=
  let timeout := wholeMilliseconds timeout
  if timeout = c.receiveTimeout then .ok c
  else do
    let c ← ({ c with receiveTimeout := timeout }).ensureExtras.cancelTimer thread
    if 0 < timeout then .ok (c.startTimer timeout) else .ok c

def cancelReceiveTimeout (thread : Thread) (c : ActorContext) : Ending :=
  match c.extras with
  | none => .ok c
  | some _ => do
    let c ← c.cancelTimer thread
    .ok { c with receiveTimeout := 0 }

/-- The message goes to the own mailbox after the last access to the timer, so the calls
that its delivery leads to are those that follow. -/
def receiveTimeoutHandler (thread : Thread) (c : ActorContext) : Ending :=
  if 0 < c.receiveTimeout then do
    let c ← c.cancelReceiveTimeout thread
    .ok { c with sent := c.sent + 1 }
  else .ok c

inductive Call where
  | setReceiveTimeout (timeout : Int)
  | cancelReceiveTimeout
  | receiveTimeoutHandler
  /-- another method that needs the extras -/
  | ensureExtras
  deriving DecidableEq, Repr

def perform (c : ActorContext) (thread : Thread) : Call → Ending
  | .setReceiveTimeout timeout => c.setReceiveTimeout thread timeout
  | .cancelReceiveTimeout => c.cancelReceiveTimeout thread
  | .receiveTimeoutHandler => c.receiveTimeoutHandler thread
  | .ensureExtras => .ok c.ensureExtras

/-- A new context after these calls, each with its thread; what they throw is caught by their callers. -/
def run (calls : List (Thread × Call)) : ActorContext := calls.foldl (fun c (thread, call) => (c.perform thread call).context) new

theorem run_concat (calls : List (Thread × Call)) (thread : Thread) (call : Call) :
    run (calls ++ [(thread, call)]) = ((run calls).perform thread call).context := by
  rw [run, List.foldl_concat]
  rfl

/-- The call comes to the cancelling of a timer. -/
def cancels (c : ActorContext) : Call → Prop
  | .setReceiveTimeout timeout => wholeMilliseconds timeout ≠ c.receiveTimeout
  | .cancelReceiveTimeout => True
  | .receiveTimeoutHandler => 0 < c.receiveTimeout
  | .ensureExtras => False

/-- The call cancels the timer on whose thread it is made. -/
structure JoinsItself (c : ActorContext) (thread : Thread) (call : Call) : Prop where
  cancels : c.cancels call
  own : thread.isSome = true ∧ c.receiveTimeoutTimer = some thread

variable {c : ActorContext} {slot : Option CancelFunc} {timers earlier : List SentOnce} {delay timeout : Int} {thread : Thread}

/-! ## Armed and disarmed -/

/-- No timer is left, and none is stored. -/
structure Disarmed (slot : Option CancelFunc) (timers : List SentOnce) : Prop where
  slot : slot = none
  cancelled : ∀ timer ∈ timers, timer.cancelled = true

/-- The last timer is left and stored, all before it are cancelled. -/
def Armed (delay : Int) (slot : Option CancelFunc) (timers : List SentOnce) : Prop :=
  ∃ earlier, (∀ timer ∈ earlier, timer.cancelled = true) ∧ timers = earlier ++ [⟨delay, false⟩] ∧ slot = some (some earlier.length)

/-- What holds between two calls. -/
def Settled (c : ActorContext) : Prop :=
  c.receiveTimeout = 0 ∧ Disarmed c.receiveTimeoutTimer c.timers ∨
    1 ≤ c.receiveTimeout ∧ Armed c.receiveTimeout c.receiveTimeoutTimer c.timers

theorem settled_new : Settled new := .inl ⟨rfl, rfl, List.forall_mem_nil _⟩

@[simp] theorem receiveTimeoutTimer_ensureExtras (c : ActorContext) : c.ensureExtras.receiveTimeoutTimer = c.receiveTimeoutTimer := by
  unfold receiveTimeoutTimer ensureExtras
  cases c.extras <;> rfl

theorem cancel_last (earlier : List SentOnce) (timer : SentOnce) :
    cancel earlier.length (earlier ++ [timer]) = earlier ++ [{ timer with cancelled := true }] := by
  induction earlier with
  | nil => rfl
  | cons first earlier ih => exact congrArg (first :: ·) ih

/-- Whatever was armed, a `cancelTimer` on another thread cancels it and returns. -/
theorem cancelTimer_disarmed (held : Disarmed c.receiveTimeoutTimer c.timers ∨ Armed delay c.receiveTimeoutTimer c.timers)
    (other : ¬(thread.isSome = true ∧ c.receiveTimeoutTimer = some thread)) :
    ∃ c', c.cancelTimer thread = .ok c' ∧ Disarmed c'.receiveTimeoutTimer c'.timers ∧ c'.receiveTimeout = c.receiveTimeout := by
  rcases held with disarmed | ⟨earlier, cancelled, timers, slot⟩
  · refine ⟨c, ?_, disarmed, rfl⟩
    rw [cancelTimer, disarmed.slot]
  · have elsewhere : thread ≠ some earlier.length := by
      rintro rfl
      exact other ⟨rfl, slot⟩
    refine ⟨{ c with extras := some ⟨none⟩, timers := cancel earlier.length c.timers }, ?_, ⟨rfl, ?_⟩, rfl⟩
    · rw [cancelTimer, slot]
      exact if_neg elsewhere
    · dsimp only
      rw [timers, cancel_last]
      intro timer member
      rcases List.mem_append.1 member with old | new
      · exact cancelled timer old
      · rw [List.mem_singleton.1 new]

/-- `SendOnce` when everything is cancelled. -/
theorem startTimer_armed (disarmed : Disarmed c.receiveTimeoutTimer c.timers) (timeout : Int) :
    Armed timeout (c.startTimer timeout).receiveTimeoutTimer (c.startTimer timeout).timers :=
  ⟨c.timers, disarmed.cancelled, rfl, rfl⟩

theorem Settled.held (settled : Settled c) :
    Disarmed c.receiveTimeoutTimer c.timers ∨ Armed c.receiveTimeout c.receiveTimeoutTimer c.timers :=
  settled.imp And.right And.right

/-- The duration that a call leaves the context with when it returns. -/
def wanted (before : Int) : Call → Int
  | .setReceiveTimeout timeout => wholeMilliseconds timeout
  | .cancelReceiveTimeout => 0
  | .receiveTimeoutHandler => 0
  | .ensureExtras => before

/-- The call returns, with the duration that is wanted and its timer. -/
def Settles (wants : Int) (ending : Ending) : Prop := ∃ c', ending = .ok c' ∧ Settled c' ∧ c'.receiveTimeout = wants

theorem setReceiveTimeout_settles (settled : Settled c) (timeout : Int) (other : ¬JoinsItself c thread (.setReceiveTimeout timeout)) :
    Settles (wholeMilliseconds timeout) (c.setReceiveTimeout thread timeout) := by
  unfold setReceiveTimeout
  dsimp only
  split
  · next same => exact ⟨c, rfl, settled, same.symm⟩
  · next changed =>
    have held := settled.held
    have elsewhere := fun own => other ⟨changed, own⟩
    rw [← receiveTimeoutTimer_ensureExtras] at held elsewhere
    obtain ⟨c', cancelled, disarmed, kept⟩ :=
      @cancelTimer_disarmed ({ c with receiveTimeout := wholeMilliseconds timeout }).ensureExtras _ thread held elsewhere
    rw [cancelled]
    simp only [bind, Except.bind]
    split
    · next positive =>
      refine ⟨c'.startTimer (wholeMilliseconds timeout), rfl, .inr ?_, kept⟩
      have armed := startTimer_armed disarmed (wholeMilliseconds timeout)
      exact ⟨by rw [startTimer, kept]; exact positive, by rwa [startTimer, kept]⟩
    · next none =>
      have zero : wholeMilliseconds timeout = 0 := by
        unfold wholeMilliseconds at none ⊢
        split at none <;> omega
      exact ⟨c', rfl, .inl ⟨kept.trans zero, disarmed⟩, kept⟩

/-- Without extras there was nothing to cancel and no timeout. -/
theorem cancelReceiveTimeout_settles (settled : Settled c) (other : ¬JoinsItself c thread .cancelReceiveTimeout) :
    Settles 0 (c.cancelReceiveTimeout thread) := by
  unfold cancelReceiveTimeout
  split
  · next none =>
    rcases settled with ⟨zero, disarmed⟩ | ⟨-, earlier, -, -, slot⟩
    · exact ⟨c, rfl, .inl ⟨zero, disarmed⟩, zero⟩
    · rw [receiveTimeoutTimer, none] at slot
      cases slot
  · obtain ⟨c', cancelled, disarmed, -⟩ := cancelTimer_disarmed settled.held fun own => other ⟨True.intro, own⟩
    rw [cancelled]
    exact ⟨_, rfl, .inl ⟨rfl, disarmed⟩, rfl⟩

theorem receiveTimeoutHandler_settles (settled : Settled c) (other : ¬JoinsItself c thread .receiveTimeoutHandler) :
    Settles 0 (c.receiveTimeoutHandler thread) := by
  unfold receiveTimeoutHandler
  split
  · next positive =>
    obtain ⟨c', returned, settled', zero⟩ := cancelReceiveTimeout_settles settled fun joins => other ⟨positive, joins.own⟩
    rw [returned]
    exact ⟨_, rfl, settled', zero⟩
  · next none =>
    rcases settled with idle | ⟨positive, armed⟩
    · exact ⟨c, rfl, .inl idle, idle.1⟩
    · omega

/-- One call. -/
theorem perform_settles (settled : Settled c) (call : Call) (other : ¬JoinsItself c thread call) :
    Settles (wanted c.receiveTimeout call) (c.perform thread call) := by
  cases call with
  | setReceiveTimeout timeout => exact setReceiveTimeout_settles settled timeout other
  | cancelReceiveTimeout => exact cancelReceiveTimeout_settles settled other
  | receiveTimeoutHandler => exact receiveTimeoutHandler_settles settled other
  | ensureExtras =>
    refine ⟨c.ensureExtras, rfl, ?_, rfl⟩
    rw [Settled, ← receiveTimeoutTimer_ensureExtras] at settled
    exact settled

/-- No call of the sequence joins the thread it is made on. -/
def Elsewhere (calls : List (Thread × Call)) : Prop :=
  ∀ before thread call later, calls = before ++ (thread, call) :: later → ¬JoinsItself (run before) thread call

theorem Elsewhere.initial {calls : List (Thread × Call)} {last : Thread × Call} (elsewhere : Elsewhere (calls ++ [last])) : Elsewhere calls :=
  fun before thread call later split => elsewhere before thread call (later ++ [last]) (by rw [split, List.append_assoc]; rfl)

/-- Any number of calls: the early returns lose no request. -/
theorem run_settled {calls : List (Thread × Call)} (elsewhere : Elsewhere calls) :
    Settled (run calls) ∧ (run calls).receiveTimeout = (calls.map Prod.snd).foldl wanted 0 := by
  induction calls using List.reverseRecOn with
  | nil => exact ⟨settled_new, rfl⟩
  | append_singleton calls last ih =>
    obtain ⟨settled, duration⟩ := ih elsewhere.initial
    obtain ⟨thread, call⟩ := last
    obtain ⟨c', returned, settled', same⟩ := perform_settles settled call (elsewhere calls thread call [] rfl)
    rw [run_concat, returned, List.map_append, List.foldl_append, ← duration]
    exact ⟨settled', same⟩

/-! ## The timers of a context -/

/-- **One timer at most**: as many timers are left as the timeout asks for, with its delay,
and the extras hold the `CancelFunc` of the one that is left. -/
structure OneTimer (c : ActorContext) : Prop where
  number : (c.timers.countP fun timer => !timer.cancelled) = if 0 < c.receiveTimeout then 1 else 0
  delay : ∀ timer ∈ c.timers, timer.cancelled = false → timer.delay = c.receiveTimeout
  range : c.receiveTimeout = 0 ∨ 1 ≤ c.receiveTimeout
  empty : c.receiveTimeout = 0 → c.receiveTimeoutTimer = none
  stored : ∀ i, c.receiveTimeoutTimer = some (some i) ↔ ∃ timer, c.timers[i]? = some timer ∧ timer.cancelled = false

theorem countP_cancelled (cancelled : ∀ timer ∈ timers, timer.cancelled = true) :
    (timers.countP fun timer => !timer.cancelled) = 0 :=
  List.countP_eq_zero.2 fun timer member => by rw [cancelled timer member]; decide

theorem Disarmed.oneTimer (disarmed : Disarmed c.receiveTimeoutTimer c.timers) (zero : c.receiveTimeout = 0) : OneTimer c where
  number := by rw [countP_cancelled disarmed.cancelled, zero]; rfl
  delay timer member left := absurd ((disarmed.cancelled timer member).symm.trans left) (by decide)
  range := .inl zero
  empty _ := disarmed.slot
  stored i := by
    rw [disarmed.slot]
    constructor
    · intro some
      cases some
    · rintro ⟨timer, here, left⟩
      exact absurd ((disarmed.cancelled timer (List.mem_of_getElem? here)).symm.trans left) (by decide)

theorem Armed.oneTimer (armed : Armed c.receiveTimeout c.receiveTimeoutTimer c.timers) (positive : 1 ≤ c.receiveTimeout) : OneTimer c := by
  obtain ⟨earlier, cancelled, timers, slot⟩ := armed
  constructor
  case number =>
    rw [timers, List.countP_append, countP_cancelled cancelled, if_pos (by omega)]
    rfl
  case delay =>
    intro timer member left
    rw [timers] at member
    rcases List.mem_append.1 member with old | new
    · exact absurd ((cancelled timer old).symm.trans left) (by decide)
    · rw [List.mem_singleton.1 new]
  case range => exact .inr positive
  case empty => exact fun zero => by omega
  case stored =>
    intro i
    rw [slot, timers]
    constructor
    · rintro ⟨⟩
      exact ⟨_, List.getElem?_concat_length, rfl⟩
    · rintro ⟨timer, here, left⟩
      -- an earlier timer is cancelled
      by_cases before : i < earlier.length
      · rw [List.getElem?_append_left before] at here
        exact absurd ((cancelled timer (List.mem_of_getElem? here)).symm.trans left) (by decide)
      · have bound := (List.getElem?_eq_some_iff.1 here).1
        rw [List.length_append, List.length_singleton] at bound
        have last : i = earlier.length := by omega
        rw [last]

theorem Settled.oneTimer (settled : Settled c) : OneTimer c := by
  rcases settled with ⟨zero, disarmed⟩ | ⟨positive, armed⟩
  · exact disarmed.oneTimer zero
  · exact armed.oneTimer positive

/-! ## On the thread of the timer -/

theorem getElem?_cancel (i : Nat) (timers : List SentOnce) :
    (cancel i timers)[i]? = timers[i]?.map fun timer => { timer with cancelled := true } := by
  simp [cancel]

/-- `join` throws, and the `CancelFunc` of the cancelled timer stays where it is. -/
theorem cancelTimer_throws {i : Nat} (slot : c.receiveTimeoutTimer = some (some i)) :
    c.cancelTimer (some i) = .error { c with timers := cancel i c.timers } := by
  rw [cancelTimer, slot]
  exact if_pos rfl

theorem cancelReceiveTimeout_throws {i : Nat} (slot : c.receiveTimeoutTimer = some (some i)) :
    c.cancelReceiveTimeout (some i) = .error { c with timers := cancel i c.timers } := by
  unfold cancelReceiveTimeout
  split
  · next none =>
    rw [receiveTimeoutTimer, none] at slot
    cases slot
  · rw [cancelTimer_throws slot]
    rfl

/-- A call that cancels the timer on whose thread it is made throws. -/
theorem perform_throws {call : Call} (joins : JoinsItself c thread call) :
    ∃ i c', c.perform thread call = .error c' ∧ c'.receiveTimeoutTimer = some (some i) ∧ c'.timers = cancel i c.timers := by
  obtain ⟨cancels, some_, slot⟩ := joins
  obtain ⟨i, rfl⟩ := Option.isSome_iff_exists.1 some_
  refine ⟨i, ?_⟩
  cases call with
  | setReceiveTimeout timeout =>
    have slot' : ({ c with receiveTimeout := wholeMilliseconds timeout }).ensureExtras.receiveTimeoutTimer = some (some i) := by
      rw [receiveTimeoutTimer_ensureExtras]
      exact slot
    have throws := cancelTimer_throws slot'
    refine ⟨{ ({ c with receiveTimeout := wholeMilliseconds timeout }).ensureExtras with timers := cancel i c.timers }, ?_, slot', rfl⟩
    rw [perform, setReceiveTimeout]
    dsimp only
    rw [if_neg cancels, throws]
    rfl
  | cancelReceiveTimeout => exact ⟨_, cancelReceiveTimeout_throws slot, slot, rfl⟩
  | receiveTimeoutHandler =>
    refine ⟨{ c with timers := cancel i c.timers }, ?_, slot, rfl⟩
    rw [perform, receiveTimeoutHandler, if_pos (show 0 < c.receiveTimeout from cancels), cancelReceiveTimeout_throws slot]
    rfl
  | ensureExtras => exact cancels.elim

/-- It leaves a cancelled timer stored. -/
theorem not_oneTimer_of_joins {call : Call} (joins : JoinsItself c thread call) : ¬OneTimer (c.perform thread call).context := by
  obtain ⟨i, c', throws, slot, timers⟩ := perform_throws joins
  rw [throws]
  intro one
  obtain ⟨timer, here, left⟩ := (one.stored i).1 slot
  rw [show (Ending.context (.error c')).timers = cancel i c.timers from timers, getElem?_cancel] at here
  obtain ⟨old, -, rfl⟩ := Option.map_eq_some_iff.1 here
  cases left

/-- **Between any two calls**, whatever the durations and whatever the order, there is one timer at most, exactly if no call
cancels the timer on whose thread it is made. -/
theorem oneTimer_iff (calls : List (Thread × Call)) :
    (∀ before later, calls = before ++ later → OneTimer (run before)) ↔ Elsewhere calls := by
  constructor
  · rintro always before thread call later rfl joins
    have after := always (before ++ [(thread, call)]) later (by rw [List.append_assoc]; rfl)
    rw [run_concat] at after
    exact not_oneTimer_of_joins joins after
  · rintro elsewhere before later rfl
    refine (run_settled fun first thread call rest split => ?_).1.oneTimer
    exact elsewhere first thread call (rest ++ later) (by rw [split, List.append_assoc]; rfl)

/-- The receiver of the message sets another timeout, on the thread of the timer that has sent it. -/
theorem not_oneTimer_itself : ¬∀ before later, [(none, Call.setReceiveTimeout 10), (some 0, .setReceiveTimeout 20)] = before ++ later →
    OneTimer (run before) := by
  intro always
  have number := (always _ [] (List.append_nil _).symm).number
  exact absurd number (by decide)

example : (run [(none, .setReceiveTimeout 5), (none, .setReceiveTimeout 7), (none, .receiveTimeoutHandler),
    (none, .setReceiveTimeout (-1))]).timers = [⟨5, true⟩, ⟨7, true⟩] := by decide

end ActorContext

end Protoactor.Actor.Timeouts
