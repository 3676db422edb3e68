import Protoactor.Actor.Context

/-!
# Death watch

A context that processes `Watch`, `Unwatch` and `Stop` messages and nothing else. `HandleStop` tells
no watcher, so the promise of `Context::Watch` (`DeathWatch`) is kept only where there is
nobody to tell; a `Watch` that arrives after the stop is answered at once, each time.
-/

namespace Protoactor.Actor.ActorContext
set_option autoImplicit false
open Lib

variable {U K σ C : Type}

inductive Request where
  | watch (watcher : PID)
  | unwatch (watcher : PID)
  | stop
  deriving DecidableEq, Repr

namespace Request

def message : Request → Ptr U K
  | .watch watcher => .watch (some watcher)
  | .unwatch watcher => .unwatch (some watcher)
  | .stop => .stop

/-- The call of `InvokeSystemMessage`. -/
def label (r : Request) : Label U K := .system r.message

/-- What the request says about the watcher of that name: whether it wants to know. -/
def wants (w : String × String) : Request → Option Bool
  | .watch watcher => if watcher.name = w then some true else none
  | .unwatch watcher => if watcher.name = w then some false else none
  | .stop => none

/-- What its last request said. -/
def lastWish (w : String × String) (rs : List Request) : Option Bool := (rs.filterMap (wants w)).getLast?

/-- How often it asked to watch. -/
def watches (w : String × String) (rs : List Request) : Nat := rs.countP (wants w · = some true)

end Request

/-- The message tells the watcher of that name that `self` has stopped. -/
def tells (self : Option PID) (w : String × String) (s : Sent U K) : Bool :=
  match s with
  | ⟨some target, .system, .terminated who .stopped⟩ => target.name = w && who = self
  | _ => false

/-- The promise: with the first `Stop` between `before` and `rest`, at the time that stop
has been processed whoever wanted to know has been told once and whoever did not has not been told;
and whoever asks later is told once. -/
def DeathWatch (props : Props U K C) (beh : Behaviour U K σ C) (start : ActorContext U K σ C)
    (before rest : List Request) : Prop :=
  ∃ c c' : ActorContext U K σ C,
    Machine.exec (step props beh) ((before ++ [Request.stop]).map Request.label) start = some c ∧
    Machine.exec (step props beh) (rest.map Request.label) c = some c' ∧
    ∀ w, (Request.lastWish w before = some true → c.sent.countP (tells start.self w) = 1) ∧
      (Request.lastWish w before = some false → c.sent.countP (tells start.self w) = 0) ∧
      (0 < Request.watches w rest → (c'.sent.drop c.sent.length).countP (tells start.self w) = 1)

/-! ## The runs -/

/-- The answer to a late request. -/
def lateAnswer (self : Option PID) : Request → Option (Sent U K)
  | .watch watcher => some ⟨some watcher, .system, .terminated self .stopped⟩
  | _ => none

theorem tells_lateAnswer (self : Option PID) (w : String × String) (rs : List Request) :
    (rs.filterMap (lateAnswer self : Request → Option (Sent U K))).countP (tells self w) = Request.watches w rs := by
  induction rs with
  | nil => rfl
  | cons r rs ih =>
    have single : ([r].filterMap (lateAnswer self : Request → Option (Sent U K))).countP (tells self w) =
        Request.watches w [r] := by
      cases r <;> simp [lateAnswer, tells, Request.watches, Request.wants]
    have split : Request.watches w (r :: rs) = Request.watches w [r] + Request.watches w rs := by
      show ([r] ++ rs).countP _ = _
      rw [List.countP_append]
      rfl
    rw [split, ← List.singleton_append, List.filterMap_append, List.countP_append, ih, single]

variable (props : Props U K C) (beh : Behaviour U K σ C)

theorem step_request {c : ActorContext U K σ C} (returned : c.stack = []) (r : Request) :
    step props beh c r.label = c.invokeSystemMessage beh r.message := by
  simp only [step, Request.label, returned]

/-- Before the stop the list of watchers is kept, and nothing is sent. -/
theorem step_alive {c : ActorContext U K σ C} (alive : c.state = .alive) (returned : c.stack = []) {r : Request}
    (noStop : r ≠ .stop) : ∃ c' : ActorContext U K σ C, step props beh c r.label = some c' ∧
      c'.state = .alive ∧ c'.stack = [] ∧ c'.self = c.self ∧ c'.sent = c.sent := by
  rw [step_request props beh returned]
  cases r with
  | watch watcher =>
    refine ⟨c.handleWatch watcher, rfl, ?_⟩
    simp [handleWatch, alive, returned, LifecycleState.toNat]
  | unwatch watcher =>
    refine ⟨c.handleUnwatch watcher, rfl, ?_⟩
    unfold handleUnwatch
    split <;> exact ⟨alive, returned, rfl, rfl⟩
  | stop => exact absurd rfl noStop

theorem exec_alive {rs : List Request} {c : ActorContext U K σ C} (alive : c.state = .alive) (returned : c.stack = [])
    (noStop : Request.stop ∉ rs) : ∃ c' : ActorContext U K σ C,
      Machine.exec (step props beh) (rs.map Request.label) c = some c' ∧ c'.state = .alive ∧ c'.stack = [] ∧
        c'.self = c.self ∧ c'.sent = c.sent := by
  induction rs generalizing c with
  | nil => exact ⟨c, rfl, alive, returned, rfl, rfl⟩
  | cons r rs ih =>
    rw [List.mem_cons, not_or] at noStop
    obtain ⟨d, first, alive, returned, self, sent⟩ :=
      step_alive props beh alive returned (Ne.symm noStop.1)
    obtain ⟨c', later, alive, returned, self', sent'⟩ := ih alive returned noStop.2
    refine ⟨c', ?_, alive, returned, self'.trans self, sent'.trans sent⟩
    rw [List.map_cons, Machine.exec_cons first, later]

/-- After the stop every `Watch` is answered. -/
theorem step_stopped {c : ActorContext U K σ C} (stopped : c.state = .stopped) (returned : c.stack = []) (r : Request) :
    ∃ c' : ActorContext U K σ C, step props beh c r.label = some c' ∧
      c'.state = .stopped ∧ c'.stack = [] ∧ c'.self = c.self ∧ c'.sent = c.sent ++ [r].filterMap (lateAnswer c.self) := by
  rw [step_request props beh returned]
  cases r with
  | watch watcher =>
    refine ⟨c.handleWatch watcher, rfl, ?_⟩
    simp [handleWatch, stopped, returned, LifecycleState.toNat, post, lateAnswer]
  | unwatch watcher =>
    refine ⟨c.handleUnwatch watcher, rfl, ?_⟩
    unfold handleUnwatch
    split <;> exact ⟨stopped, returned, rfl, by simp [lateAnswer]⟩
  | stop => exact ⟨c.handleStop, rfl, rfl, returned, rfl, by simp [handleStop, lateAnswer]⟩

theorem exec_stopped (rs : List Request) {c : ActorContext U K σ C} (stopped : c.state = .stopped)
    (returned : c.stack = []) : ∃ c' : ActorContext U K σ C,
      Machine.exec (step props beh) (rs.map Request.label) c = some c' ∧
        c'.sent = c.sent ++ rs.filterMap (lateAnswer c.self) := by
  induction rs generalizing c with
  | nil => exact ⟨c, rfl, by simp⟩
  | cons r rs ih =>
    obtain ⟨d, first, stopped, returned, self, sent⟩ := step_stopped props beh stopped returned r
    obtain ⟨c', later, sent'⟩ := ih stopped returned
    refine ⟨c', ?_, ?_⟩
    · rw [List.map_cons, Machine.exec_cons first, later]
    · rw [sent', sent, self, List.append_assoc, ← List.filterMap_append, List.singleton_append]

/-- At the time the stop has been processed nobody has been told; later every `Watch` is answered. -/
theorem exec_stop (self parent : Option PID) (memory : σ) (actor : Bool) {before : List Request} (rest : List Request)
    (noStop : Request.stop ∉ before) : ∃ c c' : ActorContext U K σ C,
      Machine.exec (step props beh) ((before ++ [Request.stop]).map Request.label) (new self parent memory actor) = some c ∧
      Machine.exec (step props beh) (rest.map Request.label) c = some c' ∧
      c.sent = [] ∧ c'.sent = rest.filterMap (lateAnswer self) := by
  obtain ⟨d, early, -, returned, own, sent⟩ := exec_alive props beh
    (c := (new self parent memory actor : ActorContext U K σ C)) rfl rfl noStop
  have stop : step props beh d Request.stop.label = some d.handleStop := by
    rw [step_request props beh returned]
    rfl
  obtain ⟨c', later, sent'⟩ := exec_stopped props beh rest (c := d.handleStop) rfl returned
  refine ⟨d.handleStop, c', ?_, later, sent, ?_⟩
  · rw [List.map_append, Machine.exec_append early]
    exact Machine.exec_cons stop
  · rw [sent', show d.handleStop.sent = [] from sent, show d.handleStop.self = self from own, List.nil_append]

/-- **Death watch** is kept in exactly the sequences in which nobody's last request
before the stop is a `Watch`, and nobody asks twice after it. -/
theorem death_watch_iff {self parent : Option PID} {memory : σ} {actor : Bool} {before rest : List Request}
    (noStop : Request.stop ∉ before) :
    DeathWatch props beh (new self parent memory actor : ActorContext U K σ C) before rest ↔
      (∀ w, Request.lastWish w before ≠ some true) ∧ ∀ w, Request.watches w rest ≤ 1 := by
  obtain ⟨c, c', early, later, silent, answers⟩ :=
    exec_stop props beh self parent memory actor rest noStop
  have count : ∀ w, (c'.sent.drop c.sent.length).countP (tells self w) = Request.watches w rest := by
    intro w
    rw [silent, answers]
    exact tells_lateAnswer self w rest
  constructor
  · rintro ⟨d, d', early', later', kept⟩
    have same : d = c := Option.some.inj (early'.symm.trans early)
    subst same
    have same' : d' = c' := Option.some.inj (later'.symm.trans later)
    subst same'
    refine ⟨fun w wish => ?_, fun w => ?_⟩
    · have told := (kept w).1 wish
      simp [silent] at told
    · have told := (kept w).2.2
      rw [show (new self parent memory actor : ActorContext U K σ C).self = self from rfl, count w] at told
      omega
  · rintro ⟨nobody, once⟩
    refine ⟨c, c', early, later, fun w => ⟨fun wish => absurd wish (nobody w), fun _ => by simp [silent], fun asked => ?_⟩⟩
    have atMost := once w
    show (c'.sent.drop c.sent.length).countP (tells self w) = 1
    rw [count w]
    omega

/-- One watcher, whose last request before the stop is an `Unwatch` and who asks again after it. -/
def leaving : List Request := [.watch ⟨1, "nonhost", "w"⟩, .unwatch ⟨1, "nonhost", "w"⟩]

def asking : List Request := [.watch ⟨1, "nonhost", "w"⟩]

theorem death_watch_iff_leaving : Request.stop ∉ leaving ∧
    (DeathWatch .plain idle (new (some ⟨0, "nonhost", "a"⟩) none () true : ActorContext Nat Nat Unit Unit) leaving asking ↔
      (∀ w, Request.lastWish w leaving ≠ some true) ∧ ∀ w, Request.watches w asking ≤ 1) :=
  ⟨by decide, death_watch_iff .plain idle (by decide)⟩

/-- A watcher that is never told: it asks before the stop and gets no message. -/
theorem watcher_untold : ¬ DeathWatch .plain idle (new (some ⟨0, "nonhost", "a"⟩) none () true : ActorContext Nat Nat Unit Unit) asking [] := by
  rintro ⟨c, c', early, -, kept⟩
  have told := (kept ("nonhost", "w")).1 (by decide)
  cases early
  exact absurd told (by decide)

end Protoactor.Actor.ActorContext
