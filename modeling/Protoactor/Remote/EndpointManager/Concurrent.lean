import Protoactor.Lib.Machine
import Protoactor.Remote.EndpointManager

/-!
# The endpoint manager under concurrent calls

Any number of threads call the manager. A step is an atomic access to `stopped_` or a section under
`connections_mutex_`; what a call does besides, with the endpoint it has got or with the event
stream and the actors of the manager in `Stop`, leaves both alone. Alone, a call does what it does
in the sequential model (`alone`).

`EnsureConnected` tests `stopped_` before it takes the mutex. A thread that is between the two when
`Stop` clears the map puts an endpoint into it afterwards (`stays_empty`).
-/

namespace Protoactor.Remote
set_option autoImplicit false
open Lib
open Actor (Ptr)

namespace EndpointManager

/-- The section of `EnsureConnected`. -/
def connect (address : String) (m : EndpointManager) : Endpoint × EndpointManager :=
  match m.connections address with
  | some endpoint => (endpoint, m)
  | none =>
    let endpoint : Endpoint := ⟨none, none⟩
    (endpoint, { m with connections := fun a => if a = address then some endpoint else m.connections a })

theorem ensureConnected_eq (address : String) (m : EndpointManager) :
    m.ensureConnected address = if m.stopped then (none, m) else (some (m.connect address).1, (m.connect address).2) := by
  unfold ensureConnected connect
  split
  · rfl
  · cases m.connections address with
    | none => rfl
    | some endpoint => rfl

/-- After the section the address has an endpoint. -/
theorem connect_connections (address : String) (m : EndpointManager) :
    (m.connect address).2.connections address = some (m.connect address).1 := by
  unfold connect
  split
  · assumption
  · exact if_pos rfl

theorem connect_stopped (address : String) (m : EndpointManager) : (m.connect address).2.stopped = m.stopped := by
  unfold connect
  split <;> rfl

/-- The manager after a call that connects to the address of a PID, unless it is stopped or there is none. -/
def connectTo (pid : Option Actor.PID) (m : EndpointManager) : EndpointManager :=
  if m.stopped then m
  else
    match pid with
    | none => m
    | some pid => if pid.address = "" then m else (m.ensureConnected pid.address).2

section
variable {Q U K : Type}

/-- Whatever they send, the calls for remote messages do the same to the manager. -/
theorem remote_connects (registry : Actor.ProcessRegistry (Process Q)) (pid sender : Option Actor.PID) (watcher : Actor.PID)
    (message : Ptr U K) (m : EndpointManager) :
    (m.remoteDeliver pid message sender : List (Effect Q U K) × EndpointManager).2 = m.connectTo pid ∧
      (m.remoteWatch registry watcher pid : List (Effect Q U K) × EndpointManager).2 = m.connectTo pid ∧
      (m.remoteUnwatch watcher pid : List (Effect Q U K) × EndpointManager).2 = m.connectTo pid ∧
      (m.remoteTerminate registry watcher pid : List (Effect Q U K) × EndpointManager).2 = m.connectTo pid := by
  unfold remoteDeliver remoteWatch remoteUnwatch remoteTerminate connectTo
  by_cases stopped : m.stopped = true
  · simp only [stopped, if_true, and_self]
  · simp only [stopped, if_false, Bool.false_eq_true]
    cases pid with
    | none => exact ⟨rfl, rfl, rfl, rfl⟩
    | some pid =>
      by_cases local_ : pid.address = ""
      · simp only [local_, if_true, and_self]
      · simp only [local_, if_false]
        -- with an actor at the endpoint or without
        refine ⟨?_, ?_, ?_, ?_⟩ <;> split <;> rfl

end

/-- A call; that of a remote message is with the PID whose address it connects to. -/
inductive Call where
  | ensureConnected (address : String)
  | removeEndpoint (address : String)
  | remoteDeliver (target : Option Actor.PID)
  | remoteWatch (watchee : Option Actor.PID)
  | remoteUnwatch (watchee : Option Actor.PID)
  | remoteTerminate (watchee : Option Actor.PID)
  | stop
  deriving DecidableEq, Repr

/-- What the call makes of the manager when no other thread is at work. -/
def Call.sequential (m : EndpointManager) : Call → EndpointManager
  | .ensureConnected address => (m.ensureConnected address).2
  | .removeEndpoint address => m.removeEndpoint address
  | .remoteDeliver pid | .remoteWatch pid | .remoteUnwatch pid | .remoteTerminate pid => m.connectTo pid
  | .stop => m.stop

namespace Concurrent

/-- What a thread is about to do. `late` tells that its call has begun after a return of `Stop`. -/
inductive Phase where
  | idle
  /-- the test of `stopped_` in a call for a remote message -/
  | testing (late : Bool) (pid : Option Actor.PID)
  /-- the test of `stopped_` in `EnsureConnected` -/
  | entering (late : Bool) (address : String)
  /-- the section of `EnsureConnected` -/
  | connecting (late : Bool) (address : String)
  | removing (address : String)
  /-- `stopped_.exchange(true)` -/
  | exchanging
  /-- the section of `Stop` -/
  | clearing
  /-- the return of `Stop` -/
  | leaving
  deriving DecidableEq, Repr

/-- `stopReturned` and `answers` are auxiliary; an answer of `EnsureConnected` is with the `late` of its call. -/
structure State where
  manager : EndpointManager
  calls : Nat → Phase
  stopReturned : Bool
  answers : List (Bool × Option Endpoint)

inductive Label where
  | call (i : Nat) (call : Call)
  | run (i : Nat)
  deriving DecidableEq, Repr

/-- The thread that takes a step. -/
def Label.thread : Label → Nat
  | .call i _ | .run i => i

namespace State

def put (i : Nat) (phase : Phase) (s : State) : State := { s with calls := fun j => if j = i then phase else s.calls j }

def answer (late : Bool) (endpoint : Option Endpoint) (s : State) : State := { s with answers := s.answers ++ [(late, endpoint)] }

/-- `stopped_.exchange(true)`, where it was false. -/
def mark (s : State) : State := { s with manager := { s.manager with stopped := true } }

/-- `connections_.clear()`. -/
def clear (s : State) : State := { s with manager := { s.manager with connections := fun _ => none } }

def call (i : Nat) (s : State) : Call → State
  | .ensureConnected address => s.put i (.entering s.stopReturned address)
  | .removeEndpoint address => s.put i (.removing address)
  | .remoteDeliver pid | .remoteWatch pid | .remoteUnwatch pid | .remoteTerminate pid => s.put i (.testing s.stopReturned pid)
  | .stop => s.put i .exchanging

/-- The next step of thread `i`. -/
def run (i : Nat) (s : State) : Phase → Option State
  | .idle => none
  | .testing late pid =>
    if s.manager.stopped then some (s.put i .idle)
    else
      match pid with
      | none => some (s.put i .idle)
      | some pid => if pid.address = "" then some (s.put i .idle) else some (s.put i (.entering late pid.address))
  | .entering late address =>
    if s.manager.stopped then some ((s.answer late none).put i .idle) else some (s.put i (.connecting late address))
  | .connecting late address =>
    let connected := s.manager.connect address
    some (({ s with manager := connected.2 }.answer late (some connected.1)).put i .idle)
  | .removing address => some ({ s with manager := s.manager.removeEndpoint address }.put i .idle)
  | .exchanging =>
    if s.manager.stopped then some (s.put i .leaving)
    else some (s.mark.put i .clearing)
  | .clearing => some (s.clear.put i .leaving)
  | .leaving => some ({ s with stopReturned := true }.put i .idle)

end State

def step : Machine State Label := fun s l =>
  match l with
  | .call i call => if s.calls i = .idle then some (s.call i call) else none
  | .run i => s.run i (s.calls i)

/-- A new manager, nobody at work. -/
def init : State := ⟨new, fun _ => .idle, false, []⟩

/-- **A stopped manager stays empty**, and answers no endpoint to a call begun after the stop. -/
structure StaysEmpty (s : State) : Prop where
  empty : s.stopReturned = true → ∀ address, s.manager.connections address = none
  refused : ∀ endpoint, (true, endpoint) ∈ s.answers → endpoint = none

/-- `Stop` clears the map when no thread is between the test and the section of `EnsureConnected`, and
a `Stop` that finds `stopped_` set does so when the other one has cleared the map. -/
def allowed (s : State) (l : Label) : Prop :=
  (s.calls l.thread = .clearing → ∀ j late address, s.calls j ≠ .connecting late address) ∧
  (s.calls l.thread = .exchanging → s.manager.stopped = true → ∀ j, s.calls j ≠ .clearing)

/-! ## One call after another -/

theorem put_calls (i j : Nat) (phase : Phase) (s : State) : (s.put i phase).calls j = if j = i then phase else s.calls j := rfl

@[simp] theorem put_own (i : Nat) (phase : Phase) (s : State) : (s.put i phase).calls i = phase := if_pos rfl

@[simp] theorem put_manager (i : Nat) (phase : Phase) (s : State) : (s.put i phase).manager = s.manager := rfl

/-- Thread `i` runs on, alone, until its call is over, and leaves `m`. -/
def EndsAs (i : Nat) (s : State) (m : EndpointManager) : Prop :=
  ∃ n t, Machine.exec step (.replicate n (.run i)) s = some t ∧ t.calls i = .idle ∧ t.manager = m

theorem EndsAs.run {i : Nat} {s s' : State} {m : EndpointManager} (next : s.run i (s.calls i) = some s') (rest : EndsAs i s' m) :
    EndsAs i s m := by
  obtain ⟨n, t, execution, ended, same⟩ := rest
  have first : step s (.run i) = some s' := next
  exact ⟨n + 1, t, (Machine.exec_cons first).trans execution, ended, same⟩

theorem EndsAs.over {i : Nat} {s : State} (idle : s.calls i = .idle) : EndsAs i s s.manager := ⟨0, s, rfl, idle, rfl⟩

/-- `EnsureConnected` alone. -/
theorem ends_entering {i : Nat} {s : State} {late : Bool} {address : String} (at_ : s.calls i = .entering late address) :
    EndsAs i s (s.manager.ensureConnected address).2 := by
  rw [ensureConnected_eq]
  by_cases stopped : s.manager.stopped = true
  · have next : s.run i (s.calls i) = some ((s.answer late none).put i .idle) := by simp [at_, State.run, stopped]
    rw [if_pos stopped]
    exact .run next (.over (put_own ..))
  · have next : s.run i (s.calls i) = some (s.put i (.connecting late address)) := by simp [at_, State.run, stopped]
    rw [if_neg stopped]
    exact .run next (.run (by rw [put_own]; rfl) (.over (put_own ..)))

theorem ends_testing {i : Nat} {s : State} {late : Bool} {pid : Option Actor.PID} (at_ : s.calls i = .testing late pid) :
    EndsAs i s (s.manager.connectTo pid) := by
  unfold connectTo
  by_cases stopped : s.manager.stopped = true
  · have next : s.run i (s.calls i) = some (s.put i .idle) := by simp [at_, State.run, stopped]
    rw [if_pos stopped]
    exact .run next (.over (put_own ..))
  · rw [if_neg stopped]
    cases pid with
    | none =>
      have next : s.run i (s.calls i) = some (s.put i .idle) := by simp [at_, State.run, stopped]
      exact .run next (.over (put_own ..))
    | some pid =>
      by_cases local_ : pid.address = ""
      · have next : s.run i (s.calls i) = some (s.put i .idle) := by simp [at_, State.run, stopped, local_]
        simp only [if_pos local_]
        exact .run next (.over (put_own ..))
      · have next : s.run i (s.calls i) = some (s.put i (.entering late pid.address)) := by
          simp [at_, State.run, stopped, local_]
        simp only [if_neg local_]
        exact .run next (ends_entering (put_own ..))

theorem ends_exchanging {i : Nat} {s : State} (at_ : s.calls i = .exchanging) : EndsAs i s s.manager.stop := by
  unfold stop
  by_cases stopped : s.manager.stopped = true
  · have next : s.run i (s.calls i) = some (s.put i .leaving) := by simp [at_, State.run, stopped]
    rw [if_pos stopped]
    refine .run next (.run (by rw [put_own]; rfl) ?_)
    exact .over (put_own ..)
  · have next : s.run i (s.calls i) = some (s.mark.put i .clearing) := by
      simp [at_, State.run, stopped]
    rw [if_neg stopped]
    exact .run next (.run (by rw [put_own]; rfl) (.run (by rw [put_own]; rfl) (.over (put_own ..))))

/-- **Alone**, a call is the sequential one. -/
theorem alone (i : Nat) (s : State) (call : Call) : EndsAs i (s.call i call) (call.sequential s.manager) := by
  cases call with
  | ensureConnected address => exact ends_entering (put_own ..)
  | removeEndpoint address => exact .run (by rw [State.call, put_own]; rfl) (.over (put_own ..))
  | remoteDeliver pid | remoteWatch pid | remoteUnwatch pid | remoteTerminate pid => exact ends_testing (put_own ..)
  | stop => exact ends_exchanging (put_own ..)

/-! ## What a step can do -/

/-- The steps of thread `i`, by where it is. -/
inductive Stepped (s : State) (i : Nat) : State → Prop where
  | called (phase : Phase) (idle : s.calls i = .idle)
      (first : phase = .exchanging ∨ (∃ address, phase = .removing address) ∨
        (∃ pid, phase = .testing s.stopReturned pid) ∨ ∃ address, phase = .entering s.stopReturned address) :
      Stepped s i (s.put i phase)
  | passed {late : Bool} {pid : Option Actor.PID} (at_ : s.calls i = .testing late pid) : Stepped s i (s.put i .idle)
  | tested {late : Bool} {pid : Option Actor.PID} (at_ : s.calls i = .testing late pid) (running : s.manager.stopped = false)
      (address : String) : Stepped s i (s.put i (.entering late address))
  | refused {late : Bool} {address : String} (at_ : s.calls i = .entering late address) :
      Stepped s i ((s.answer late none).put i .idle)
  | entered {late : Bool} {address : String} (at_ : s.calls i = .entering late address) (running : s.manager.stopped = false) :
      Stepped s i (s.put i (.connecting late address))
  | connected {late : Bool} {address : String} (at_ : s.calls i = .connecting late address) :
      Stepped s i (({ s with manager := (s.manager.connect address).2 }.answer late
        (some (s.manager.connect address).1)).put i .idle)
  | removed {address : String} (at_ : s.calls i = .removing address) :
      Stepped s i ({ s with manager := s.manager.removeEndpoint address }.put i .idle)
  | again (at_ : s.calls i = .exchanging) (stopped : s.manager.stopped = true) : Stepped s i (s.put i .leaving)
  | stopped (at_ : s.calls i = .exchanging) (running : s.manager.stopped = false) :
      Stepped s i (s.mark.put i .clearing)
  | cleared (at_ : s.calls i = .clearing) :
      Stepped s i (s.clear.put i .leaving)
  | left (at_ : s.calls i = .leaving) : Stepped s i ({ s with stopReturned := true }.put i .idle)

theorem stepped {s s' : State} {l : Label} (act : step s l = some s') : Stepped s l.thread s' := by
  cases l with
  | call i call =>
    simp only [step] at act
    split at act
    · rename_i idle
      cases act
      cases call with
      | ensureConnected address => exact .called _ idle (.inr (.inr (.inr ⟨address, rfl⟩)))
      | removeEndpoint address => exact .called _ idle (.inr (.inl ⟨address, rfl⟩))
      | remoteDeliver pid | remoteWatch pid | remoteUnwatch pid | remoteTerminate pid =>
        exact .called _ idle (.inr (.inr (.inl ⟨pid, rfl⟩)))
      | stop => exact .called _ idle (.inl rfl)
    · cases act
  | run i =>
    simp only [step] at act
    cases at_ : s.calls i with
    | idle => rw [at_] at act; cases act
    | testing late pid =>
      rw [at_] at act
      simp only [State.run] at act
      split at act
      · cases act; exact .passed at_
      · rename_i running
        split at act
        · cases act; exact .passed at_
        · split at act
          · cases act; exact .passed at_
          · cases act; exact .tested at_ (by simpa using running) _
    | entering late address =>
      rw [at_] at act
      simp only [State.run] at act
      split at act
      · cases act; exact .refused at_
      · rename_i running
        cases act
        exact .entered at_ (by simpa using running)
    | connecting late address => rw [at_] at act; cases act; exact .connected at_
    | removing address => rw [at_] at act; cases act; exact .removed at_
    | exchanging =>
      rw [at_] at act
      simp only [State.run] at act
      split at act
      · rename_i stopped
        cases act
        exact .again at_ stopped
      · rename_i running
        cases act
        exact .stopped at_ (by simpa using running)
    | clearing => rw [at_] at act; cases act; exact .cleared at_
    | leaving => rw [at_] at act; cases act; exact .left at_

theorem Stepped.others {s s' : State} {i j : Nat} (act : Stepped s i s') (other : j ≠ i) : s'.calls j = s.calls j := by
  cases act <;> exact if_neg other

theorem Stepped.stays_stopped {s s' : State} {i : Nat} (act : Stepped s i s') (stopped : s.manager.stopped = true) :
    s'.manager.stopped = true := by
  cases act with
  | connected at_ => exact (connect_stopped ..).trans stopped
  | stopped at_ running => rfl
  | _ => exact stopped

/-! ## Calls begun late -/

/-- What a thread that is there has seen of `stopped_`. -/
def Phase.Seen (stopped : Bool) : Phase → Prop
  | .testing true _ | .entering true _ | .clearing | .leaving => stopped = true
  | .connecting true _ => False
  | _ => True

theorem Phase.Seen.mono {before after : Bool} (up : before = true → after = true) {phase : Phase} (seen : phase.Seen before) :
    phase.Seen after := by
  unfold Seen at seen ⊢
  split at seen <;> simp_all

/-- What holds of `stopped_` and the late calls in every run. -/
structure Seen (s : State) : Prop where
  returned : s.stopReturned = true → s.manager.stopped = true
  threads : ∀ i, (s.calls i).Seen s.manager.stopped
  refused : ∀ endpoint, (true, endpoint) ∈ s.answers → endpoint = none

theorem seen_init : Seen init := by
  constructor
  case returned => exact fun returned => absurd returned Bool.false_ne_true
  case threads => exact fun i => True.intro
  case refused => exact fun endpoint member => absurd member List.not_mem_nil

/-- Where the thread has come to. -/
theorem Seen.own {s s' : State} {i : Nat} (seen : Seen s) (act : Stepped s i s') : (s'.calls i).Seen s'.manager.stopped := by
  have here := seen.threads i
  have late := seen.returned
  cases act with
  | called phase idle first =>
    rw [put_own, put_manager]
    rcases first with rfl | ⟨address, rfl⟩ | ⟨pid, rfl⟩ | ⟨address, rfl⟩
    · exact True.intro
    · exact True.intro
    · cases returned : s.stopReturned with
      | false => exact True.intro
      | true => exact late returned
    · cases returned : s.stopReturned with
      | false => exact True.intro
      | true => exact late returned
  | tested at_ running address =>
    rename_i late' pid
    rw [put_own]
    cases late' with
    | false => exact True.intro
    | true => rwa [at_] at here
  | entered at_ running =>
    rename_i late' address
    rw [put_own]
    cases late' with
    | false => exact True.intro
    | true =>
      rw [at_] at here
      exact absurd (here.symm.trans running) Bool.true_eq_false.mp
  | again at_ stopped => rw [put_own]; exact stopped
  | cleared at_ => rw [put_own]; rwa [at_] at here
  | stopped at_ running => rw [put_own]; rfl
  | _ => rw [put_own]; exact True.intro

theorem Seen.step {s s' : State} {i : Nat} (seen : Seen s) (act : Stepped s i s') : Seen s' := by
  constructor
  case returned =>
    intro returned
    cases act with
    | left at_ =>
      have here := seen.threads i
      rwa [at_] at here
    | stopped at_ running => rfl
    | connected at_ => exact (connect_stopped ..).trans (seen.returned returned)
    | _ => exact seen.returned returned
  case threads =>
    intro j
    by_cases own : j = i
    · subst own
      exact seen.own act
    · rw [act.others own]
      exact (seen.threads j).mono act.stays_stopped
  case refused =>
    intro endpoint member
    cases act with
    | refused at_ =>
      rcases List.mem_append.1 member with old | new
      · exact seen.refused endpoint old
      · exact congrArg Prod.snd (List.mem_singleton.1 new)
    | connected at_ =>
      have here := seen.threads i
      rw [at_] at here
      rcases List.mem_append.1 member with old | new
      · exact seen.refused endpoint old
      · cases List.mem_singleton.1 new
        exact here.elim
    | _ => exact seen.refused endpoint member

/-! ## The cleared map -/

/-- No endpoint, and nobody who is about to make one. -/
def Quiet (s : State) : Prop :=
  (∀ address, s.manager.connections address = none) ∧ ∀ j late address, s.calls j ≠ .connecting late address

/-- `Stop` has cleared the map. -/
def Cleared (s : State) : Prop := s.manager.stopped = true ∧ ∀ j, s.calls j ≠ .clearing

/-- What an allowed run keeps besides. -/
structure Inv (s : State) : Prop where
  one : ∀ i j, s.calls i = .clearing → s.calls j = .clearing → i = j
  leaving : ∀ i, s.calls i = .leaving → Cleared s
  returned : s.stopReturned = true → Cleared s
  quiet : Cleared s → Quiet s

theorem inv_init : Inv init := by
  constructor
  case one => exact fun i j at_ => by cases at_
  case leaving => exact fun i at_ => by cases at_
  case returned => exact fun returned => absurd returned Bool.false_ne_true
  case quiet => exact fun cleared => absurd cleared.1 Bool.false_ne_true

/-- A step of a thread that is not in the section of `Stop` and does not come to it. -/
theorem cleared_iff {s s' : State} {i : Nat} (others : ∀ j, j ≠ i → s'.calls j = s.calls j) (before : s.calls i ≠ .clearing)
    (after : s'.calls i ≠ .clearing) (same : s'.manager.stopped = s.manager.stopped) : Cleared s' ↔ Cleared s := by
  unfold Cleared
  rw [same]
  refine and_congr_right fun _ => ⟨fun none_ j => ?_, fun none_ j => ?_⟩
  · by_cases own : j = i
    · exact own ▸ before
    · exact others j own ▸ none_ j
  · by_cases own : j = i
    · exact own ▸ after
    · rw [others j own]
      exact none_ j

/-- Such a step, if it does not lead to the end of `Stop` either. -/
theorem Inv.frame {s s' : State} {i : Nat} (inv : Inv s) (others : ∀ j, j ≠ i → s'.calls j = s.calls j) (before : s.calls i ≠ .clearing)
    (after : s'.calls i ≠ .clearing) (same : s'.manager.stopped = s.manager.stopped)
    (leaving : s'.calls i = .leaving → Cleared s) (returned : s'.stopReturned = true → Cleared s)
    (quiet : Cleared s → Quiet s → Quiet s') : Inv s' := by
  have cleared : Cleared s' ↔ Cleared s := cleared_iff others before after same
  constructor
  case one =>
    intro j k here there
    have left : j ≠ i := fun own => after (own ▸ here)
    have right : k ≠ i := fun own => after (own ▸ there)
    exact inv.one j k (others j left ▸ here) (others k right ▸ there)
  case leaving =>
    intro j at_
    refine cleared.2 ?_
    by_cases own : j = i
    · exact leaving (own ▸ at_)
    · exact inv.leaving j (others j own ▸ at_)
  case returned => exact fun flag => cleared.2 (returned flag)
  case quiet => exact fun holds => quiet (cleared.1 holds) (inv.quiet (cleared.1 holds))

/-- A map without endpoints and a thread that is not about to make one. -/
theorem Quiet.frame {s s' : State} {i : Nat} (quiet : Quiet s) (others : ∀ j, j ≠ i → s'.calls j = s.calls j)
    (kept : ∀ address, s.manager.connections address = none → s'.manager.connections address = none)
    (after : ∀ late address, s'.calls i ≠ .connecting late address) : Quiet s' := by
  refine ⟨fun address => kept address (quiet.1 address), fun j late address => ?_⟩
  by_cases own : j = i
  · exact own ▸ after late address
  · rw [others j own]
    exact quiet.2 j late address

/-- The exchange that finds false: nobody has been there before. -/
theorem inv_mark {s : State} (seen : Seen s) (running : s.manager.stopped = false) (i : Nat) :
    Inv (s.mark.put i .clearing) := by
  have fresh : ∀ j, s.calls j ≠ .clearing ∧ s.calls j ≠ .leaving := by
    intro j
    have there := seen.threads j
    constructor <;> intro at_j <;> rw [at_j] at there <;> exact absurd (there.symm.trans running) Bool.true_eq_false.mp
  have only : ∀ j phase, (s.mark.put i .clearing).calls j = phase → phase = .clearing ∨ phase = .leaving → j = i := by
    rintro j phase rfl kind
    rw [put_calls] at kind
    split at kind
    · assumption
    · exact (kind.elim (fresh j).1 (fresh j).2).elim
  constructor
  case one => exact fun j k here there => (only j _ here (.inl rfl)).trans (only k _ there (.inl rfl)).symm
  case leaving =>
    intro j at_j
    have own := only j _ at_j (.inr rfl)
    rw [own, put_own] at at_j
    cases at_j
  case returned => exact fun flag => absurd ((seen.returned flag).symm.trans running) Bool.true_eq_false.mp
  case quiet => exact fun cleared => absurd (put_own ..) (cleared.2 i)

/-- The section of `Stop`: no other thread is in it, and none is about to connect. -/
theorem Inv.clear {s : State} {i : Nat} (inv : Inv s) (seen : Seen s) (at_ : s.calls i = .clearing)
    (quiet : ∀ j late address, s.calls j ≠ .connecting late address) : Inv (s.clear.put i .leaving) := by
  have stopped : s.manager.stopped = true := by
    have here := seen.threads i
    rwa [at_] at here
  have alone : ∀ j, (s.clear.put i .leaving).calls j ≠ .clearing := by
    intro j at_j
    rw [put_calls] at at_j
    split at at_j
    · cases at_j
    · rename_i other
      exact other (inv.one j i at_j at_)
  constructor
  case one => exact fun j k here => absurd here (alone j)
  case leaving => exact fun _ _ => ⟨stopped, alone⟩
  case returned => exact fun _ => ⟨stopped, alone⟩
  case quiet =>
    refine fun _ => ⟨fun _ => rfl, fun j late address at_j => ?_⟩
    rw [put_calls] at at_j
    split at at_j
    · cases at_j
    · exact quiet j late address at_j

theorem Inv.step {s s' : State} {l : Label} (inv : Inv s) (seen : Seen s) (allow : allowed s l) (act : Stepped s l.thread s') :
    Inv s' := by
  obtain ⟨clear, again⟩ := allow
  generalize l.thread = i at act clear again
  have returned := inv.returned
  have others : ∀ j, j ≠ i → s'.calls j = s.calls j := fun j other => act.others other
  cases act with
  | called phase idle first =>
    have kind : phase ≠ .clearing ∧ phase ≠ .leaving ∧ ∀ late address, phase ≠ .connecting late address := by
      rcases first with rfl | ⟨address, rfl⟩ | ⟨pid, rfl⟩ | ⟨address, rfl⟩ <;> simp
    refine inv.frame others (by simp [idle]) (by simpa using kind.1) rfl (by simp [kind.2.1]) returned fun _ quiet => ?_
    exact quiet.frame others (fun _ => id) (by simpa using kind.2.2)
  | passed at_ | refused at_ =>
    refine inv.frame others (by simp [at_]) (by simp) rfl (by simp) returned fun _ quiet => ?_
    exact quiet.frame others (fun _ => id) (by simp)
  | tested at_ running address =>
    refine inv.frame others (by simp [at_]) (by simp) rfl (by simp) returned fun _ quiet => ?_
    exact quiet.frame others (fun _ => id) (by simp)
  | entered at_ running =>
    -- a thread that passes the test does so before the stop
    refine inv.frame others (by simp [at_]) (by simp) rfl (by simp) returned fun cleared _ => ?_
    exact absurd (cleared.1.symm.trans running) Bool.true_eq_false.mp
  | connected at_ =>
    refine inv.frame others (by simp [at_]) (by simp) (connect_stopped ..) (by simp) returned fun _ quiet => ?_
    exact absurd at_ (quiet.2 i _ _)
  | removed at_ =>
    refine inv.frame others (by simp [at_]) (by simp) rfl (by simp) returned fun _ quiet => ?_
    refine quiet.frame others (fun address none_ => ?_) (by simp)
    simp [removeEndpoint, none_]
  | again at_ stopped =>
    have cleared : Cleared s := ⟨stopped, again at_ stopped⟩
    refine inv.frame others (by simp [at_]) (by simp) rfl (fun _ => cleared) returned fun _ quiet => ?_
    exact quiet.frame others (fun _ => id) (by simp)
  | stopped at_ running => exact inv_mark seen running i
  | cleared at_ => exact inv.clear seen at_ (clear at_)
  | left at_ =>
    refine inv.frame others (by simp [at_]) (by simp) rfl (by simp) (fun _ => inv.leaving i at_) fun _ quiet => ?_
    exact quiet.frame others (fun _ => id) (by simp)

theorem keeps_inv : Machine.Keeps step allowed fun s => Seen s ∧ Inv s := by
  rintro s l s' ⟨seen, inv⟩ allow next
  exact ⟨seen.step (stepped next), inv.step seen allow (stepped next)⟩

/-! ## Results -/

/-- A thread between the test and the section when `Stop` has cleared the map. -/
theorem connects_after {s : State} {i j : Nat} {late : Bool} {address : String} (clearing : s.calls i = .clearing)
    (connecting : s.calls j = .connecting late address) : ∃ ls t, Machine.Run step Machine.free s ls t ∧ ¬ StaysEmpty t := by
  have differ : j ≠ i := by
    rintro rfl
    rw [clearing] at connecting
    cases connecting
  let s₁ := s.clear.put i .leaving
  let s₂ := { s₁ with stopReturned := true }.put i .idle
  let s₃ := ({ s₂ with manager := (s₂.manager.connect address).2 }.answer late (some (s₂.manager.connect address).1)).put j .idle
  have first : step s (.run i) = some s₁ := by simp only [step, clearing]; rfl
  have second : step s₁ (.run i) = some s₂ := by simp only [step, s₁, put_own]; rfl
  have third : step s₂ (.run j) = some s₃ := by
    have there : s₂.calls j = .connecting late address := by simp only [s₂, s₁, put_calls, if_neg differ]; exact connecting
    simp only [step, there]
    rfl
  refine ⟨[.run i, .run i, .run j], s₃, .cons first True.intro (.cons second True.intro (.cons third True.intro (.nil _))), ?_⟩
  intro stays
  have gone := stays.empty rfl address
  exact absurd ((connect_connections address s₂.manager).symm.trans gone) (by simp)

/-- **A stopped manager stays empty** in every run in which `Stop` clears the map with no thread between
the test and the section of `EnsureConnected`, and in which no `Stop` finds another one before its section;
from a state in which `Stop` would clear the map with a thread in between, some run fails. -/
theorem stays_empty (ls : List Label) (s : State) :
    (Machine.Run step allowed init ls s → StaysEmpty s) ∧
    ∀ i j late address, s.calls i = .clearing → s.calls j = .connecting late address →
      ∃ ls' t, Machine.Run step Machine.free s ls' t ∧ ¬ StaysEmpty t := by
  constructor
  · intro run
    obtain ⟨seen, inv⟩ := run.keeps keeps_inv ⟨seen_init, inv_init⟩
    constructor
    case empty => exact fun returned => (inv.quiet (inv.returned returned)).1
    case refused => exact seen.refused
  · exact fun i j late address clearing connecting => connects_after clearing connecting

/-- Thread 1 has got its endpoint when thread 0 clears the map, and asks again after the stop. -/
def inOrder : List Label :=
  [.call 1 (.ensureConnected "b:1"), .call 0 .stop, .run 1, .run 0, .run 1, .run 0, .run 0,
    .call 1 (.ensureConnected "b:1"), .run 1]

theorem stays_empty_in_order : ∃ s, Machine.Run step allowed init inOrder s ∧ s.stopReturned = true ∧
    s.answers = [(false, some ⟨none, none⟩), (true, none)] ∧ StaysEmpty s := by
  have other : ∀ {s : State} {l : Label}, s.calls l.thread ≠ .clearing → s.calls l.thread ≠ .exchanging → allowed s l :=
    fun clear exchange => ⟨fun at_ => absurd at_ clear, fun at_ => absurd at_ exchange⟩
  have run : ∃ s, Machine.Run step allowed init inOrder s ∧ s.stopReturned = true ∧
      s.answers = [(false, some ⟨none, none⟩), (true, none)] := by
    refine ⟨_, .cons rfl (other (by decide) (by decide)) (.cons rfl (other (by decide) (by decide))
      (.cons rfl (other (by decide) (by decide)) (.cons rfl ?exchange (.cons rfl (other (by decide) (by decide))
      (.cons rfl ?clear (.cons rfl (other (by decide) (by decide)) (.cons rfl (other (by decide) (by decide))
      (.cons rfl (other (by decide) (by decide)) (.nil _))))))))), rfl, rfl⟩
    case exchange => exact ⟨fun at_ => absurd at_ (by decide), fun _ stopped => absurd stopped (by decide)⟩
    case clear =>
      refine ⟨fun _ j late address connecting => ?_, fun at_ => absurd at_ (by decide)⟩
      match j with
      | 0 => cases connecting
      | 1 => cases connecting
      | _ + 2 => cases connecting
  obtain ⟨s, run, returned, answers⟩ := run
  exact ⟨s, run, returned, answers, (stays_empty inOrder s).1 run⟩

/-- Thread 1 passes the test, thread 0 stops the manager, and thread 1 goes on. -/
theorem not_stays_empty : ∃ ls t, Machine.Run step Machine.free init ls t ∧ ¬ StaysEmpty t := by
  refine ⟨[.call 1 (.ensureConnected "b:1"), .run 1, .call 0 .stop, .run 0, .run 0, .run 0, .run 1], _,
    Machine.free_of_exec rfl, fun stays => ?_⟩
  exact absurd (stays.empty rfl "b:1") (by decide)

end Concurrent

end EndpointManager

end Protoactor.Remote
