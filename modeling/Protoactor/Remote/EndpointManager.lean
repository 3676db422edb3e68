import Protoactor.Actor.Registry
import Protoactor.Remote.Messages

/-!
# The endpoint manager (`src/remote/endpoint_manager.cpp`)

`EndpointManager` with its map of connections as a function. An operation answers what is handed
on and the manager after it; `Q` is the type of the processes of this system. `EnsureConnected`
makes an endpoint without a writer and without a watcher, and no other code gives it one.
-/

namespace Protoactor.Remote
set_option autoImplicit false
open Actor (Ptr Header ProcessRegistry)

variable {Q U K : Type}

/-- What the registry hands out: a process of this system or a `RemoteProcess`. -/
inductive Process (Q : Type) where
  | actor (process : Q)
  | remote (pid : Actor.PID)
  deriving DecidableEq, Repr

structure Endpoint where
  writer : Option Actor.PID
  watcher : Option Actor.PID
  deriving DecidableEq, Repr

/-- A call of a process, or a message to an actor of an endpoint. -/
inductive Effect (Q U K : Type) where
  | sendUserMessage (process : Process Q) (pid : Actor.PID) (message : Ptr U K)
  | sendSystemMessage (process : Process Q) (pid : Actor.PID) (message : Ptr U K)
  | remoteDeliver (writer : Actor.PID) (deliver : RemoteDeliver Actor.PID (Ptr U K))
  | remoteWatch (endpointWatcher watcher watchee : Actor.PID)
  | remoteUnwatch (endpointWatcher watcher watchee : Actor.PID)
  | remoteTerminate (endpointWatcher watcher watchee : Actor.PID)
  deriving DecidableEq, Repr

/-- To the process under the id of a PID, if there is one. -/
def sendLocal (registry : ProcessRegistry (Process Q)) (pid : Actor.PID) (message : Ptr U K) : List (Effect Q U K) :=
  match registry.getLocal pid.id with
  | (process, true) => [.sendSystemMessage process pid message]
  | (_, false) => []

structure EndpointManager where
  stopped : Bool
  connections : String → Option Endpoint

namespace EndpointManager

def new : EndpointManager := ⟨false, fun _ => none⟩

def ensureConnected (address : String) (m : EndpointManager) : Option Endpoint × EndpointManager :=
  if m.stopped then (none, m)
  else
    match m.connections address with
    | some endpoint => (some endpoint, m)
    | none =>
      let endpoint : Endpoint := ⟨none, none⟩
      (some endpoint, { m with connections := fun a => if a = address then some endpoint else m.connections a })

def removeEndpoint (address : String) (m : EndpointManager) : EndpointManager :=
  { m with connections := fun a => if a = address then none else m.connections a }

def stop (m : EndpointManager) : EndpointManager :=
  if m.stopped then m else ⟨true, fun _ => none⟩

/-- The header of the record stays null. -/
def remoteDeliver (target : Option Actor.PID) (message : Ptr U K) (sender : Option Actor.PID) (m : EndpointManager) :
    List (Effect Q U K) × EndpointManager :=
  if m.stopped then ([], m)
  else
    match target with
    | none => ([], m)
    | some pid =>
      if pid.address = "" then ([], m)
      else
        let connected := m.ensureConnected pid.address
        match connected.1.bind Endpoint.writer with
        -- `TODO: Publish DeadLetterEvent`
        | none => ([], connected.2)
        | some writer => ([.remoteDeliver writer ⟨none, message, target, sender, -1⟩], connected.2)

def remoteWatch (registry : ProcessRegistry (Process Q)) (watcher : Actor.PID) (watchee : Option Actor.PID) (m : EndpointManager) :
    List (Effect Q U K) × EndpointManager :=
  if m.stopped then (sendLocal registry watcher (.terminated watchee .stopped), m)
  else
    match watchee with
    | none => ([], m)
    | some pid =>
      if pid.address = "" then ([], m)
      else
        let connected := m.ensureConnected pid.address
        match connected.1.bind Endpoint.watcher with
        | none => (sendLocal registry watcher (.terminated watchee .addressTerminated), connected.2)
        | some endpointWatcher => ([.remoteWatch endpointWatcher watcher pid], connected.2)

def remoteUnwatch (watcher : Actor.PID) (watchee : Option Actor.PID) (m : EndpointManager) :
    List (Effect Q U K) × EndpointManager :=
  if m.stopped then ([], m)
  else
    match watchee with
    | none => ([], m)
    | some pid =>
      if pid.address = "" then ([], m)
      else
        let connected := m.ensureConnected pid.address
        match connected.1.bind Endpoint.watcher with
        | none => ([], connected.2)
        | some endpointWatcher => ([.remoteUnwatch endpointWatcher watcher pid], connected.2)

def remoteTerminate (registry : ProcessRegistry (Process Q)) (watcher : Actor.PID) (watchee : Option Actor.PID)
    (m : EndpointManager) : List (Effect Q U K) × EndpointManager :=
  if m.stopped then ([], m)
  else
    match watchee with
    | none => (sendLocal registry watcher (.terminated watchee .stopped), m)
    | some pid =>
      if pid.address = "" then (sendLocal registry watcher (.terminated watchee .stopped), m)
      else
        let connected := m.ensureConnected pid.address
        match connected.1.bind Endpoint.watcher with
        | none => (sendLocal registry watcher (.terminated watchee .stopped), connected.2)
        | some endpointWatcher => ([.remoteTerminate endpointWatcher watcher pid], connected.2)

/-! ## Endpoints -/

/-- The actor of an endpoint that a lookup ends with; a new endpoint has none. -/
def actor (role : Endpoint → Option Actor.PID) (address : String) (m : EndpointManager) : Option Actor.PID :=
  if m.stopped then none else (m.connections address).bind role

/-- The endpoint that a call connects to has the actor that was there. -/
theorem ensureConnected_bind {role : Endpoint → Option Actor.PID} (fresh : role ⟨none, none⟩ = none) (address : String)
    (m : EndpointManager) : (m.ensureConnected address).1.bind role = m.actor role address := by
  unfold ensureConnected actor
  split
  · rfl
  · cases m.connections address with
    | none => exact fresh
    | some endpoint => rfl

/-- **What is handed on** of a message: one record for the writer, if there is one. -/
theorem remoteDeliver_eq (pid : Actor.PID) (message : Ptr U K) (sender : Option Actor.PID) (m : EndpointManager) :
    (m.remoteDeliver (some pid) message sender : List (Effect Q U K) × EndpointManager).1 =
      if pid.address = "" then []
      else match m.actor Endpoint.writer pid.address with
        | none => []
        | some writer => [.remoteDeliver writer ⟨none, message, some pid, sender, -1⟩] := by
  unfold remoteDeliver
  by_cases stopped : m.stopped
  · simp [stopped, actor]
  · rw [if_neg stopped]
    simp only
    split
    · rfl
    · rw [← ensureConnected_bind (rfl : Endpoint.writer _ = none) pid.address m]
      split <;> rfl

theorem remoteWatch_eq (registry : ProcessRegistry (Process Q)) (watcher watchee : Actor.PID) (m : EndpointManager) :
    (m.remoteWatch registry watcher (some watchee) : List (Effect Q U K) × EndpointManager).1 =
      if m.stopped then sendLocal registry watcher (.terminated watchee .stopped)
      else if watchee.address = "" then []
      else match m.actor Endpoint.watcher watchee.address with
        | none => sendLocal registry watcher (.terminated watchee .addressTerminated)
        | some endpointWatcher => [.remoteWatch endpointWatcher watcher watchee] := by
  unfold remoteWatch
  by_cases stopped : m.stopped
  · rw [if_pos stopped, if_pos stopped]
  · rw [if_neg stopped, if_neg stopped]
    simp only
    split
    · rfl
    · rw [← ensureConnected_bind (rfl : Endpoint.watcher _ = none) watchee.address m]
      split <;> rfl

theorem remoteUnwatch_eq (watcher watchee : Actor.PID) (m : EndpointManager) :
    (m.remoteUnwatch watcher (some watchee) : List (Effect Q U K) × EndpointManager).1 =
      if watchee.address = "" then []
      else match m.actor Endpoint.watcher watchee.address with
        | none => []
        | some endpointWatcher => [.remoteUnwatch endpointWatcher watcher watchee] := by
  unfold remoteUnwatch
  by_cases stopped : m.stopped
  · simp [stopped, actor]
  · rw [if_neg stopped]
    simp only
    split
    · rfl
    · rw [← ensureConnected_bind (rfl : Endpoint.watcher _ = none) watchee.address m]
      split <;> rfl

/-! ## Which actors there are -/

/-- No endpoint has a writer or a watcher. -/
def Bare (m : EndpointManager) : Prop := ∀ address endpoint, m.connections address = some endpoint → endpoint = ⟨none, none⟩

theorem Bare.actor {m : EndpointManager} (bare : m.Bare) {role : Endpoint → Option Actor.PID} (fresh : role ⟨none, none⟩ = none)
    (address : String) : m.actor role address = none := by
  unfold EndpointManager.actor
  split
  · rfl
  · cases known : m.connections address with
    | none => rfl
    | some endpoint => exact (congrArg role (bare address endpoint known)).trans fresh

theorem Bare.ensureConnected {m : EndpointManager} (bare : m.Bare) (address : String) : (m.ensureConnected address).2.Bare := by
  unfold EndpointManager.ensureConnected
  split
  · exact bare
  · split
    · exact bare
    · intro a endpoint known
      simp only at known
      split at known
      · cases known
        rfl
      · exact bare a endpoint known

theorem Bare.removeEndpoint {m : EndpointManager} (bare : m.Bare) (address : String) : (m.removeEndpoint address).Bare := by
  intro a endpoint known
  simp only [EndpointManager.removeEndpoint] at known
  split at known
  · cases known
  · exact bare a endpoint known

theorem Bare.stop {m : EndpointManager} (bare : m.Bare) : m.stop.Bare := by
  unfold EndpointManager.stop
  split
  · exact bare
  · exact fun _ _ known => nomatch known

theorem Bare.remoteDeliver {m : EndpointManager} (bare : m.Bare) (target : Option Actor.PID) (message : Ptr U K)
    (sender : Option Actor.PID) : (m.remoteDeliver target message sender : List (Effect Q U K) × EndpointManager).2.Bare := by
  unfold EndpointManager.remoteDeliver
  repeat' split
  all_goals first | exact bare | (simp only; split <;> exact bare.ensureConnected _)

theorem Bare.remoteWatch {m : EndpointManager} (bare : m.Bare) (registry : ProcessRegistry (Process Q)) (watcher : Actor.PID)
    (watchee : Option Actor.PID) : (m.remoteWatch registry watcher watchee : List (Effect Q U K) × EndpointManager).2.Bare := by
  unfold EndpointManager.remoteWatch
  repeat' split
  all_goals first | exact bare | (simp only; split <;> exact bare.ensureConnected _)

theorem Bare.remoteUnwatch {m : EndpointManager} (bare : m.Bare) (watcher : Actor.PID) (watchee : Option Actor.PID) :
    (m.remoteUnwatch watcher watchee : List (Effect Q U K) × EndpointManager).2.Bare := by
  unfold EndpointManager.remoteUnwatch
  repeat' split
  all_goals first | exact bare | (simp only; split <;> exact bare.ensureConnected _)

theorem Bare.remoteTerminate {m : EndpointManager} (bare : m.Bare) (registry : ProcessRegistry (Process Q)) (watcher : Actor.PID)
    (watchee : Option Actor.PID) : (m.remoteTerminate registry watcher watchee : List (Effect Q U K) × EndpointManager).2.Bare := by
  unfold EndpointManager.remoteTerminate
  repeat' split
  all_goals first | exact bare | (simp only; split <;> exact bare.ensureConnected _)

/-! ## A terminate without watchers -/

/-- What is sent where no endpoint has a watcher. -/
theorem Bare.remoteTerminate_eq {m : EndpointManager} (bare : m.Bare) (registry : ProcessRegistry (Process Q)) (watcher : Actor.PID)
    (watchee : Option Actor.PID) :
    (m.remoteTerminate registry watcher watchee : List (Effect Q U K) × EndpointManager).1 =
      if m.stopped then [] else sendLocal registry watcher (.terminated watchee .stopped) := by
  unfold EndpointManager.remoteTerminate
  by_cases stopped : m.stopped
  · rw [if_pos stopped, if_pos stopped]
  · rw [if_neg stopped, if_neg stopped]
    cases watchee with
    | none => rfl
    | some pid =>
      dsimp only
      split
      · rfl
      · rw [ensureConnected_bind (rfl : Endpoint.watcher ⟨none, none⟩ = none), bare.actor (rfl : Endpoint.watcher ⟨none, none⟩ = none)]

theorem ensureConnected_stopped (address : String) (m : EndpointManager) : (m.ensureConnected address).2.stopped = m.stopped := by
  unfold ensureConnected
  repeat' split
  all_goals rfl

theorem remoteTerminate_stopped (registry : ProcessRegistry (Process Q)) (watcher : Actor.PID) (watchee : Option Actor.PID)
    (m : EndpointManager) :
    (m.remoteTerminate registry watcher watchee : List (Effect Q U K) × EndpointManager).2.stopped = m.stopped := by
  unfold remoteTerminate
  repeat' split
  all_goals first | rfl | (dsimp only; split <;> exact ensureConnected_stopped ..)

end EndpointManager

end Protoactor.Remote
