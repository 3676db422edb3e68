import Protoactor.Lib.Int32

/-!
# The in-memory provider (`src/persistence/persistence.cpp`)

`InMemoryProviderStateImpl` as its two maps; each call is one critical section of its
mutex. A vector of events is a list of pointers, `none` for the null pointer. Its size is
looked at as an `int`, so a call can fail to come back, and an index outside of the vector
is undefined behaviour: both are faults here.
-/

namespace Protoactor.Persistence
set_option autoImplicit false
open Lib

variable {S E : Type}

/-- `INT_MAX`. -/
def intMax : Int := 2147483647

/-- Why a call has no result. -/
inductive Fault where
  /-- an iterator or an index outside of the vector -/
  | outOfRange
  /-- a loop that does not end -/
  | diverges
  deriving DecidableEq, Repr

structure SnapshotData (S : Type) where
  snapshot : Option S
  index : Int
  deriving DecidableEq, Repr

structure InMemoryProviderStateImpl (S E : Type) where
  snapshots : String → Option (SnapshotData S)
  events : String → Option (List (Option E))

namespace InMemoryProviderStateImpl

/-- The constructor. -/
def new : InMemoryProviderStateImpl S E := ⟨fun _ => none, fun _ => none⟩

/-! ## Snapshots -/

def getSnapshot (p : InMemoryProviderStateImpl S E) (actorName : String) : Option S × Int × Bool :=
  match p.snapshots actorName with
  | some data => (data.snapshot, data.index, true)
  | none => (none, 0, false)

def persistSnapshot (p : InMemoryProviderStateImpl S E) (actorName : String) (snapshotIndex : Int) (snapshot : Option S) :
    InMemoryProviderStateImpl S E :=
  { p with snapshots := fun name => if name = actorName then some ⟨snapshot, snapshotIndex⟩ else p.snapshots name }

def deleteSnapshots (p : InMemoryProviderStateImpl S E) (actorName : String) (inclusiveToIndex : Int) :
    InMemoryProviderStateImpl S E :=
  match p.snapshots actorName with
  | some data =>
    if data.index ≤ inclusiveToIndex then
      { p with snapshots := fun name => if name = actorName then none else p.snapshots name }
    else p
  | none => p

/-! ## Events -/

/-- The vector of an actor; one that has none yet gets an empty one where it is needed. -/
def eventList (p : InMemoryProviderStateImpl S E) (actorName : String) : List (Option E) := (p.events actorName).getD []

def setEvents (p : InMemoryProviderStateImpl S E) (actorName : String) (list : List (Option E)) :
    InMemoryProviderStateImpl S E :=
  { p with events := fun name => if name = actorName then some list else p.events name }

theorem eventList_deleteSnapshots (p : InMemoryProviderStateImpl S E) (actorName : String) (inclusiveToIndex : Int) (name : String) :
    (p.deleteSnapshots actorName inclusiveToIndex).eventList name = p.eventList name := by
  simp only [deleteSnapshots, eventList]
  split
  · split <;> rfl
  · rfl

/-- The events that the callback is called with, in order. -/
def getEvents (p : InMemoryProviderStateImpl S E) (actorName : String) (eventIndexStart eventIndexEnd : Int) : List E :=
  match p.events actorName with
  | none => []
  | some list =>
    let size := int32 list.length
    let stop := if eventIndexEnd < 0 then size else min eventIndexEnd size
    (List.range (stop - eventIndexStart).toNat).filterMap fun (k : Nat) =>
      let i := eventIndexStart + (k : Int)
      if 0 ≤ i then list[i.toNat]?.join else none

/-- The loop of `PersistEvent`; it has no end where `event_index` is `INT_MAX`. -/
def pad (eventIndex : Int) (list : List (Option E)) : List (Option E) :=
  if h : int32 list.length ≤ eventIndex ∧ eventIndex < intMax then pad eventIndex (list ++ [none]) else list
termination_by (eventIndex + 1 - int32 list.length).toNat
decreasing_by
  obtain ⟨more, bound⟩ := h
  have next : int32 ((list ++ [none]).length : Nat) = int32 list.length + 1 := by
    rw [List.length_append, List.length_singleton, Int.natCast_add, Int.natCast_one, ← int32_add]
    have low := int32_low (list.length : Nat)
    apply int32_of_range
    · omega
    · simp only [intMax] at bound
      omega
  omega

def persistEvent (p : InMemoryProviderStateImpl S E) (actorName : String) (eventIndex : Int) (event : Option E) :
    Except Fault (InMemoryProviderStateImpl S E) :=
  if eventIndex = intMax then .error .diverges
  else
    let list := pad eventIndex (p.eventList actorName)
    if 0 ≤ eventIndex ∧ eventIndex < list.length then .ok (p.setEvents actorName (list.set eventIndex.toNat event))
    else .error .outOfRange

def deleteEvents (p : InMemoryProviderStateImpl S E) (actorName : String) (inclusiveToIndex : Int) :
    Except Fault (InMemoryProviderStateImpl S E) :=
  match p.events actorName with
  | none => .ok p
  | some list =>
    if inclusiveToIndex < int32 list.length then
      if 0 ≤ inclusiveToIndex + 1 then .ok (p.setEvents actorName (list.drop (inclusiveToIndex + 1).toNat))
      else .error .outOfRange
    else .ok p

/-! ## Any of the writing calls -/

inductive Call (S E : Type) where
  | persistSnapshot (actorName : String) (snapshotIndex : Int) (snapshot : Option S)
  | deleteSnapshots (actorName : String) (inclusiveToIndex : Int)
  | persistEvent (actorName : String) (eventIndex : Int) (event : Option E)
  | deleteEvents (actorName : String) (inclusiveToIndex : Int)
  deriving DecidableEq, Repr

def Call.actorName : Call S E → String
  | .persistSnapshot actorName _ _ | .deleteSnapshots actorName _ | .persistEvent actorName _ _ | .deleteEvents actorName _ =>
    actorName

def perform (p : InMemoryProviderStateImpl S E) : Call S E → Except Fault (InMemoryProviderStateImpl S E)
  | .persistSnapshot actorName snapshotIndex snapshot => .ok (p.persistSnapshot actorName snapshotIndex snapshot)
  | .deleteSnapshots actorName inclusiveToIndex => .ok (p.deleteSnapshots actorName inclusiveToIndex)
  | .persistEvent actorName eventIndex event => p.persistEvent actorName eventIndex event
  | .deleteEvents actorName inclusiveToIndex => p.deleteEvents actorName inclusiveToIndex

/-- The provider after the calls, all of which return. -/
def after (calls : List (Call S E)) : Except Fault (InMemoryProviderStateImpl S E) := calls.foldlM perform new

theorem after_concat (calls : List (Call S E)) (call : Call S E) :
    after (calls ++ [call]) = after calls >>= fun p => p.perform call := by
  simp [after, List.foldlM_append]

/-- The last of the calls. -/
theorem after_concat_ok {calls : List (Call S E)} {call : Call S E} {p' : InMemoryProviderStateImpl S E}
    (ran : after (calls ++ [call]) = .ok p') : ∃ p, after calls = .ok p ∧ p.perform call = .ok p' := by
  rw [after_concat] at ran
  cases before : after calls with
  | error fault => simp [before, bind, Except.bind] at ran
  | ok p => exact ⟨p, rfl, by simpa [before, bind, Except.bind] using ran⟩

/-- A call touches the entries of the actor it names only. -/
theorem perform_frame {p p' : InMemoryProviderStateImpl S E} {call : Call S E} {name : String}
    (act : p.perform call = .ok p') (other : name ≠ call.actorName) :
    p'.snapshots name = p.snapshots name ∧ p'.events name = p.events name := by
  cases call with
  | persistSnapshot actorName snapshotIndex snapshot =>
    cases act
    exact ⟨if_neg other, rfl⟩
  | deleteSnapshots actorName inclusiveToIndex =>
    simp only [perform, deleteSnapshots] at act
    split at act
    · split at act
      · cases act
        exact ⟨if_neg other, rfl⟩
      · cases act
        exact ⟨rfl, rfl⟩
    · cases act
      exact ⟨rfl, rfl⟩
  | persistEvent actorName eventIndex event =>
    simp only [perform, persistEvent] at act
    split at act
    · cases act
    · split at act
      · cases act
        exact ⟨rfl, if_neg other⟩
      · cases act
  | deleteEvents actorName inclusiveToIndex =>
    simp only [perform, deleteEvents] at act
    split at act
    · cases act
      exact ⟨rfl, rfl⟩
    · split at act
      · split at act
        · cases act
          exact ⟨rfl, if_neg other⟩
        · cases act
      · cases act
        exact ⟨rfl, rfl⟩

end InMemoryProviderStateImpl

end Protoactor.Persistence
