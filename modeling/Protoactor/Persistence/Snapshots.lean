import Mathlib.Data.Int.Order.Basic
import Mathlib.Data.List.Induction
import Protoactor.Lib.Versions
import Protoactor.Persistence.Bounds

/-!
# The snapshot store (`src/persistence/persistence.cpp`)

An actor's snapshots with their deletions are a log of versions, of which the provider keeps
one. `GetSnapshot` answers the newest one that no deletion has reached, provided the actor's
indices do not decrease. What other actors do, and what happens to the events, does not matter as
long as it returns: an event call with an index it cannot work with leaves no store to ask
(`answersSurvivor_iff`).
-/

namespace Protoactor.Persistence.InMemoryProviderStateImpl
set_option autoImplicit false
open Lib

variable {S E : Type} {p p' : InMemoryProviderStateImpl S E} {name : String}

/-- What a call is to the snapshots of an actor. -/
def Call.entry (name : String) : Call S E → Option (Versions.Entry Int (Option S))
  | .persistSnapshot actorName snapshotIndex snapshot => if actorName = name then some (.put snapshotIndex snapshot) else none
  | .deleteSnapshots actorName inclusiveToIndex => if actorName = name then some (.cut inclusiveToIndex) else none
  | .persistEvent _ _ _ | .deleteEvents _ _ => none

/-- The log of an actor's snapshots. -/
def snapshotLog (name : String) (calls : List (Call S E)) : List (Versions.Entry Int (Option S)) := calls.filterMap (Call.entry name)

/-- The indices under which an actor persists its snapshots do not decrease. -/
def NonDecreasing (name : String) (calls : List (Call S E)) : Prop :=
  (Versions.indices (snapshotLog name calls)).Pairwise (· ≤ ·)

/-- `GetSnapshot` for what is stored. -/
def answerOf (version : Option (Int × Option S)) : Option S × Int × Bool :=
  match version with
  | some (index, snapshot) => (snapshot, index, true)
  | none => (none, 0, false)

/-- The slot of an actor. -/
def heldSnapshot (p : InMemoryProviderStateImpl S E) (name : String) : Option (Int × Option S) :=
  (p.snapshots name).map fun data => (data.index, data.snapshot)

theorem getSnapshot_eq : p.getSnapshot name = answerOf (heldSnapshot p name) := by
  unfold getSnapshot heldSnapshot
  cases p.snapshots name <;> rfl

/-- One call, seen from one actor's slot. -/
theorem heldSnapshot_perform {call : Call S E} (act : p.perform call = .ok p') :
    heldSnapshot p' name = (call.entry name).elim (heldSnapshot p name) (Versions.hold (heldSnapshot p name)) := by
  by_cases own : call.actorName = name
  · subst own
    cases call with
    | persistSnapshot actorName snapshotIndex snapshot =>
      cases act
      simp [heldSnapshot, persistSnapshot, Call.entry, Call.actorName, Versions.hold]
    | deleteSnapshots actorName inclusiveToIndex =>
      cases act
      simp only [Call.entry, Call.actorName, if_true, Option.elim_some, Versions.hold, deleteSnapshots]
      cases stored : p.snapshots actorName with
      | none => simp [heldSnapshot, stored]
      | some data =>
        by_cases reached : data.index ≤ inclusiveToIndex
        · simp [heldSnapshot, stored, reached, Option.filter_some]
        · simp [heldSnapshot, stored, reached, Option.filter_some, Int.not_le.1 reached]
    | persistEvent actorName eventIndex event =>
      simp only [perform, persistEvent] at act
      split at act
      · cases act
      · split at act
        · cases act
          rfl
        · cases act
    | deleteEvents actorName inclusiveToIndex =>
      simp only [perform, deleteEvents] at act
      split at act
      · cases act
        rfl
      · split at act
        · split at act
          · cases act
            rfl
          · cases act
        · cases act
          rfl
  · have nothing : call.entry name = none := by
      cases call with
      | persistSnapshot _ _ _ | deleteSnapshots _ _ => exact if_neg own
      | persistEvent _ _ _ | deleteEvents _ _ => rfl
    rw [nothing, heldSnapshot, (perform_frame act fun same => own same.symm).1]
    rfl

theorem snapshotLog_concat (calls : List (Call S E)) (call : Call S E) :
    snapshotLog name (calls ++ [call]) = snapshotLog name calls ++ (call.entry name).toList := by
  rw [snapshotLog, List.filterMap_append, ← snapshotLog]
  cases entry : call.entry name <;> simp [entry]

/-- The slot is that of the log. -/
theorem heldSnapshot_after (calls : List (Call S E)) (ran : after calls = .ok p) :
    heldSnapshot p name = Versions.slot (snapshotLog name calls) := by
  induction calls using List.reverseRecOn generalizing p with
  | nil =>
    cases ran
    rfl
  | append_singleton calls call ih =>
    obtain ⟨before, first, act⟩ := after_concat_ok ran
    rw [heldSnapshot_perform act, ih first, snapshotLog_concat, Versions.slot, Versions.slot, List.foldl_append]
    cases call.entry name <;> rfl

/-- A call that is none of those two for the actor leaves its answer as it is. -/
theorem getSnapshot_perform {call : Call S E} (act : p.perform call = .ok p') (other : call.entry name = none) :
    p'.getSnapshot name = p.getSnapshot name := by
  rw [getSnapshot_eq, getSnapshot_eq, heldSnapshot_perform act, other]
  rfl

/-- **The newest surviving snapshot** is what `GetSnapshot` answers after the calls, all of which return, and no call
but those two for the actor changes the answer. -/
def AnswersSurvivor (name : String) (calls : List (Call S E)) : Prop :=
  ∃ p, after calls = .ok p ∧ p.getSnapshot name = answerOf (Versions.survivor (snapshotLog name calls)) ∧
    ∀ call p', p.perform call = .ok p' → call.entry name = none → p'.getSnapshot name = p.getSnapshot name

/-- So it is, where the actor's indices do not decrease, exactly if each event call has an index to work with. -/
theorem answersSurvivor_iff {calls : List (Call S E)} (sorted : NonDecreasing name calls) :
    AnswersSurvivor name calls ↔ InRange calls := by
  rw [← after_returns_iff]
  constructor
  · rintro ⟨p, ran, -⟩
    exact ⟨p, ran⟩
  · rintro ⟨p, ran⟩
    refine ⟨p, ran, ?_, fun call p' act other => getSnapshot_perform act other⟩
    rw [getSnapshot_eq, heldSnapshot_after calls ran, Versions.slot_eq_survivor sorted]

/-- Two snapshots, of which a deletion reaches the first, and calls for another actor. -/
def twoSnapshots : List (Call Nat Nat) :=
  [.persistSnapshot "a" 1 (some 10), .persistSnapshot "b" 7 (some 70), .deleteEvents "a" 1, .persistSnapshot "a" 3 (some 30),
    .deleteSnapshots "a" 1, .deleteSnapshots "b" 9]

theorem answersSurvivor_iff_two : NonDecreasing "a" twoSnapshots ∧ AnswersSurvivor "a" twoSnapshots := by
  have sorted : NonDecreasing "a" twoSnapshots := by
    unfold NonDecreasing
    decide
  have ran : ∃ p, after twoSnapshots = .ok p := ⟨_, rfl⟩
  exact ⟨sorted, (answersSurvivor_iff sorted).2 (after_returns_iff.1 ran)⟩

/-- A snapshot, and the write to `event_list[-1]` of another actor. -/
def beforeVector : List (Call Nat Nat) := [.persistSnapshot "a" 1 (some 10)] ++ [.persistEvent "b" (-1) (some 5)]

theorem not_answersSurvivor_negative : NonDecreasing "a" beforeVector ∧ ¬ AnswersSurvivor "a" beforeVector := by
  constructor
  · unfold NonDecreasing
    decide
  · rintro ⟨p, ran, -⟩
    obtain ⟨before, -, act⟩ := after_concat_ok ran
    rw [perform, persistEvent, if_neg (by decide), if_neg fun place => absurd place.1 (by decide)] at act
    cases act

end Protoactor.Persistence.InMemoryProviderStateImpl
