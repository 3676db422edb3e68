import Protoactor.Persistence.Events

/-!
# The indices into the vectors (`src/persistence/persistence.cpp`)

`GetEvents` looks at both ends before it reads an element. `PersistEvent` and `DeleteEvents` look at
the upper end only, so a negative index gets through: `event_list[-1]`, and a range to erase that ends
before it begins (`inside_iff`). Calls with such an index, and a `PersistEvent` under `INT_MAX`, are all
that do not return (`after_returns_iff`).
-/

namespace Protoactor.Persistence.InMemoryProviderStateImpl
set_option autoImplicit false
open Lib

variable {S E : Type} {p p' : InMemoryProviderStateImpl S E} {name : String}

/-! ## The reads of `GetEvents` -/

/-- `it->second[i]`. -/
def elementAt (list : List (Option E)) (i : Int) : Except Fault (Option E) :=
  if 0 ≤ i ∧ i < list.length then .ok list[i.toNat]?.join else .error .outOfRange

/-- The body of the loop; the callback is called with what the second access reads. -/
def visit (list : List (Option E)) (i : Int) : Except Fault (Option E) :=
  if 0 ≤ i then do
    let event ← elementAt list i
    if event.isSome then elementAt list i else .ok none
  else .ok none

/-- The next `n` rounds of the loop. -/
def visits (list : List (Option E)) (i : Int) : Nat → Except Fault (List E)
  | 0 => .ok []
  | n + 1 => do
    let called ← visit list i
    let rest ← visits list (i + 1) n
    return called.toList ++ rest

/-- `GetEvents` with each access to the vector. -/
def readEvents (p : InMemoryProviderStateImpl S E) (actorName : String) (eventIndexStart eventIndexEnd : Int) :
    Except Fault (List E) :=
  match p.events actorName with
  | none => .ok []
  | some list =>
    let size := int32 list.length
    let stop := if eventIndexEnd < 0 then size else min eventIndexEnd size
    visits list eventIndexStart (stop - eventIndexStart).toNat

theorem elementAt_ok {list : List (Option E)} {i : Int} (nonneg : 0 ≤ i) (inside : i < list.length) :
    elementAt list i = .ok list[i.toNat]?.join := if_pos ⟨nonneg, inside⟩

theorem visit_ok {list : List (Option E)} {i : Int} (inside : i < list.length) :
    visit list i = .ok (if 0 ≤ i then list[i.toNat]?.join else none) := by
  unfold visit
  split
  · rename_i nonneg
    rw [elementAt_ok nonneg inside]
    cases found : list[i.toNat]?.join with
    | none => rfl
    | some e => rfl
  · rfl

theorem visits_ok {list : List (Option E)} {i : Int} {n : Nat} (inside : 0 < n → i + n ≤ list.length) :
    visits list i n =
      .ok ((List.range n).filterMap fun (k : Nat) => if 0 ≤ i + (k : Int) then list[(i + (k : Int)).toNat]?.join else none) := by
  induction n generalizing i with
  | zero => rfl
  | succ n ih =>
    have here := inside (Nat.succ_pos n)
    have later := ih (i := i + 1) fun _ => by omega
    have shift : ∀ k : Nat, i + 1 + (k : Int) = i + ((k + 1 : Nat) : Int) := fun k => by omega
    simp only [shift] at later
    rw [visits, visit_ok (by omega), later, List.range_succ_eq_map, List.filterMap_cons, List.filterMap_map]
    simp only [Int.natCast_zero, Int.add_zero, bind, Except.bind, pure, Except.pure, Function.comp_def]
    generalize (if 0 ≤ i then list[i.toNat]?.join else none) = event
    cases event with
    | none => rfl
    | some e => rfl

/-- Each access is inside of the vector, and nothing else is read. -/
theorem readEvents_ok (size : ((p.eventList name).length : Int) ≤ intMax) (eventIndexStart eventIndexEnd : Int) :
    p.readEvents name eventIndexStart eventIndexEnd = .ok (p.getEvents name eventIndexStart eventIndexEnd) := by
  unfold readEvents getEvents
  cases found : p.events name with
  | none => rfl
  | some list =>
    have same : p.eventList name = list := by rw [eventList, found, Option.getD_some]
    rw [same] at size
    have seen := int32_length size
    dsimp only
    refine visits_ok fun _ => ?_
    rw [seen]
    split <;> omega

/-! ## Any of the calls -/

inductive Operation (E : Type) where
  | persistEvent (actorName : String) (eventIndex : Int) (event : Option E)
  | getEvents (actorName : String) (eventIndexStart eventIndexEnd : Int)
  | deleteEvents (actorName : String) (inclusiveToIndex : Int)
  deriving DecidableEq, Repr

/-- The store when the call returns. -/
def operate (p : InMemoryProviderStateImpl S E) : Operation E → Except Fault (InMemoryProviderStateImpl S E)
  | .persistEvent actorName eventIndex event => p.persistEvent actorName eventIndex event
  | .getEvents actorName eventIndexStart eventIndexEnd => do
    let _ ← p.readEvents actorName eventIndexStart eventIndexEnd
    return p
  | .deleteEvents actorName inclusiveToIndex => p.deleteEvents actorName inclusiveToIndex

/-- The first index of the call. -/
def Operation.index : Operation E → Int
  | .persistEvent _ eventIndex _ => eventIndex
  | .getEvents _ eventIndexStart _ => eventIndexStart
  | .deleteEvents _ inclusiveToIndex => inclusiveToIndex

/-- **No element outside of the vector** is read or written, no range that is erased leaves it, and
with a negative index the call returns with the events as they are. -/
def Inside (p : InMemoryProviderStateImpl S E) (op : Operation E) : Prop :=
  p.operate op ≠ .error .outOfRange ∧
    (op.index < 0 → ∃ p', p.operate op = .ok p' ∧ ∀ name, p'.eventList name = p.eventList name)

/-- Nothing is persisted under a negative index, and nothing up to an index below `-1` is deleted from a vector. -/
def IndexOk (p : InMemoryProviderStateImpl S E) : Operation E → Prop
  | .persistEvent _ eventIndex _ => 0 ≤ eventIndex
  | .getEvents _ _ _ => True
  | .deleteEvents actorName inclusiveToIndex => -1 ≤ inclusiveToIndex ∨ p.events actorName = none

/-! ## Sizes -/

theorem length_setEvents (list : List (Option E)) (actorName : String) (size : (list.length : Int) ≤ intMax)
    (sizes : ∀ name, ((p.eventList name).length : Int) ≤ intMax) :
    (((p.setEvents actorName list).eventList name).length : Int) ≤ intMax := by
  by_cases own : name = actorName
  · subst own
    rw [eventList_setEvents]
    exact size
  · have kept : (p.setEvents actorName list).eventList name = p.eventList name :=
      congrArg (Option.getD · []) (if_neg own)
    rw [kept]
    exact sizes name

/-- The loop of `PersistEvent` stops in time. -/
theorem length_pad {v : List (Option E)} {eventIndex : Int} (size : (v.length : Int) ≤ intMax) (nonneg : 0 ≤ eventIndex) :
    ((pad eventIndex v).length : Int) ≤ intMax := by
  by_cases bound : eventIndex < intMax
  · obtain ⟨n, filled, -, short, long⟩ := padded size nonneg bound
    rw [filled]
    by_cases behind : v.length ≤ eventIndex
    · rw [short behind]
      omega
    · rw [long (by omega), List.replicate_zero, List.append_nil]
      exact size
  · have kept : pad eventIndex v = v := by
      unfold pad
      rw [dif_neg]
      exact fun more => bound more.2
    rw [kept]
    exact size

/-- No call makes a vector longer than an `int` counts. -/
theorem size_perform {call : Call S E} (sizes : ∀ name, ((p.eventList name).length : Int) ≤ intMax) (act : p.perform call = .ok p') :
    ((p'.eventList name).length : Int) ≤ intMax := by
  cases call with
  | persistSnapshot actorName snapshotIndex snapshot =>
    cases act
    exact sizes name
  | deleteSnapshots actorName inclusiveToIndex =>
    cases act
    rw [eventList_deleteSnapshots]
    exact sizes name
  | persistEvent actorName eventIndex event =>
    simp only [perform, persistEvent] at act
    split at act
    · cases act
    · split at act
      · rename_i last place
        cases act
        refine length_setEvents _ _ ?_ sizes
        rw [List.length_set]
        exact length_pad (sizes actorName) place.1
      · cases act
  | deleteEvents actorName inclusiveToIndex =>
    simp only [perform, deleteEvents] at act
    split at act
    · cases act
      exact sizes name
    · rename_i list found
      have old := sizes actorName
      rw [eventList, found, Option.getD_some] at old
      split at act
      · split at act
        · cases act
          refine length_setEvents _ _ ?_ sizes
          rw [List.length_drop]
          omega
        · cases act
      · cases act
        exact sizes name

theorem size_after {calls : List (Call S E)} (ran : after calls = .ok p) : ((p.eventList name).length : Int) ≤ intMax := by
  induction calls using List.reverseRecOn generalizing p name with
  | nil =>
    cases ran
    exact (by decide : (0 : Int) ≤ intMax)
  | append_singleton calls call ih =>
    obtain ⟨before, first, act⟩ := after_concat_ok ran
    exact size_perform (fun _ => ih first) act

/-! ## The calls that return -/

/-- An event call with an index to work with, after other calls. -/
def Call.InRange (before : List (Call S E)) : Call S E → Prop
  | .persistEvent _ eventIndex _ => 0 ≤ eventIndex ∧ eventIndex < intMax
  | .deleteEvents actorName inclusiveToIndex =>
    -1 ≤ inclusiveToIndex ∨ ∀ eventIndex event, .persistEvent actorName eventIndex event ∉ before
  | .persistSnapshot _ _ _ | .deleteSnapshots _ _ => True

/-- Every call is so. -/
def InRange (calls : List (Call S E)) : Prop := ∀ before call later, calls = before ++ call :: later → call.InRange before

/-- `PersistEvent` makes the vector of an actor, and nothing takes it away. -/
theorem events_perform {call : Call S E} (act : p.perform call = .ok p') :
    p'.events name = none ↔ p.events name = none ∧ ∀ eventIndex event, .persistEvent name eventIndex event ≠ call := by
  cases call with
  | persistSnapshot actorName snapshotIndex snapshot =>
    cases act
    simp [persistSnapshot]
  | deleteSnapshots actorName inclusiveToIndex =>
    cases act
    unfold deleteSnapshots
    split
    · split <;> simp
    · simp
  | persistEvent actorName eventIndex event =>
    simp only [perform, persistEvent] at act
    split at act
    · cases act
    · split at act
      · cases act
        by_cases own : name = actorName <;> simp [setEvents, own]
      · cases act
  | deleteEvents actorName inclusiveToIndex =>
    simp only [perform, deleteEvents] at act
    split at act
    · cases act
      simp
    · rename_i list found
      split at act
      · split at act
        · cases act
          by_cases own : name = actorName <;> simp [setEvents, own, found]
        · cases act
      · cases act
        simp

/-- An actor has a vector once an event of it has been persisted. -/
theorem events_after {calls : List (Call S E)} (ran : after calls = .ok p) :
    p.events name = none ↔ ∀ eventIndex event, .persistEvent name eventIndex event ∉ calls := by
  induction calls using List.reverseRecOn generalizing p with
  | nil =>
    cases ran
    simp [new]
  | append_singleton calls call ih =>
    obtain ⟨before, first, act⟩ := after_concat_ok ran
    rw [events_perform act, ih first]
    simp only [List.mem_append, List.mem_singleton, not_or, forall_and]

theorem persistEvent_returns_iff {index : Int} {event : Option E} (size : ((p.eventList name).length : Int) ≤ intMax) :
    (∃ p', p.persistEvent name index event = .ok p') ↔ 0 ≤ index ∧ index < intMax := by
  unfold persistEvent
  by_cases nonneg : 0 ≤ index
  · by_cases bound : index < intMax
    · obtain ⟨n, filled, inside, -, -⟩ := padded size nonneg bound
      rw [if_neg (by omega), filled]
      dsimp only
      rw [if_pos ⟨nonneg, inside⟩]
      exact iff_of_true ⟨_, rfl⟩ ⟨nonneg, bound⟩
    · refine iff_of_false ?_ fun inside => bound inside.2
      rintro ⟨p', returned⟩
      split at returned
      · cases returned
      · have short := length_pad size nonneg
        rw [if_neg (by omega)] at returned
        cases returned
  · refine iff_of_false ?_ fun inside => nonneg inside.1
    rintro ⟨p', returned⟩
    split at returned
    · cases returned
    · rw [if_neg (by omega)] at returned
      cases returned

theorem deleteEvents_returns_iff {k : Int} (size : ((p.eventList name).length : Int) ≤ intMax) :
    (∃ p', p.deleteEvents name k = .ok p') ↔ -1 ≤ k ∨ p.events name = none := by
  unfold deleteEvents
  cases found : p.events name with
  | none => exact iff_of_true ⟨p, rfl⟩ (.inr rfl)
  | some list =>
    have same : p.eventList name = list := by rw [eventList, found, Option.getD_some]
    rw [same] at size
    dsimp only
    rw [int32_length size]
    simp only [reduceCtorEq, or_false]
    by_cases nonneg : -1 ≤ k
    · refine iff_of_true ?_ nonneg
      rw [if_pos (show 0 ≤ k + 1 by omega)]
      split <;> exact ⟨_, rfl⟩
    · refine iff_of_false ?_ nonneg
      rw [if_pos (by omega), if_neg (by omega)]
      rintro ⟨p', returned⟩
      cases returned

/-- **Exactly then** does a call return. -/
theorem perform_returns_iff {before : List (Call S E)} (ran : after before = .ok p) {call : Call S E} :
    (∃ p', p.perform call = .ok p') ↔ call.InRange before := by
  cases call with
  | persistSnapshot | deleteSnapshots => exact iff_of_true ⟨_, rfl⟩ True.intro
  | persistEvent actorName eventIndex event => exact persistEvent_returns_iff (size_after ran)
  | deleteEvents actorName inclusiveToIndex =>
    refine (deleteEvents_returns_iff (size_after ran)).trans ?_
    rw [events_after ran]
    rfl

/-- The calls return one after the other exactly if each has an index to work with. -/
theorem after_returns_iff {calls : List (Call S E)} : (∃ p, after calls = .ok p) ↔ InRange calls := by
  induction calls using List.reverseRecOn with
  | nil => exact iff_of_true ⟨new, rfl⟩ (by simp [InRange])
  | append_singleton calls call ih =>
    refine Iff.trans ?_ (forall_split_concat (Q := Call.InRange) calls call).symm
    refine Iff.trans ?_ (and_congr_left' ih)
    constructor
    · rintro ⟨p', ran⟩
      obtain ⟨p, first, act⟩ := after_concat_ok ran
      exact ⟨⟨p, first⟩, (perform_returns_iff first).1 ⟨p', act⟩⟩
    · rintro ⟨⟨p, first⟩, inside⟩
      obtain ⟨p', act⟩ := (perform_returns_iff first).2 inside
      refine ⟨p', ?_⟩
      rw [after_concat, first]
      exact act

/-! ## The three calls -/

theorem inside_persistEvent_iff {index : Int} {event : Option E} (size : ((p.eventList name).length : Int) ≤ intMax)
    (bound : index ≤ intMax) : Inside p (.persistEvent name index event) ↔ 0 ≤ index := by
  by_cases nonneg : 0 ≤ index
  · refine iff_of_true ⟨fun fault => ?_, fun negative => ?_⟩ nonneg
    · rw [operate, persistEvent] at fault
      split at fault
      · cases fault
      · rename_i last
        obtain ⟨n, filled, inside, -, -⟩ := padded size nonneg (lt_of_le_of_ne bound last)
        rw [filled] at fault
        dsimp only at fault
        rw [if_pos ⟨nonneg, inside⟩] at fault
        cases fault
    · exact absurd (show index < 0 from negative) (by omega)
  · refine iff_of_false (fun inside => inside.1 ?_) nonneg
    have small : index ≠ intMax := by
      simp only [intMax]
      omega
    rw [operate, persistEvent, if_neg small]
    exact if_neg fun place => nonneg place.1

theorem inside_getEvents (size : ((p.eventList name).length : Int) ≤ intMax) (eventIndexStart eventIndexEnd : Int) :
    Inside p (.getEvents name eventIndexStart eventIndexEnd) := by
  have returns : p.operate (.getEvents name eventIndexStart eventIndexEnd) = .ok p := by
    rw [operate, readEvents_ok size]
    rfl
  refine ⟨fun fault => ?_, fun _ => ⟨p, returns, fun _ => rfl⟩⟩
  cases returns.symm.trans fault

theorem inside_deleteEvents_iff {k : Int} (size : ((p.eventList name).length : Int) ≤ intMax) :
    Inside p (.deleteEvents name k) ↔ -1 ≤ k ∨ p.events name = none := by
  cases found : p.events name with
  | none =>
    have returns : p.operate (.deleteEvents name k) = .ok p := by
      rw [operate, deleteEvents, found]
    refine iff_of_true ⟨fun fault => ?_, fun _ => ⟨p, returns, fun _ => rfl⟩⟩ (.inr rfl)
    cases returns.symm.trans fault
  | some list =>
    have same : p.eventList name = list := by rw [eventList, found, Option.getD_some]
    rw [same] at size
    have run : p.operate (.deleteEvents name k) =
        if k < list.length then
          if 0 ≤ k + 1 then .ok (p.setEvents name (list.drop (k + 1).toNat)) else .error .outOfRange
        else .ok p := by
      rw [operate, deleteEvents, found]
      dsimp only
      rw [int32_length size]
    simp only [reduceCtorEq, or_false]
    by_cases nonneg : -1 ≤ k
    · refine iff_of_true ⟨fun fault => ?_, fun negative => ?_⟩ nonneg
      · rw [run, if_pos (show 0 ≤ k + 1 by omega)] at fault
        split at fault <;> cases fault
      · -- nothing is in front of the index `-1`
        obtain rfl : k = -1 := by
          simp only [Operation.index] at negative
          omega
        refine ⟨p.setEvents name list, ?_, fun other => ?_⟩
        · rw [run, if_pos (by omega)]
          rfl
        · by_cases own : other = name
          · rw [own, eventList_setEvents, same]
          · exact congrArg (Option.getD · []) (if_neg own)
    · refine iff_of_false (fun inside => inside.1 ?_) nonneg
      rw [run, if_pos (by omega), if_neg (by omega)]

/-- **Exactly then** does a call with an `int` index stay inside of the vector. -/
theorem inside_iff {calls : List (Call S E)} (ran : after calls = .ok p) {op : Operation E} (int : op.index ≤ intMax) :
    Inside p op ↔ IndexOk p op := by
  cases op with
  | persistEvent actorName eventIndex event => exact inside_persistEvent_iff (size_after ran) int
  | getEvents actorName eventIndexStart eventIndexEnd =>
    exact iff_of_true (inside_getEvents (size_after ran) eventIndexStart eventIndexEnd) True.intro
  | deleteEvents actorName inclusiveToIndex => exact inside_deleteEvents_iff (size_after ran)

theorem inside_iff_negative : Inside (new : InMemoryProviderStateImpl Nat Nat) (.deleteEvents "a" (-2)) ∧
    ¬ Inside (new : InMemoryProviderStateImpl Nat Nat) (.persistEvent "a" (-1) (some 5)) :=
  have ran : after ([] : List (Call Nat Nat)) = .ok new := rfl
  ⟨(inside_iff ran (by decide)).2 (.inr rfl), fun inside => absurd ((inside_iff ran (by decide)).1 inside) (by decide : ¬ (0 : Int) ≤ -1)⟩

/-- `event_list[-1]`, and `erase(begin, begin - 1)`. -/
theorem not_inside_negative : ¬ Inside (new : InMemoryProviderStateImpl Nat Nat) (.persistEvent "a" (-1) (some 5)) ∧
    ∃ p : InMemoryProviderStateImpl Nat Nat, after [.persistEvent "a" 0 (some 5)] = .ok p ∧ ¬ Inside p (.deleteEvents "a" (-2)) := by
  constructor
  · intro inside
    refine inside.1 ?_
    rw [operate, persistEvent, if_neg (by decide)]
    exact if_neg fun place => absurd place.1 (by decide)
  · have one : (new : InMemoryProviderStateImpl Nat Nat).persistEvent "a" 0 (some 5) = .ok (new.setEvents "a" [some 5]) := by
      rw [persistEvent, show (0 : Int) = ((0 : Nat) : Int) from rfl, pad_eq (by decide) (by decide)]
      rfl
    refine ⟨new.setEvents "a" [some 5], ?_, fun inside => inside.1 rfl⟩
    simp only [after, List.foldlM_cons, List.foldlM_nil, perform, one, bind, Except.bind, pure, Except.pure]

end Protoactor.Persistence.InMemoryProviderStateImpl
