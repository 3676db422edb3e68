import Mathlib.Data.List.Induction
import Protoactor.Lib.Sparse
import Protoactor.Persistence.Recovery

/-!
# The event store (`src/persistence/persistence.cpp`)

The events of an actor are a map from absolute indices: `PersistEvent` stores at one, `DeleteEvents`
deletes up to one. The provider keeps them in a vector, at their indices, until `DeleteEvents`
erases the front: what is behind it then stands at another index, and an index beyond the end
erases nothing. So the vector stays the map as long as each deletion goes up to the last stored
index, and no longer (`isMap_iff`).
-/

namespace Protoactor.Persistence.InMemoryProviderStateImpl
set_option autoImplicit false
open Lib Sparse

variable {S E : Type} {p p' : InMemoryProviderStateImpl S E} {name : String}

/-! ## The map -/

/-- What a call does to the events of an actor. -/
def stores (name : String) (m : Int → Option E) : Call S E → Int → Option E
  | .persistEvent actorName eventIndex event => if actorName = name then fun i => if i = eventIndex then event else m i else m
  | .deleteEvents actorName inclusiveToIndex => if actorName = name then cut m inclusiveToIndex else m
  | .persistSnapshot _ _ _ | .deleteSnapshots _ _ => m

/-- The events of an actor that have been persisted and not deleted since, by their indices. -/
def stored (name : String) (calls : List (Call S E)) : Int → Option E := calls.foldl (stores name) fun _ => none

/-- The indices that `GetEvents` is asked for; a negative end is none. -/
def Asked (eventIndexStart eventIndexEnd i : Int) : Prop := eventIndexStart ≤ i ∧ (0 ≤ eventIndexEnd → i < eventIndexEnd)

/-- `GetEvents` answers as the map does. -/
def AnswersAs (p : InMemoryProviderStateImpl S E) (name : String) (m : Int → Option E) : Prop :=
  ∀ eventIndexStart eventIndexEnd : Int, 0 ≤ eventIndexStart →
    Listed m (Asked eventIndexStart eventIndexEnd) (p.getEvents name eventIndexStart eventIndexEnd)

/-- The last of the calls returns, if it is the actor's, and `GetEvents` answers as the map does. -/
def MapAfter (name : String) (before : List (Call S E)) (call : Call S E) : Prop :=
  ∀ p, after before = .ok p → (call.actorName = name → ∃ p', p.perform call = .ok p') ∧
    ∀ p', p.perform call = .ok p' → AnswersAs p' name (stored name (before ++ [call]))

/-- **The store is a map**: so it is after each call. -/
def IsMap (name : String) (calls : List (Call S E)) : Prop :=
  ∀ before call later, calls = before ++ call :: later → MapAfter name before call

/-- An event under an index, or a deletion up to an index, `-1` for none. -/
def Meaningful : Call S E → Prop
  | .persistEvent _ eventIndex event => 0 ≤ eventIndex ∧ eventIndex ≤ intMax ∧ event.isSome
  | .deleteEvents _ inclusiveToIndex => -1 ≤ inclusiveToIndex
  | .persistSnapshot _ _ _ | .deleteSnapshots _ _ => True

/-- A deletion of nothing, of everything up to the last index, or from an empty map; an event under an
index that is not `INT_MAX`. -/
def Whole (name : String) (m : Int → Option E) (call : Call S E) : Prop :=
  call.actorName = name →
    match call with
    | .persistEvent _ eventIndex _ => eventIndex ≠ intMax
    | .deleteEvents _ inclusiveToIndex => inclusiveToIndex = -1 ∨ EndsAt m inclusiveToIndex
    | .persistSnapshot _ _ _ | .deleteSnapshots _ _ => True

/-- Each call is so that comes after calls that return. -/
def WholeDeletions (name : String) (calls : List (Call S E)) : Prop :=
  ∀ before call later, calls = before ++ call :: later → (∃ p, after before = .ok p) → Whole name (stored name before) call

theorem stored_concat (calls : List (Call S E)) (call : Call S E) :
    stored name (calls ++ [call]) = stores name (stored name calls) call := by
  rw [stored, List.foldl_append]
  rfl

/-! ## The vector -/

/-- What all vectors of the store have in common. -/
structure Shaped (v : List (Option E)) : Prop where
  tight : Tight v
  size : (v.length : Int) ≤ intMax

theorem int32_length {v : List (Option E)} (size : (v.length : Int) ≤ intMax) : int32 v.length = v.length := by
  simp only [intMax] at size
  exact int32_of_range (by omega) (by omega)

/-- `PersistEvent` within the vector needs no padding. -/
theorem pad_of_long {index : Nat} {v : List (Option E)} (size : (v.length : Int) ≤ intMax) (long : index < v.length) :
    pad index v = v := by
  unfold pad
  rw [dif_neg]
  rintro ⟨more, -⟩
  rw [int32_length size] at more
  omega

/-- The vector after padding, which has the index and the same entries. -/
theorem padded {index : Int} {v : List (Option E)} (size : (v.length : Int) ≤ intMax) (nonneg : 0 ≤ index) (bound : index < intMax) :
    ∃ n, pad index v = v ++ List.replicate n none ∧ index < ((v ++ List.replicate n (none : Option E)).length : Int) ∧
      (v.length ≤ index → ((v ++ List.replicate n (none : Option E)).length : Int) = index + 1) ∧ (index < v.length → n = 0) := by
  obtain ⟨k, rfl⟩ : ∃ k : Nat, index = k := ⟨index.toNat, by omega⟩
  by_cases long : k < v.length
  · refine ⟨0, ?_, ?_, fun short => ?_, fun _ => rfl⟩
    · rw [pad_of_long size long, List.replicate_zero, List.append_nil]
    · rw [List.replicate_zero, List.append_nil]
      omega
    · omega
  · refine ⟨k + 1 - v.length, pad_eq bound (by omega), ?_, fun _ => ?_, fun inside => ?_⟩
    · rw [List.length_append, List.length_replicate]
      omega
    · rw [List.length_append, List.length_replicate]
      omega
    · omega

/-- `PersistEvent`. -/
theorem persistEvent_spec {index : Int} (shaped : Shaped (p.eventList name)) (nonneg : 0 ≤ index) (bound : index < intMax) (event : E) :
    ∃ v, p.persistEvent name index (some event) = .ok (p.setEvents name v) ∧ Shaped v ∧
      entry v = fun i => if i = index then some event else entry (p.eventList name) i := by
  obtain ⟨n, filled, inside, short, long⟩ := padded shaped.size nonneg bound
  have place : 0 ≤ index ∧ index < ((p.eventList name ++ List.replicate n none).length : Int) := ⟨nonneg, inside⟩
  have entries : ∀ i, entry ((p.eventList name ++ List.replicate n none).set index.toNat (some event)) i =
      if i = index then some event else entry (p.eventList name) i := by
    intro i
    rw [entry_set place, entry_append_replicate]
  refine ⟨_, ?_, ⟨.inr ?_, ?_⟩, funext entries⟩
  · rw [persistEvent, if_neg (by omega), filled]
    exact if_pos place
  · rw [entries, List.length_set]
    by_cases behind : (p.eventList name).length ≤ index
    · rw [short behind, if_pos (by omega)]
      rfl
    · rw [long (by omega), List.replicate_zero, List.append_nil]
      split
      · rfl
      · rcases shaped.tight with empty | last
        · rw [empty, List.length_nil] at behind
          omega
        · exact last
  · have size := shaped.size
    rw [List.length_set]
    by_cases behind : (p.eventList name).length ≤ index
    · rw [short behind]
      omega
    · rw [long (by omega), List.replicate_zero, List.append_nil]
      exact size

/-- `DeleteEvents`. -/
theorem deleteEvents_spec {k : Int} (shaped : Shaped (p.eventList name)) (meaningful : -1 ≤ k) :
    ∃ p', p.deleteEvents name k = .ok p' ∧ p'.eventList name = dropped (p.eventList name) (k + 1) := by
  unfold deleteEvents
  cases found : p.events name with
  | none =>
    have empty : p.eventList name = [] := by rw [eventList, found, Option.getD_none]
    refine ⟨p, rfl, ?_⟩
    rw [empty, dropped, List.drop_nil, ite_self]
  | some v =>
    have same : p.eventList name = v := by rw [eventList, found, Option.getD_some]
    rw [same] at shaped ⊢
    dsimp only
    rw [int32_length shaped.size]
    by_cases inside : k < v.length
    · rw [if_pos inside, if_pos (by omega)]
      refine ⟨_, rfl, ?_⟩
      rw [eventList_setEvents, dropped, if_pos (by omega)]
    · rw [if_neg inside]
      refine ⟨p, rfl, ?_⟩
      rw [same, dropped, if_neg (by omega)]

theorem deleteEvents_iff {k : Int} (shaped : Shaped (p.eventList name)) (meaningful : -1 ≤ k) :
    (∀ p', p.deleteEvents name k = .ok p' → entry (p'.eventList name) = cut (entry (p.eventList name)) k) ↔
      k = -1 ∨ EndsAt (entry (p.eventList name)) k := by
  obtain ⟨p', returns, erased⟩ := deleteEvents_spec shaped meaningful
  have only : (∀ p', p.deleteEvents name k = .ok p' → entry (p'.eventList name) = cut (entry (p.eventList name)) k) ↔
      entry (dropped (p.eventList name) (k + 1)) = cut (entry (p.eventList name)) k := by
    rw [← erased]
    exact ⟨fun all => all p' returns, fun same p'' act => by cases returns.symm.trans act; exact same⟩
  rw [only]
  by_cases nothing : k = -1
  · refine iff_of_true ?_ (.inl nothing)
    subst nothing
    funext i
    rw [show (-1 : Int) + 1 = 0 from rfl, dropped_zero, cut]
    split
    · exact entry_of_neg (by omega)
    · rfl
  · rw [dropped_eq_cut_iff shaped.tight (by omega)]
    exact (or_iff_right nothing).symm

theorem Shaped.dropped {v : List (Option E)} (shaped : Shaped v) (n : Int) : Shaped (Sparse.dropped v n) := by
  unfold Sparse.dropped
  split
  · refine ⟨shaped.tight.drop _, ?_⟩
    have size := shaped.size
    rw [List.length_drop]
    omega
  · exact shaped

/-! ## GetEvents -/

theorem getEvents_eq (eventIndexStart eventIndexEnd : Int) (shaped : Shaped (p.eventList name)) :
    ∃ n : Nat, p.getEvents name eventIndexStart eventIndexEnd =
        (List.range n).filterMap (fun (k : Nat) => entry (p.eventList name) (eventIndexStart + (k : Int))) ∧
      ∀ i : Int, 0 ≤ i → i < (p.eventList name).length → eventIndexStart ≤ i →
        (i < eventIndexStart + n ↔ (0 ≤ eventIndexEnd → i < eventIndexEnd)) := by
  unfold getEvents
  cases found : p.events name with
  | none =>
    have empty : p.eventList name = [] := by rw [eventList, found, Option.getD_none]
    refine ⟨0, rfl, fun i nonneg inside from_ => ?_⟩
    rw [empty, List.length_nil] at inside
    omega
  | some v =>
    have same : p.eventList name = v := by rw [eventList, found, Option.getD_some]
    rw [same] at shaped ⊢
    dsimp only
    rw [int32_length shaped.size]
    refine ⟨_, rfl, fun i nonneg inside from_ => ?_⟩
    split <;> constructor <;> intro <;> omega

/-- `GetEvents` lists the vector. -/
theorem answers_vector (shaped : Shaped (p.eventList name)) : AnswersAs p name (entry (p.eventList name)) := by
  intro eventIndexStart eventIndexEnd _
  obtain ⟨n, found, range⟩ := getEvents_eq eventIndexStart eventIndexEnd shaped
  rw [found]
  refine Listed.congr (listed_range _ eventIndexStart n) fun i some => ?_
  obtain ⟨e, here⟩ := Option.isSome_iff_exists.1 some
  obtain ⟨nonneg, inside⟩ := lt_length_of_entry here
  constructor
  · rintro ⟨from_, upTo⟩
    exact ⟨from_, (range i nonneg inside from_).1 upTo⟩
  · rintro ⟨from_, upTo⟩
    exact ⟨from_, (range i nonneg inside from_).2 upTo⟩

/-- The answers determine the map. -/
theorem answersAs_iff (shaped : Shaped (p.eventList name)) {m : Int → Option E} (positive : ∀ i, i < 0 → m i = none) :
    AnswersAs p name m ↔ entry (p.eventList name) = m := by
  constructor
  · intro answers
    funext i
    by_cases nonneg : 0 ≤ i
    · have one : ∀ j, Asked i (i + 1) j ↔ j = i := by
        intro j
        unfold Asked
        omega
      have vector := Listed.single (answers_vector shaped i (i + 1) nonneg) one
      have map := Listed.single (answers i (i + 1) nonneg) one
      rw [map] at vector
      simpa using (congrArg List.head? vector).symm
    · rw [entry_of_neg (by omega), positive i (by omega)]
  · rintro rfl
    exact answers_vector shaped

/-! ## One call -/

/-- What a call returns, if it does. -/
theorem shaped_perform {call : Call S E} (shaped : Shaped (p.eventList name)) (meaningful : call.actorName = name → Meaningful call)
    (act : p.perform call = .ok p') : Shaped (p'.eventList name) := by
  by_cases own : call.actorName = name
  · subst own
    cases call with
    | persistSnapshot _ _ _ =>
      cases act
      exact shaped
    | deleteSnapshots actorName inclusiveToIndex =>
      cases act
      rw [eventList_deleteSnapshots]
      exact shaped
    | persistEvent actorName eventIndex event =>
      obtain ⟨nonneg, bound, some⟩ := meaningful rfl
      obtain ⟨e, rfl⟩ := Option.isSome_iff_exists.1 some
      by_cases last : eventIndex = intMax
      · rw [perform, persistEvent, if_pos last] at act
        cases act
      · obtain ⟨v, returns, next, -⟩ := persistEvent_spec shaped nonneg (lt_of_le_of_ne bound last) e
        cases returns.symm.trans act
        rw [Call.actorName, eventList_setEvents]
        exact next
    | deleteEvents actorName inclusiveToIndex =>
      obtain ⟨p'', returns, dropped⟩ := deleteEvents_spec shaped (meaningful rfl)
      cases returns.symm.trans act
      rw [dropped]
      exact shaped.dropped _
  · rw [eventList, (perform_frame act fun same => own same.symm).2]
    exact shaped

/-- A call returns and does to the vector what it does to the map exactly where it is whole. -/
theorem perform_iff {call : Call S E} (shaped : Shaped (p.eventList name)) (meaningful : call.actorName = name → Meaningful call) :
    ((call.actorName = name → ∃ p', p.perform call = .ok p') ∧
        ∀ p', p.perform call = .ok p' → entry (p'.eventList name) = stores name (entry (p.eventList name)) call) ↔
      Whole name (entry (p.eventList name)) call := by
  by_cases own : call.actorName = name
  · subst own
    simp only [Whole, true_imp_iff]
    cases call with
    | persistSnapshot actorName snapshotIndex snapshot =>
      refine iff_of_true ⟨⟨_, rfl⟩, fun p' act => ?_⟩ True.intro
      cases act
      rfl
    | deleteSnapshots actorName inclusiveToIndex =>
      refine iff_of_true ⟨⟨_, rfl⟩, fun p' act => ?_⟩ True.intro
      cases act
      rw [eventList_deleteSnapshots, stores]
    | persistEvent actorName eventIndex event =>
      obtain ⟨nonneg, bound, some⟩ := meaningful rfl
      obtain ⟨e, rfl⟩ := Option.isSome_iff_exists.1 some
      by_cases last : eventIndex = intMax
      · refine iff_of_false (fun returns => ?_) fun other => other last
        obtain ⟨⟨p', act⟩, -⟩ := returns
        rw [perform, persistEvent, if_pos last] at act
        cases act
      · obtain ⟨v, returns, -, entries⟩ := persistEvent_spec shaped nonneg (lt_of_le_of_ne bound last) e
        refine iff_of_true ⟨⟨_, returns⟩, fun p' act => ?_⟩ last
        cases returns.symm.trans act
        simp only [Call.actorName] at entries ⊢
        rw [eventList_setEvents, entries, stores, if_pos rfl]
    | deleteEvents actorName inclusiveToIndex =>
      obtain ⟨p'', returns, -⟩ := deleteEvents_spec shaped (meaningful rfl)
      refine (and_iff_right ⟨p'', returns⟩).trans ?_
      simp only [Call.actorName, stores, if_true, perform]
      exact deleteEvents_iff shaped (meaningful rfl)
  · refine iff_of_true ⟨fun same => absurd same own, fun p' act => ?_⟩ fun same => absurd same own
    have kept : p'.eventList name = p.eventList name := by
      rw [eventList, (perform_frame act fun same => own same.symm).2, eventList]
    rw [kept]
    cases call with
    | persistSnapshot _ _ _ | deleteSnapshots _ _ => rfl
    | persistEvent _ _ _ | deleteEvents _ _ => exact (if_neg own).symm

/-! ## Any calls -/

theorem shaped_after {calls : List (Call S E)} (meaningful : ∀ call ∈ calls, call.actorName = name → Meaningful call)
    (ran : after calls = .ok p) : Shaped (p.eventList name) := by
  induction calls using List.reverseRecOn generalizing p with
  | nil =>
    cases ran
    exact ⟨.inl rfl, (by decide : (0 : Int) ≤ intMax)⟩
  | append_singleton calls call ih =>
    obtain ⟨before, first, act⟩ := after_concat_ok ran
    have earlier := ih (fun other member => meaningful other (List.mem_append_left _ member)) first
    exact shaped_perform earlier (meaningful call (by simp)) act

/-- Nothing is stored under a negative index. -/
theorem stored_of_neg {calls : List (Call S E)} (meaningful : ∀ call ∈ calls, call.actorName = name → Meaningful call) {i : Int}
    (negative : i < 0) : stored name calls i = none := by
  induction calls using List.reverseRecOn with
  | nil => rfl
  | append_singleton calls call ih =>
    have earlier := ih fun other member => meaningful other (List.mem_append_left _ member)
    have own := meaningful call (by simp)
    rw [stored_concat]
    cases call with
    | persistSnapshot _ _ _ | deleteSnapshots _ _ => exact earlier
    | persistEvent actorName eventIndex event =>
      rw [stores]
      split
      · rename_i same
        have nonneg : 0 ≤ eventIndex := (own same).1
        exact (if_neg (by omega)).trans earlier
      · exact earlier
    | deleteEvents actorName inclusiveToIndex =>
      rw [stores]
      split
      · rw [cut, earlier, ite_self]
      · exact earlier

/-- The places in a list with one more entry. -/
theorem forall_split_concat {α : Type} {Q : List α → α → Prop} (calls : List α) (call : α) :
    (∀ before c later, calls ++ [call] = before ++ c :: later → Q before c) ↔
      (∀ before c later, calls = before ++ c :: later → Q before c) ∧ Q calls call := by
  constructor
  · intro all
    refine ⟨fun before c later split => all before c (later ++ [call]) (by simp [split]), all calls call [] rfl⟩
  · rintro ⟨earlier, last⟩ before c later split
    rcases List.eq_nil_or_concat later with rfl | ⟨rest, final, rfl⟩
    · obtain ⟨rfl, same⟩ := List.append_inj' split rfl
      cases same
      exact last
    · rw [List.concat_eq_append, ← List.cons_append, ← List.append_assoc] at split
      exact earlier before c rest (List.append_inj' split rfl).1

/-- The vector is the map after calls of which each left it so. -/
theorem IsMap.entry_eq {calls : List (Call S E)} (isMap : IsMap name calls)
    (meaningful : ∀ call ∈ calls, call.actorName = name → Meaningful call) (ran : after calls = .ok p) :
    entry (p.eventList name) = stored name calls := by
  rcases List.eq_nil_or_concat calls with rfl | ⟨before, call, rfl⟩
  · cases ran
    funext i
    exact entry_nil i
  · rw [List.concat_eq_append] at *
    obtain ⟨q, first, act⟩ := after_concat_ok ran
    have answers := (isMap before call [] rfl q first).2 p act
    exact (answersAs_iff (shaped_after meaningful ran) fun i => stored_of_neg meaningful).1 answers

/-- **Exactly then** is the store of an actor a map from indices to events, whatever calls for other
actors come in between. -/
theorem isMap_iff {calls : List (Call S E)} (meaningful : ∀ call ∈ calls, call.actorName = name → Meaningful call) :
    IsMap name calls ↔ WholeDeletions name calls := by
  induction calls using List.reverseRecOn with
  | nil => exact iff_of_true (fun before call later split => by simp at split) fun before call later split => by simp at split
  | append_singleton calls call ih =>
    have earlier : ∀ other ∈ calls, other.actorName = name → Meaningful other := fun other member =>
      meaningful other (List.mem_append_left _ member)
    have own : call.actorName = name → Meaningful call := meaningful call (by simp)
    have positive : ∀ i, i < 0 → stored name (calls ++ [call]) i = none := fun i => stored_of_neg meaningful
    have left := forall_split_concat (Q := MapAfter name) calls call
    have right := forall_split_concat (Q := fun before call => (∃ p, after before = .ok p) → Whole name (stored name before) call)
      calls call
    refine left.trans (Iff.trans ?_ right.symm)
    refine Iff.trans (and_congr_left' (ih earlier)) (and_congr_right fun whole => ?_)
    have isMap : IsMap name calls := (ih earlier).2 whole
    cases ran : after calls with
    | error fault =>
      refine iff_of_true (fun p ran' => ?_) fun returns => ?_
      · cases ran.symm.trans ran'
      · obtain ⟨p, ran'⟩ := returns
        cases ran'
    | ok p =>
      have here := isMap.entry_eq earlier ran
      have shaped := shaped_after earlier ran
      have step := perform_iff shaped own
      rw [here] at step
      have answers : ∀ p', p.perform call = .ok p' → (AnswersAs p' name (stored name (calls ++ [call])) ↔
          entry (p'.eventList name) = stores name (stored name calls) call) := by
        intro p' act
        rw [answersAs_iff (shaped_perform shaped own act) positive, stored_concat]
      constructor
      · intro map _
        obtain ⟨returns, answered⟩ := map p ran
        exact step.1 ⟨returns, fun p' act => (answers p' act).1 (answered p' act)⟩
      · intro whole q ran'
        cases ran.symm.trans ran'
        obtain ⟨returns, same⟩ := step.2 (whole ⟨p, rfl⟩)
        exact ⟨returns, fun p' act => (answers p' act).2 (same p' act)⟩

/-- An event, its deletion, and another event under the same index. -/
theorem isMap_iff_replaced : IsMap "a" ([.persistEvent "a" 0 (some 5), .deleteEvents "a" 0, .persistEvent "a" 0 (some 6)] : List (Call Nat Nat)) := by
  refine (isMap_iff ?_).2 ?_
  · intro call member _
    simp only [List.mem_cons, List.not_mem_nil, or_false] at member
    rcases member with rfl | rfl | rfl
    · exact ⟨by decide, by decide, rfl⟩
    · exact (by decide : (-1 : Int) ≤ 0)
    · exact ⟨by decide, by decide, rfl⟩
  · intro before call later split _ _
    rcases before with _ | ⟨first, _ | ⟨second, _ | ⟨third, rest⟩⟩⟩
    · cases split
      exact (by decide : (0 : Int) ≠ intMax)
    · cases split
      refine .inr (.inr ⟨rfl, fun i behind => ?_⟩)
      exact if_neg (by omega)
    · cases split
      exact (by decide : (0 : Int) ≠ intMax)
    · simp at split

/-- Two events, and the deletion of the first: the second one is now found under the index 0. -/
theorem not_isMap_front : ¬ IsMap "a" ([.persistEvent "a" 0 (some 5), .persistEvent "a" 1 (some 6), .deleteEvents "a" 0] : List (Call Nat Nat)) := by
  intro isMap
  have one : (new : InMemoryProviderStateImpl Nat Nat).persistEvent "a" 0 (some 5) = .ok (new.setEvents "a" [some 5]) := by
    rw [persistEvent, show (0 : Int) = ((0 : Nat) : Int) from rfl, pad_eq (by decide) (by decide)]
    rfl
  have two : (new.setEvents "a" [some 5] : InMemoryProviderStateImpl Nat Nat).persistEvent "a" 1 (some 6) =
      .ok ((new.setEvents "a" [some 5]).setEvents "a" [some 5, some 6]) := by
    rw [persistEvent, eventList_setEvents, show (1 : Int) = ((1 : Nat) : Int) from rfl, pad_eq (by decide) (by decide)]
    rfl
  have ran : after ([.persistEvent "a" 0 (some 5), .persistEvent "a" 1 (some 6)] : List (Call Nat Nat)) =
      .ok ((new.setEvents "a" [some 5]).setEvents "a" [some 5, some 6]) := by
    simp only [after, List.foldlM_cons, List.foldlM_nil, perform, one, two, bind, Except.bind, pure, Except.pure]
  have answers := (isMap _ _ [] rfl _ ran).2 _ rfl 1 2 (by decide)
  have found := Listed.single (i := 1) answers fun j => by
    unfold Asked
    omega
  exact absurd found (by decide)

end Protoactor.Persistence.InMemoryProviderStateImpl
