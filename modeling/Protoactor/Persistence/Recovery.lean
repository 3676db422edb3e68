import Protoactor.Lib.Journal
import Protoactor.Lib.Machine
import Protoactor.Persistence.InMemory

/-!
# Event-sourced recovery

An actor that persists its `n`-th event under the index `n`, takes a snapshot where it
likes and may then delete the events the snapshot covers. The index is an `int`, so it has
at most `INT_MAX` events. Between its calls other actors use the same provider under
other names.

`Represents` connects the provider to a `Journal`: its snapshot is the checkpoint, and from
there on the vector of events is the tail of the history, each event at its absolute
index. Deleting up to the snapshot empties the vector, and the next `PersistEvent` pads it
with null pointers back to the absolute index.
-/

namespace Protoactor.Persistence
set_option autoImplicit false
open Lib InMemoryProviderStateImpl

variable {S E : Type} {apply : S → E → S} {initial : S} {p p' : InMemoryProviderStateImpl S E} {name : String}

/-! ## Recovery -/

/-- An actor with its provider; `eventIndex` is its next event index. -/
structure EventSourced (S E : Type) where
  provider : InMemoryProviderStateImpl S E
  eventIndex : Int
  state : S

inductive Label (S E : Type) where
  /-- `PersistEvent(name, n, e)`, and `e` is applied -/
  | event (e : E)
  /-- `PersistSnapshot(name, n, state)` -/
  | snapshot
  /-- `DeleteEvents(name, n - 1)` -/
  | compact
  /-- a call that names another actor -/
  | other (call : Call S E)
  deriving DecidableEq, Repr

/-- A call that faults does not return; an `int` that overflows has no value. -/
def step (apply : S → E → S) (name : String) : Machine (EventSourced S E) (Label S E) := fun a l =>
  match l with
  | .event e =>
    if a.eventIndex < intMax then
      match a.provider.persistEvent name a.eventIndex (some e) with
      | .ok p => some ⟨p, a.eventIndex + 1, apply a.state e⟩
      | .error _ => none
    else none
  | .snapshot => some { a with provider := a.provider.persistSnapshot name a.eventIndex (some a.state) }
  | .compact =>
    -- only what a snapshot covers is deleted
    if (a.provider.getSnapshot name).2 = (a.eventIndex, true) then
      match a.provider.deleteEvents name (a.eventIndex - 1) with
      | .ok p => some { a with provider := p }
      | .error _ => none
    else none
  | .other call =>
    if call.actorName = name then none
    else
      match a.provider.perform call with
      | .ok p => some { a with provider := p }
      | .error _ => none

def start (initial : S) : EventSourced S E := ⟨new, 0, initial⟩

/-! ## The vector and the absolute indices -/

/-- What the provider holds under `name` of the history `j`. -/
structure Represents (p : InMemoryProviderStateImpl S E) (name : String) (j : Journal apply initial) : Prop where
  snapshot : p.snapshots name = j.checkpoint.map fun point => ⟨some point.2, point.1⟩
  tail : (p.eventList name).drop j.base.1 = j.tail.map some
  size : (p.eventList name).length = j.log.length ∨ p.eventList name = []

/-- Only the entries under `name` matter. -/
theorem Represents.frame {j : Journal apply initial} (held : Represents p name j)
    (same : p'.snapshots name = p.snapshots name ∧ p'.events name = p.events name) : Represents p' name j := by
  have list : p'.eventList name = p.eventList name := by rw [eventList, same.2, eventList]
  exact ⟨same.1.trans held.snapshot, list ▸ held.tail, list ▸ held.size⟩

/-- The loop of `PersistEvent` fills the vector up to and including the index. -/
theorem pad_eq {index : Nat} {list : List (Option E)} (bound : (index : Int) < intMax) (short : list.length ≤ index + 1) :
    pad index list = list ++ List.replicate (index + 1 - list.length) none := by
  have size : int32 list.length = list.length := by
    simp only [intMax] at bound
    exact int32_of_range (by omega) (by omega)
  unfold pad
  split
  · rename_i more
    rw [size] at more
    obtain ⟨more, -⟩ := more
    have rest : index + 1 - list.length = (index + 1 - (list ++ [none]).length) + 1 := by
      rw [List.length_append, List.length_singleton]
      omega
    rw [pad_eq bound (by rw [List.length_append, List.length_singleton]; omega), rest, List.replicate_succ,
      List.append_assoc, List.singleton_append]
  · rename_i full
    have done : index + 1 - list.length = 0 := by
      rw [size] at full
      omega
    rw [done, List.replicate_zero, List.append_nil]
termination_by index + 1 - list.length
decreasing_by
  rw [List.length_append, List.length_singleton]
  omega

/-- Persisting the next event appends it, to the vector as it was or to null pointers
in place of the deleted ones. -/
theorem persistEvent_next {n : Nat} (bound : (n : Int) < intMax) (e : E) (size : (p.eventList name).length = n ∨ p.eventList name = []) :
    ∃ kept : List (Option E), kept.length = n ∧ (kept = p.eventList name ∨ p.eventList name = []) ∧
      p.persistEvent name n (some e) = .ok (p.setEvents name (kept ++ [some e])) := by
  have short : (p.eventList name).length ≤ n := by
    rcases size with full | empty
    · omega
    · simp [empty]
  refine ⟨p.eventList name ++ List.replicate (n - (p.eventList name).length) none, ?_, ?_, ?_⟩
  · simp only [List.length_append, List.length_replicate]
    omega
  · rcases size with full | empty
    · left
      simp [full]
    · exact .inr empty
  · have filled : pad n (p.eventList name) =
        (p.eventList name ++ List.replicate (n - (p.eventList name).length) none) ++ [none] := by
      rw [pad_eq bound (by omega), List.append_assoc, ← List.replicate_succ']
      congr 2
      omega
    have length : (p.eventList name ++ List.replicate (n - (p.eventList name).length) (none : Option E)).length = n := by
      simp only [List.length_append, List.length_replicate]
      omega
    have different : (n : Int) ≠ intMax := by omega
    rw [persistEvent, if_neg different, filled]
    dsimp only
    rw [if_pos (by rw [List.length_append, length, List.length_singleton]; omega), Int.toNat_natCast]
    rw [List.set_append_right _ _ (by omega), length, Nat.sub_self, List.set_cons_zero]

/-! ## The actor's calls -/

theorem eventList_setEvents (list : List (Option E)) : (p.setEvents name list).eventList name = list := by
  simp [eventList, setEvents]

/-- `PersistEvent` with the next index. -/
theorem Represents.event {j : Journal apply initial} (held : Represents p name j)
    (bound : (j.log.length : Int) < intMax) (e : E) :
    ∃ p', p.persistEvent name j.log.length (some e) = .ok p' ∧ Represents p' name (j.record e) := by
  obtain ⟨kept, length, old, act⟩ := persistEvent_next bound e held.size
  refine ⟨_, act, held.snapshot, ?_, .inl ?_⟩
  · have before : kept.drop j.base.1 = j.tail.map some := by
      rcases old with rfl | empty
      · exact held.tail
      · -- nothing behind the checkpoint: all that is kept is padding
        have covered : j.tail.map some = [] := by rw [← held.tail, empty, List.drop_nil]
        have all : j.log.length ≤ j.base.1 := by simpa [Journal.tail] using covered
        rw [covered, List.drop_of_length_le (by omega)]
    have inside : j.base.1 ≤ kept.length := by
      rw [length]
      exact j.base_sound.1
    rw [eventList_setEvents, Journal.base_record, List.drop_append_of_le_length inside, before, Journal.tail_record,
      List.map_append, List.map_singleton]
  · rw [eventList_setEvents, List.length_append, length, List.length_singleton]
    simp [Journal.record]

/-- `PersistSnapshot` with the number of events. -/
theorem Represents.mark {j : Journal apply initial} (held : Represents p name j) :
    Represents (p.persistSnapshot name j.log.length (some j.state)) name j.mark := by
  refine ⟨by simp [persistSnapshot, Journal.mark], ?_, held.size⟩
  have all : (p.eventList name).length ≤ j.log.length := by
    rcases held.size with full | empty
    · omega
    · simp [empty]
  rw [Journal.base_mark, Journal.tail_mark, List.map_nil]
  exact List.drop_of_length_le all

/-- The size of the vector is an `int`. -/
theorem Represents.size_int {j : Journal apply initial} (held : Represents p name j) (bound : (j.log.length : Int) ≤ intMax) :
    int32 (p.eventList name).length = (p.eventList name).length := by
  simp only [intMax] at bound
  rcases held.size with full | empty
  · exact int32_of_range (by omega) (by omega)
  · simp [empty]

/-- `DeleteEvents` up to a snapshot that covers everything. -/
theorem Represents.compact {j : Journal apply initial} (held : Represents p name j) (covered : j.base.1 = j.log.length)
    (bound : (j.log.length : Int) ≤ intMax) :
    ∃ p', p.deleteEvents name (j.log.length - 1) = .ok p' ∧ Represents p' name j := by
  have nothing : j.tail = [] := by rw [Journal.tail, covered, List.drop_length]
  unfold deleteEvents
  split
  · exact ⟨p, rfl, held⟩
  · rename_i list found
    have same : p.eventList name = list := by rw [eventList, found, Option.getD_some]
    have size := held.size
    rw [same] at size
    have length : int32 list.length = list.length := same ▸ held.size_int bound
    split
    · rw [if_pos (by omega)]
      refine ⟨_, rfl, held.snapshot, ?_, ?_⟩
      · rw [eventList_setEvents, nothing, covered, List.map_nil, Int.sub_add_cancel, Int.toNat_natCast, List.drop_drop]
        apply List.drop_of_length_le
        rcases size with full | rfl
        · omega
        · exact Nat.zero_le _
      · right
        rw [eventList_setEvents, Int.sub_add_cancel, Int.toNat_natCast]
        apply List.drop_of_length_le
        rcases size with full | rfl
        · omega
        · exact Nat.zero_le _
    · exact ⟨p, rfl, held⟩

/-- The callbacks of `GetEvents` from the snapshot on are the tail of the history. -/
theorem Represents.getEvents {j : Journal apply initial} (held : Represents p name j)
    (bound : (j.log.length : Int) ≤ intMax) : p.getEvents name j.base.1 (-1) = j.tail := by
  have tail := held.tail
  have size := held.size
  unfold InMemoryProviderStateImpl.getEvents
  split
  · rename_i found
    have none : p.eventList name = [] := by rw [eventList, found, Option.getD_none]
    rw [none, List.drop_nil] at tail
    simpa using tail
  · rename_i list found
    have same : p.eventList name = list := by rw [eventList, found, Option.getD_some]
    rw [same] at tail size
    have length : int32 list.length = list.length := same ▸ held.size_int bound
    have count : ((list.length : Int) - (j.base.1 : Int)).toNat = (list.drop j.base.1).length := by
      rw [List.length_drop]
      omega
    have entry : ∀ k : Nat, (if 0 ≤ (j.base.1 : Int) + (k : Int) then list[((j.base.1 : Int) + (k : Int)).toNat]?.join else none) =
        (list.drop j.base.1)[k]?.join := by
      intro k
      rw [if_pos (by omega), List.getElem?_drop]
      congr 2
    simp only [length, entry, if_pos (show (-1 : Int) < 0 by decide), count, tail]
    generalize j.tail = rest
    induction rest with
    | nil => rfl
    | cons e rest ih =>
      rw [List.map_cons, List.length_cons, List.range_succ_eq_map, List.filterMap_cons, List.filterMap_map]
      simp only [List.getElem?_cons_zero, Option.join_some, Function.comp_def, List.getElem?_cons_succ, ih]

/-- The guard of `compact`: the snapshot covers everything. -/
theorem Represents.covered {j : Journal apply initial} (held : Represents p name j)
    (latest : (p.getSnapshot name).2 = ((j.log.length : Int), true)) : j.base.1 = j.log.length := by
  rw [getSnapshot, held.snapshot] at latest
  cases point : j.checkpoint with
  | none => simp [point] at latest
  | some at_ =>
    rw [point] at latest
    have index : (at_.1 : Int) = j.log.length := congrArg Prod.fst latest
    rw [Journal.base, point, Option.getD_some]
    omega

end Protoactor.Persistence
