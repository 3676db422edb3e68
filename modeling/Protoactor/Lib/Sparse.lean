import Mathlib.Data.Int.Order.Basic

/-!
# Vectors as maps from indices

A vector with holes stands for the map that takes an index to what the vector has there (`entry`).
Padding does not change the map, and a store changes it at one index. Dropping a front moves all
that is behind: it deletes that front of the map only where nothing is behind it
(`dropped_eq_cut_iff`). `Listed` is what a loop over a range of indices finds.
-/

namespace Protoactor.Lib.Sparse
set_option autoImplicit false

variable {α : Type}

/-- What the vector has at an index. -/
def entry (v : List (Option α)) (i : Int) : Option α := if 0 ≤ i then v[i.toNat]?.join else none

theorem entry_of_neg {v : List (Option α)} {i : Int} (negative : i < 0) : entry v i = none := if_neg (by omega)

theorem entry_of_nonneg {v : List (Option α)} {i : Int} (nonneg : 0 ≤ i) : entry v i = v[i.toNat]?.join := if_pos nonneg

theorem entry_nil (i : Int) : entry ([] : List (Option α)) i = none := by
  unfold entry
  split <;> rfl

/-- Nothing is behind the end. -/
theorem lt_length_of_entry {v : List (Option α)} {i : Int} {a : α} (here : entry v i = some a) : 0 ≤ i ∧ i < v.length := by
  by_cases nonneg : 0 ≤ i
  · refine ⟨nonneg, ?_⟩
    rw [entry_of_nonneg nonneg] at here
    by_contra outside
    rw [List.getElem?_eq_none (by omega)] at here
    cases here
  · rw [entry_of_neg (by omega)] at here
    cases here

theorem entry_append_replicate (v : List (Option α)) (n : Nat) : entry (v ++ List.replicate n none) = entry v := by
  funext i
  by_cases nonneg : 0 ≤ i
  · rw [entry_of_nonneg nonneg, entry_of_nonneg nonneg]
    by_cases inside : i.toNat < v.length
    · rw [List.getElem?_append_left inside]
    · rw [List.getElem?_append_right (by omega), List.getElem?_eq_none (by omega : v.length ≤ i.toNat), List.getElem?_replicate]
      split <;> rfl
  · rw [entry_of_neg (by omega), entry_of_neg (by omega)]

theorem entry_set {v : List (Option α)} {i : Int} (inside : 0 ≤ i ∧ i < v.length) (a : Option α) (j : Int) :
    entry (v.set i.toNat a) j = if j = i then a else entry v j := by
  by_cases nonneg : 0 ≤ j
  · rw [entry_of_nonneg nonneg, entry_of_nonneg nonneg]
    by_cases same : j = i
    · subst same
      rw [if_pos rfl, List.getElem?_set_self (by omega), Option.join_some]
    · rw [if_neg same, List.getElem?_set_ne (by omega)]
  · rw [entry_of_neg (by omega), if_neg (by omega), entry_of_neg (by omega)]

theorem entry_drop (v : List (Option α)) {n i : Int} (nonneg : 0 ≤ n) (here : 0 ≤ i) :
    entry (v.drop n.toNat) i = entry v (i + n) := by
  rw [entry_of_nonneg here, entry_of_nonneg (by omega), List.getElem?_drop]
  congr 2
  omega

/-! ## Deleting a front -/

/-- The map without the indices up to `k`. -/
def cut (m : Int → Option α) (k : Int) (i : Int) : Option α := if i ≤ k then none else m i

/-- The vector does not end with a hole. -/
def Tight (v : List (Option α)) : Prop := v = [] ∨ (entry v (v.length - 1)).isSome

/-- There is nothing in the map, or `k` is its last index. -/
def EndsAt (m : Int → Option α) (k : Int) : Prop := (∀ i, m i = none) ∨ ((m k).isSome ∧ ∀ i, k < i → m i = none)

theorem Tight.nil_of_none {v : List (Option α)} (tight : Tight v) (nothing : ∀ i, entry v i = none) : v = [] := by
  rcases tight with empty | last
  · exact empty
  · rw [nothing] at last
    cases last

theorem Tight.drop {v : List (Option α)} (tight : Tight v) (n : Nat) : Tight (v.drop n) := by
  by_cases inside : n < v.length
  · right
    rcases tight with rfl | last
    · cases inside
    · have shift := entry_drop v (n := n) (i := v.length - n - 1) (by omega) (by omega)
      rw [Int.toNat_natCast] at shift
      rw [List.length_drop, Int.natCast_sub (by omega), shift, show (v.length : Int) - n - 1 + n = v.length - 1 by omega]
      exact last
  · exact .inl (List.drop_of_length_le (by omega))

/-- A vector after `n` entries are dropped, where it has that many; otherwise nothing is done. -/
def dropped (v : List (Option α)) (n : Int) : List (Option α) := if n ≤ v.length then v.drop n.toNat else v

theorem dropped_zero (v : List (Option α)) : dropped v 0 = v := by
  rw [dropped, if_pos (by omega)]
  rfl

/-- Behind the front, each entry is that of the index that is moved to its place. -/
theorem none_of_shift {v : List (Option α)} {k : Int} (nonneg : 0 ≤ k)
    (shift : ∀ i, 0 ≤ i → entry v (i + (k + 1)) = cut (entry v) k i) {j : Int} (behind : k < j) : entry v j = none := by
  obtain ⟨n, rfl⟩ : ∃ n : Nat, j = n := ⟨j.toNat, by omega⟩
  induction n using Nat.strongRecOn with
  | ind n ih =>
    have here := shift (n - k - 1) (by omega)
    rw [show (n : Int) - k - 1 + (k + 1) = n by omega, cut] at here
    rw [here]
    split
    · rfl
    · have earlier := ih (n - k - 1).toNat (by omega) (by omega)
      rwa [Int.toNat_of_nonneg (by omega)] at earlier

/-- **Dropping is deleting** exactly where nothing is behind what is dropped, and where the vector has that
many entries or none. -/
theorem dropped_eq_cut_iff {v : List (Option α)} (tight : Tight v) {k : Int} (nonneg : 0 ≤ k) :
    entry (dropped v (k + 1)) = cut (entry v) k ↔ EndsAt (entry v) k := by
  unfold dropped
  constructor
  · intro same
    split at same
    · rename_i inside
      have shift : ∀ i, 0 ≤ i → entry v (i + (k + 1)) = cut (entry v) k i := by
        intro i here
        rw [← same, entry_drop v (by omega) here]
      have behind : ∀ i, k < i → entry v i = none := fun i => none_of_shift nonneg shift
      refine .inr ⟨?_, behind⟩
      rcases tight with rfl | last
      · simp only [List.length_nil] at inside
        omega
      · have ends : (v.length : Int) - 1 = k := by
          by_contra other
          rw [behind _ (by omega)] at last
          cases last
        rwa [ends] at last
    · rename_i short
      refine .inl fun i => ?_
      have here := congrFun same i
      by_cases front : i ≤ k
      · rwa [cut, if_pos front] at here
      · cases stored : entry v i with
        | none => rfl
        | some a =>
          have bound := (lt_length_of_entry stored).2
          omega
  · intro ends
    funext i
    rcases ends with nothing | ⟨last, behind⟩
    · have empty := tight.nil_of_none nothing
      subst empty
      rw [cut, List.drop_nil, ite_self, entry_nil, ite_self]
    · obtain ⟨a, stored⟩ := Option.isSome_iff_exists.1 last
      have bound := (lt_length_of_entry stored).2
      rw [if_pos (by omega), cut]
      by_cases here : 0 ≤ i
      · rw [entry_drop v (by omega) here, behind _ (by omega)]
        split
        · rfl
        · rename_i later
          rw [behind i (by omega)]
      · rw [entry_of_neg (by omega), if_pos (by omega)]

/-! ## Listing -/

/-- The entries at the indices in `S`, in increasing order of the index. -/
def Listed (m : Int → Option α) (S : Int → Prop) (found : List α) : Prop :=
  ∃ indices : List Int, indices.Pairwise (· < ·) ∧ (∀ i, i ∈ indices ↔ S i ∧ (m i).isSome) ∧ found.map some = indices.map m

theorem Listed.congr {m : Int → Option α} {S S' : Int → Prop} {found : List α} (listed : Listed m S found)
    (same : ∀ i, (m i).isSome → (S i ↔ S' i)) : Listed m S' found := by
  obtain ⟨indices, sorted, members, entries⟩ := listed
  refine ⟨indices, sorted, fun i => ?_, entries⟩
  rw [members]
  exact and_congr_left (same i)

/-- At one index. -/
theorem Listed.single {m : Int → Option α} {S : Int → Prop} {found : List α} (listed : Listed m S found) {i : Int}
    (one : ∀ j, S j ↔ j = i) : found = (m i).toList := by
  obtain ⟨indices, sorted, members, entries⟩ := listed
  have only : ∀ j ∈ indices, j = i := fun j member => (one j).1 ((members j).1 member).1
  cases stored : m i with
  | none =>
    have empty : indices = [] := by
      refine List.eq_nil_iff_forall_not_mem.2 fun j member => ?_
      have some := ((members j).1 member).2
      rw [only j member, stored] at some
      cases some
    simpa [empty] using entries
  | some a =>
    have here : i ∈ indices := (members i).2 ⟨(one i).2 rfl, by rw [stored]; rfl⟩
    have alone : indices = [i] := by
      cases indices with
      | nil => cases here
      | cons j rest =>
        obtain rfl : j = i := only j List.mem_cons_self
        have none : rest = [] := by
          refine List.eq_nil_iff_forall_not_mem.2 fun k member => ?_
          have less := (List.pairwise_cons.1 sorted).1 k member
          rw [only k (List.mem_cons_of_mem _ member)] at less
          exact absurd less (Int.lt_irrefl _)
        rw [none]
    rw [alone, List.map_singleton, stored] at entries
    simpa using List.map_eq_singleton_iff.1 entries

/-- A loop that goes through `n` indices. -/
theorem listed_range (m : Int → Option α) (a : Int) (n : Nat) :
    Listed m (fun i => a ≤ i ∧ i < a + n) ((List.range n).filterMap fun (k : Nat) => m (a + (k : Int))) := by
  refine ⟨((List.range n).map fun (k : Nat) => a + (k : Int)).filter fun i => (m i).isSome, ?_, fun i => ?_, ?_⟩
  · refine List.Pairwise.filter _ (List.pairwise_map.2 ?_)
    exact List.pairwise_lt_range.imp fun less => by omega
  · rw [List.mem_filter, List.mem_map]
    refine and_congr_left fun _ => ⟨?_, fun inside => ?_⟩
    · rintro ⟨k, member, rfl⟩
      have bound := List.mem_range.1 member
      omega
    · exact ⟨(i - a).toNat, List.mem_range.2 (by omega), by omega⟩
  · induction n with
    | zero => rfl
    | succ n ih =>
      rw [List.range_succ, List.filterMap_append, List.map_append, ih, List.map_append, List.filter_append, List.map_append]
      congr 1
      cases stored : m (a + (n : Int)) <;> simp [stored]

end Protoactor.Lib.Sparse
