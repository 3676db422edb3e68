import Mathlib.Data.List.InsertIdx
import Mathlib.Data.List.Perm.Subperm

/-!
# Taking entries out of a list

`takeOut ks l` takes the entries at the positions `ks` out of `l`, one after the other: each position counts what
the earlier ones have left. Whatever is taken out and whatever is left are the entries of `l`, and every choice of
entries in every order is taken out by some positions.
-/

namespace Protoactor.Lib
set_option autoImplicit false

variable {α β : Type} {ks : List Nat} {l : List α} {n k : Nat} {out : List α × List α}

/-- What has been taken out, and what is left. -/
def takeOut : List Nat → List α → Option (List α × List α)
  | [], l => some ([], l)
  | k :: ks, l =>
    match l[k]? with
    | none => none
    | some x => (takeOut ks (l.eraseIdx k)).map fun out => (x :: out.1, out.2)

/-- Each position is below what `n` entries have left. -/
def InRange : List Nat → Nat → Prop
  | [], _ => True
  | k :: ks, n => k < n ∧ InRange ks (n - 1)

theorem inRange_iff : InRange ks n ↔ ∀ i k, ks[i]? = some k → k + i < n := by
  induction ks generalizing n with
  | nil =>
    refine ⟨fun _ i k there => ?_, fun _ => True.intro⟩
    cases there
  | cons first ks ih =>
    rw [InRange, ih]
    constructor
    · rintro ⟨inside, later⟩ i k there
      cases i with
      | zero =>
        cases there
        exact inside
      | succ i =>
        have below := later i k there
        omega
    · intro each
      refine ⟨each 0 first rfl, fun i k there => ?_⟩
      have below := each (i + 1) k there
      omega

theorem InRange.mono {m : Nat} (inRange : InRange ks n) (more : n ≤ m) : InRange ks m := by
  rw [inRange_iff] at inRange ⊢
  exact fun i k there => Nat.lt_of_lt_of_le (inRange i k there) more

theorem takeOut_cons (inside : k < l.length) (ks : List Nat) :
    takeOut (k :: ks) l = (takeOut ks (l.eraseIdx k)).map fun out => (l[k] :: out.1, out.2) := by
  rw [takeOut, List.getElem?_eq_getElem inside]

theorem takeOut_cons_some (taken : takeOut (k :: ks) l = some out) :
    ∃ (inside : k < l.length) (rest : List α), takeOut ks (l.eraseIdx k) = some (rest, out.2) ∧ out.1 = l[k] :: rest := by
  by_cases inside : k < l.length
  · rw [takeOut_cons inside] at taken
    obtain ⟨rest, found, rfl⟩ := Option.map_eq_some_iff.1 taken
    exact ⟨inside, rest.1, found, rfl⟩
  · rw [takeOut, List.getElem?_eq_none (Nat.not_lt.1 inside)] at taken
    cases taken

/-- Positions in range find their entries. -/
theorem exists_takeOut (inRange : InRange ks l.length) : ∃ out, takeOut ks l = some out := by
  induction ks generalizing l with
  | nil => exact ⟨_, rfl⟩
  | cons k ks ih =>
    obtain ⟨inside, later⟩ := inRange
    rw [← List.length_eraseIdx_of_lt inside] at later
    obtain ⟨out, taken⟩ := ih later
    exact ⟨_, by rw [takeOut_cons inside, taken, Option.map_some]⟩

theorem takeOut_length (taken : takeOut ks l = some out) : out.1.length = ks.length := by
  induction ks generalizing l out with
  | nil =>
    cases taken
    rfl
  | cons k ks ih =>
    obtain ⟨_, rest, found, first⟩ := takeOut_cons_some taken
    rw [first, List.length_cons, List.length_cons, ih found]

/-- **Nothing is lost and nothing is made**: what is taken out and what is left are the list. -/
theorem takeOut_perm (taken : takeOut ks l = some out) : (out.1 ++ out.2).Perm l := by
  induction ks generalizing l out with
  | nil =>
    cases taken
    exact .refl l
  | cons k ks ih =>
    obtain ⟨inside, rest, found, first⟩ := takeOut_cons_some taken
    rw [first, List.cons_append]
    exact ((ih found).cons _).trans (List.getElem_cons_eraseIdx_perm inside)

/-- Only positions matter. -/
theorem takeOut_map (f : α → β) (ks : List Nat) (l : List α) :
    takeOut ks (l.map f) = (takeOut ks l).map fun out => (out.1.map f, out.2.map f) := by
  induction ks generalizing l with
  | nil => rfl
  | cons k ks ih =>
    unfold takeOut
    rw [List.getElem?_map]
    cases l[k]? with
    | none => rfl
    | some x =>
      dsimp only [Option.map_some]
      rw [List.eraseIdx_map, ih, Option.map_map, Option.map_map]
      rfl

/-- What stands behind the range is left. -/
theorem takeOut_append (inRange : InRange ks l.length) (m : List α) :
    takeOut ks (l ++ m) = (takeOut ks l).map fun out => (out.1, out.2 ++ m) := by
  induction ks generalizing l with
  | nil => rfl
  | cons k ks ih =>
    obtain ⟨inside, later⟩ := inRange
    rw [← List.length_eraseIdx_of_lt inside] at later
    have within : k < (l ++ m).length := by
      rw [List.length_append]
      omega
    rw [takeOut_cons within, takeOut_cons inside, List.eraseIdx_append_of_lt_length inside, ih later, Option.map_map,
      Option.map_map, List.getElem_append_left inside]
    rfl

/-- **Every choice** is taken out, in its order. -/
theorem exists_takeOut_of_subperm {c : List α} (choice : c.Subperm l) :
    ∃ ks left, InRange ks l.length ∧ takeOut ks l = some (c, left) := by
  induction c generalizing l with
  | nil => exact ⟨[], l, True.intro, rfl⟩
  | cons x c ih =>
    obtain ⟨k, inside, rfl⟩ := List.getElem_of_mem (choice.subset List.mem_cons_self)
    have rest : c.Subperm (l.eraseIdx k) :=
      (List.subperm_cons _).1 (choice.trans (List.getElem_cons_eraseIdx_perm inside).symm.subperm)
    obtain ⟨ks, left, inRange, taken⟩ := ih rest
    rw [List.length_eraseIdx_of_lt inside] at inRange
    exact ⟨k :: ks, left, ⟨inside, inRange⟩, by rw [takeOut_cons inside, taken, Option.map_some]⟩

end Protoactor.Lib
