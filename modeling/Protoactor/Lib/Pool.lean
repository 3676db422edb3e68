import Mathlib.Algebra.GroupWithZero.Nat
import Mathlib.Algebra.Ring.Int.Defs

/-!
# Pools of concurrent activities

A pool is a list with one entry for each activity; one activity taking a step
replaces one entry. Counts over a pool then change only by that entry, and an
entry known to be the only one of its kind is isolated by `only_one`.
-/

namespace Protoactor.Lib
set_option autoImplicit false

variable {α : Type}

/-- Reading entry `n` splits the pool around it, and writing it keeps the split. -/
theorem pool_split {l : List α} {n : Nat} {a : α} (h : l[n]? = some a) :
    ∃ pre post, l = pre ++ a :: post ∧ ∀ b, l.set n b = pre ++ b :: post := by
  obtain ⟨bound, rfl⟩ := List.getElem?_eq_some_iff.1 h
  refine ⟨l.take n, l.drop (n + 1), ?_, fun b => List.set_eq_take_append_cons_drop.trans (by simp [bound])⟩
  simp

/-- What all entries have, they have after one is replaced by another that has it. -/
theorem pool_all {P : α → Prop} {l pre post : List α} {a b : α} (here : l = pre ++ a :: post) (all : ∀ x ∈ l, P x) (own : P b) :
    ∀ x ∈ pre ++ b :: post, P x := by
  intro x member
  rw [here] at all
  rcases List.mem_append.1 member with left | at_
  · exact all x (List.mem_append_left _ left)
  · rcases List.mem_cons.1 at_ with rfl | right
    · exact own
    · exact all x (List.mem_append_right _ (List.mem_cons_of_mem _ right))

/-- The same with one entry more. -/
theorem pool_all_new {P : α → Prop} {l : List α} {a : α} (all : ∀ x ∈ l, P x) (own : P a) : ∀ x ∈ l ++ [a], P x := by
  intro x member
  rcases List.mem_append.1 member with old | new
  · exact all x old
  · rw [List.mem_singleton.1 new]
    exact own

/-- The same where the entry is written over. -/
theorem pool_set {P : α → Prop} {l : List α} {n : Nat} {b : α} (all : ∀ x ∈ l, P x) (own : P b) : ∀ x ∈ l.set n b, P x := by
  intro x member
  rcases List.mem_or_eq_of_mem_set member with old | rfl
  · exact all x old
  · exact own

/-- The same where one entry is changed in a way that keeps it. -/
theorem pool_modify {P : α → Prop} {l : List α} (n : Nat) {f : α → α} (all : ∀ x ∈ l, P x) (kept : ∀ x, P x → P (f x)) :
    ∀ x ∈ l.modify n f, P x := by
  induction l generalizing n with
  | nil => simp
  | cons a l ih =>
    have own : P a := all a List.mem_cons_self
    have others : ∀ x ∈ l, P x := fun x member => all x (List.mem_cons_of_mem a member)
    cases n with
    | zero => simpa [List.forall_mem_cons] using ⟨kept a own, others⟩
    | succ n => simpa [List.forall_mem_cons] using ⟨own, ih n others⟩

/-- A new entry is the last one. -/
theorem modify_last (f : α → α) (l : List α) (a : α) : (l ++ [a]).modify l.length f = l ++ [f a] := by
  induction l with
  | nil => rfl
  | cons b l ih => simp [ih]

/-- Nothing is counted in a pool of equal entries that do not count. -/
theorem pool_none {l : List α} {a : α} {p : α → Bool} (all : ∀ x ∈ l, x = a) (own : p a = false) : l.countP p = 0 := by
  rw [List.countP_eq_zero]
  intro x member
  rw [all x member, own]
  exact Bool.false_ne_true

/-- The entry that was written. -/
theorem pool_put {l : List α} {n : Nat} {a : α} (h : l[n]? = some a) (b : α) : (l.set n b)[n]? = some b :=
  List.getElem?_set_self (List.getElem?_eq_some_iff.1 h).1

/-- New entries come after the old ones. -/
theorem pool_grow {l : List α} {n : Nat} {a : α} (h : l[n]? = some a) (new : List α) : (l ++ new)[n]? = some a :=
  (List.getElem?_append_left (List.getElem?_eq_some_iff.1 h).1).trans h

/-- A count changes by the entry that is replaced. -/
theorem pool_count {l : List α} {n : Nat} {a : α} (h : l[n]? = some a) (b : α) (p : α → Bool) :
    (l.set n b).countP p + (if p a then 1 else 0) = l.countP p + (if p b then 1 else 0) := by
  obtain ⟨pre, post, here, put⟩ := pool_split h
  rw [put b, here, List.countP_append, List.countP_append, List.countP_cons, List.countP_cons]
  omega

/-- A sum changes by the entry that is replaced. -/
theorem pool_sum {l : List α} {n : Nat} {a : α} (h : l[n]? = some a) (b : α) (f : α → Nat) :
    ((l.set n b).map f).sum + f a = (l.map f).sum + f b := by
  obtain ⟨pre, post, here, put⟩ := pool_split h
  rw [put b, here, List.map_append, List.map_append, List.map_cons, List.map_cons, List.sum_append, List.sum_append, List.sum_cons,
    List.sum_cons]
  omega

/-- So does a sum over indices, of which one contributes something else. -/
theorem range_sum {f g : Nat → Nat} {n i : Nat} (inside : i < n) (same : ∀ j, j ≠ i → g j = f j) :
    ((List.range n).map g).sum + f i = ((List.range n).map f).sum + g i := by
  have written : ((List.range n).map f).set i (g i) = (List.range n).map g := by
    refine List.ext_getElem (by simp) fun j _ bound => ?_
    rw [List.getElem_set]
    split
    · rename_i own
      simp [own]
    · rename_i other
      simp [same j (Ne.symm other)]
  have here : ((List.range n).map f)[i]? = some (f i) := by simp [inside]
  have sum := pool_sum here (g i) id
  rwa [written, List.map_id, List.map_id] at sum

/-- In a pool with at most one entry of a kind, the other entries are of another kind. -/
theorem only_one {p : α → Bool} {pre post : List α} {a : α} (one : (pre ++ a :: post).countP p ≤ 1)
    (own : p a = true) : (∀ b ∈ pre, p b = false) ∧ ∀ b ∈ post, p b = false := by
  rw [List.countP_append, List.countP_cons_of_pos own] at one
  have left : pre.countP p = 0 := by omega
  have right : post.countP p = 0 := by omega
  simp only [List.countP_eq_zero, Bool.not_eq_true] at left right
  exact ⟨left, right⟩

/-- In such a pool the place of the one entry is known. -/
theorem index_unique {p : α → Bool} {l : List α} {i j : Nat} {a b : α} (one : l.countP p ≤ 1) (here : l[i]? = some a)
    (there : l[j]? = some b) (own : p a = true) (own' : p b = true) : i = j := by
  induction l generalizing i j with
  | nil => cases here
  | cons c l ih =>
    have alone : ∀ {k : Nat} {x y : α}, l[k]? = some x → p x = true → y = c → p y = true → False := by
      intro k x y at_k holds same holds'
      subst same
      rw [List.countP_cons_of_pos holds'] at one
      have none : l.countP p = 0 := by omega
      exact (List.countP_eq_zero.1 none) x (List.mem_of_getElem? at_k) holds
    cases i with
    | zero =>
      cases j with
      | zero => rfl
      | succ j => exact (alone there own' (Option.some.inj here).symm own).elim
    | succ i =>
      cases j with
      | zero => exact (alone here own (Option.some.inj there).symm own').elim
      | succ j =>
        have fewer : l.countP p ≤ 1 := by
          rw [List.countP_cons] at one
          omega
        rw [ih fewer here there]

/-- A sum over a pool in which nobody contributes. -/
theorem sum_eq_zero {f : α → Int} {l : List α} (h : ∀ a ∈ l, f a = 0) : (l.map f).sum = 0 := by
  induction l with
  | nil => rfl
  | cons a l ih =>
    rw [List.map_cons, List.sum_cons, h a List.mem_cons_self, ih fun b inside => h b (List.mem_cons_of_mem a inside)]
    rfl

end Protoactor.Lib
