import Mathlib.Data.List.Infix
import Mathlib.Data.List.Basic

/-!
# Behaviors (`behavior.cpp`, `behavior.h`)

A stack of receive functions. `Become` leaves one function, `BecomeStacked` puts one on top, and
`UnbecomeStacked` takes the top off, where there is one. An `UnbecomeStacked` that finds the stack empty is
ignored, so that the counts of the two do not say what is left: a function is there as long as the
operations after it, taken from it on, never unstack more than they stack (`behaviors_run`).

`Receive` calls a copy of the top, so what the function does to the behavior meanwhile is one operation
after another.
-/

namespace Protoactor.Actor
set_option autoImplicit false

/-- The functions, the oldest first; an empty `std::function` is `none`. -/
structure Behavior (F : Type) where
  behaviors : List (Option F)
  deriving DecidableEq, Repr

namespace Behavior

variable {F : Type}

def new : Behavior F := ⟨[]⟩

def clear (_ : Behavior F) : Behavior F := ⟨[]⟩

def push (receive : Option F) (b : Behavior F) : Behavior F := ⟨b.behaviors ++ [receive]⟩

def pop (b : Behavior F) : Behavior F := if b.behaviors = [] then b else ⟨b.behaviors.dropLast⟩

def peek (b : Behavior F) : Option F := b.behaviors.getLast?.join

def become (receive : Option F) (b : Behavior F) : Behavior F := b.clear.push receive

def becomeStacked (receive : Option F) (b : Behavior F) : Behavior F := b.push receive

def unbecomeStacked (b : Behavior F) : Behavior F := b.pop

/-- The function that is called, or what is thrown. -/
def receive (b : Behavior F) : Except String F :=
  match b.peek with
  | some behavior => .ok behavior
  | none => .error "empty behavior called"

def length (b : Behavior F) : Nat := b.behaviors.length

/-- An operation that changes a behavior. -/
inductive Op (F : Type) where
  | become (receive : Option F)
  | becomeStacked (receive : Option F)
  | unbecomeStacked
  deriving DecidableEq, Repr

def apply (b : Behavior F) : Op F → Behavior F
  | .become receive => b.become receive
  | .becomeStacked receive => b.becomeStacked receive
  | .unbecomeStacked => b.unbecomeStacked

def run (b : Behavior F) (ops : List (Op F)) : Behavior F := ops.foldl apply b

/-! ## What is left of a history -/

namespace Op

/-- The function that an operation brings. -/
def brings : Op F → Option (Option F)
  | .become receive | .becomeStacked receive => some receive
  | .unbecomeStacked => none

def pushes : Op F → Bool
  | .becomeStacked _ => true
  | _ => false

def pops : Op F → Bool
  | .unbecomeStacked => true
  | _ => false

def replaces : Op F → Bool
  | .become _ => true
  | _ => false

variable (receive : Option F)

@[simp] theorem brings_become : (become receive).brings = some receive := rfl
@[simp] theorem brings_becomeStacked : (becomeStacked receive).brings = some receive := rfl
@[simp] theorem brings_unbecomeStacked : (unbecomeStacked : Op F).brings = none := rfl
@[simp] theorem pushes_become : (become receive).pushes = false := rfl
@[simp] theorem pushes_becomeStacked : (becomeStacked receive).pushes = true := rfl
@[simp] theorem pushes_unbecomeStacked : (unbecomeStacked : Op F).pushes = false := rfl
@[simp] theorem pops_become : (become receive).pops = false := rfl
@[simp] theorem pops_becomeStacked : (becomeStacked receive).pops = false := rfl
@[simp] theorem pops_unbecomeStacked : (unbecomeStacked : Op F).pops = true := rfl
@[simp] theorem replaces_become : (become receive).replaces = true := rfl
@[simp] theorem replaces_becomeStacked : (becomeStacked receive).replaces = false := rfl
@[simp] theorem replaces_unbecomeStacked : (unbecomeStacked : Op F).replaces = false := rfl

end Op

/-- What comes later leaves a function where it is. -/
def Leaves (later : List (Op F)) : Prop :=
  (∀ op ∈ later, op.replaces = false) ∧ ∀ some_ ∈ later.inits, some_.countP Op.pops ≤ some_.countP Op.pushes

instance (later : List (Op F)) : Decidable (Leaves later) := inferInstanceAs (Decidable (_ ∧ _))

/-- The functions of a history that are left at its end. -/
def left : List (Op F) → List (Option F)
  | [] => []
  | op :: later => (if Leaves later then op.brings.toList else []) ++ left later

/-- How many of the functions that were there before are taken off. -/
def deficit : List (Op F) → Nat
  | [] => 0
  | op :: later => if op.pushes then deficit later - 1 else if op.pops then deficit later + 1 else deficit later

theorem deficit_le_iff {later : List (Op F)} (n : Nat) :
    deficit later ≤ n ↔ ∀ some_ ∈ later.inits, some_.countP Op.pops ≤ some_.countP Op.pushes + n := by
  induction later generalizing n with
  | nil => simp [deficit]
  | cons op later ih =>
    simp only [List.inits, List.mem_cons, List.mem_map, forall_eq_or_imp, forall_exists_index, and_imp, forall_apply_eq_imp_iff₂,
      List.countP_cons, List.countP_nil, Nat.zero_le, true_and]
    cases op with
    | become receive => simpa [deficit] using ih n
    | becomeStacked receive =>
      simp only [deficit, Op.pushes_becomeStacked, Op.pops_becomeStacked, if_true, Bool.false_eq_true, if_false]
      rw [Nat.sub_le_iff_le_add, ih (n + 1)]
      refine forall₂_congr fun some_ _ => ?_
      omega
    | unbecomeStacked =>
      simp only [deficit, Op.pushes_unbecomeStacked, Op.pops_unbecomeStacked, if_true, Bool.false_eq_true, if_false]
      cases n with
      | zero =>
        -- what has only this operation pops one more
        refine ⟨fun none_ => absurd none_ (Nat.not_succ_le_zero _), fun all => ?_⟩
        have first := all [] (by simp)
        simp at first
      | succ n =>
        rw [Nat.succ_le_succ_iff, ih n]
        refine forall₂_congr fun some_ _ => ?_
        omega

theorem leaves_iff {later : List (Op F)} : Leaves later ↔ (∀ op ∈ later, op.replaces = false) ∧ deficit later = 0 := by
  rw [← Nat.le_zero, deficit_le_iff 0]
  rfl

variable {b : Behavior F}

/-- `UnbecomeStacked` takes off the last, if any. -/
@[simp] theorem pop_behaviors : b.pop.behaviors = b.behaviors.take (b.behaviors.length - 1) := by
  unfold pop
  split
  · rename_i empty
    rw [empty, List.take_nil]
  · exact List.dropLast_eq_take

theorem run_cons (op : Op F) (ops : List (Op F)) : b.run (op :: ops) = (b.apply op).run ops := rfl

/-- A function on top is the first that is taken off. -/
theorem take_push (fs : List (Option F)) (f : Option F) (d : Nat) :
    (fs ++ [f]).take (fs.length + 1 - d) = fs.take (fs.length - (d - 1)) ++ if d = 0 then [f] else [] := by
  cases d with
  | zero => simp
  | succ d =>
    rw [if_neg (Nat.succ_ne_zero d), List.append_nil, Nat.add_sub_add_right, Nat.add_sub_cancel]
    exact List.take_append_of_le_length (Nat.sub_le _ _)

/-- **What a history leaves**: of the functions that were there before all but the deficit, unless a `Become` has
replaced them, and on top those of the history that are left. -/
theorem run_behaviors (ops : List (Op F)) (b : Behavior F) :
    (b.run ops).behaviors =
      (if ∀ op ∈ ops, op.replaces = false then b.behaviors.take (b.behaviors.length - deficit ops) else []) ++ left ops := by
  induction ops generalizing b with
  | nil => simp [run, deficit, left]
  | cons op ops ih =>
    rw [run_cons, ih, left, ← List.append_assoc]
    refine congrArg (· ++ left ops) ?_
    by_cases stay : ∀ op ∈ ops, op.replaces = false
    · have leaves : Leaves ops ↔ deficit ops = 0 := by rw [leaves_iff, and_iff_right stay]
      simp only [List.forall_mem_cons, leaves, if_pos stay, and_iff_left stay]
      cases op with
      | become receive =>
        have only := take_push [] receive (deficit ops)
        simpa [apply, become, clear, push] using only
      | becomeStacked receive =>
        have top := take_push b.behaviors receive (deficit ops)
        simpa [apply, becomeStacked, push, deficit] using top
      | unbecomeStacked =>
        have less : b.behaviors.length - 1 - deficit ops = b.behaviors.length - deficit (.unbecomeStacked :: ops) := by
          simp only [deficit, Op.pushes_unbecomeStacked, Op.pops_unbecomeStacked, Bool.false_eq_true, if_false, if_true]
          omega
        simp [apply, unbecomeStacked, List.take_take, ← less]
    · have gone : ¬Leaves ops := fun leaves => stay leaves.1
      simp only [List.forall_mem_cons, if_neg stay, if_neg gone, if_neg fun all : _ ∧ _ => stay all.2, List.append_nil]

/-- **What a behavior is after a history**: the functions that nothing after them has replaced or unstacked. -/
theorem behaviors_run (ops : List (Op F)) : ((new : Behavior F).run ops).behaviors = left ops := by
  rw [run_behaviors]
  simp [new]

/-- An `UnbecomeStacked` on the empty stack takes nothing from what comes after it. -/
example : (left [.unbecomeStacked, .become (some 1), .becomeStacked (some 2), .unbecomeStacked, .becomeStacked none] : List (Option Nat)) =
    [some 1, none] := by decide

/-! ## Scopes -/

/-- Where the stack is deep enough, each operation counts. -/
theorem length_run {ops : List (Op F)} (stay : ∀ op ∈ ops, op.replaces = false) (b : Behavior F) (deep : deficit ops ≤ b.length) :
    (b.run ops).length + ops.countP Op.pops = b.length + ops.countP Op.pushes := by
  induction ops generalizing b with
  | nil => rfl
  | cons op ops ih =>
    rw [List.forall_mem_cons] at stay
    rw [run_cons, List.countP_cons, List.countP_cons]
    unfold length at *
    cases op with
    | become receive => cases stay.1
    | becomeStacked receive =>
      have longer : (b.apply (.becomeStacked receive)).behaviors.length = b.behaviors.length + 1 := List.length_append
      simp only [deficit, Op.pushes_becomeStacked, if_true] at deep
      have rest := ih stay.2 (b.apply (.becomeStacked receive)) (by omega)
      simp only [Op.pushes_becomeStacked, Op.pops_becomeStacked, if_true, Bool.false_eq_true, if_false]
      omega
    | unbecomeStacked =>
      have shorter : (b.apply .unbecomeStacked).behaviors.length = b.behaviors.length - 1 := by
        simp [apply, unbecomeStacked]
      simp only [deficit, Op.pushes_unbecomeStacked, Op.pops_unbecomeStacked, if_true, Bool.false_eq_true, if_false] at deep
      have rest := ih stay.2 (b.apply .unbecomeStacked) (by omega)
      simp only [Op.pushes_unbecomeStacked, Op.pops_unbecomeStacked, if_true, Bool.false_eq_true, if_false]
      omega

/-- **A scope restores the behavior**: a history that pops all that it has stacked, and never more than that. -/
theorem run_scope {ops : List (Op F)} (leaves : Leaves ops) (even : ops.countP Op.pops = ops.countP Op.pushes) (b : Behavior F) :
    b.run ops = b := by
  obtain ⟨stay, none_⟩ := leaves_iff.1 leaves
  have whole := run_behaviors ops b
  rw [if_pos stay, none_, Nat.sub_zero, List.take_length] at whole
  have same := length_run stay b (by omega)
  unfold length at same
  rw [whole, List.length_append] at same
  have nothing : left ops = [] := List.eq_nil_of_length_eq_zero (by omega)
  rw [nothing, List.append_nil] at whole
  exact congrArg Behavior.mk whole

end Behavior

end Protoactor.Actor
