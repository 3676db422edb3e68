import Mathlib.Data.List.Induction
import Protoactor.Actor.Props

/-!
# Chains as right folds (`src/actor/middleware_chain.cpp`)

The builders apply the last middleware first and then go down from position
`static_cast<int>(middleware.size()) - 2`. Where the cast keeps the size the result is the right
fold of the list; where it does not, the positions below the last are left out or cut off.
-/

namespace Protoactor.Actor.Configured
set_option autoImplicit false
open Lib

variable {F : Type} {xs ys middleware : List (Middleware F)} {m : Middleware F} {last : Option F}

/-! ## The loop -/

/-- `m1(m2(...(mn(last))))`. -/
def rightFold (middleware : List (Middleware F)) (last : Option F) : Option F := middleware.foldr (fun m h => m h) last

theorem applyDown_eq_rightFold (h : Option F) {n : Nat} (inside : n ≤ middleware.length) :
    applyDown middleware n h = rightFold (middleware.take n) h := by
  induction n generalizing h with
  | zero => rfl
  | succ n ih =>
    rw [applyDown, ih _ (by omega), List.getElem?_eq_getElem inside, Option.getD_some, List.take_succ_eq_append_getElem inside,
      rightFold, rightFold, List.foldr_append]
    rfl

/-- Below `2 ^ 31` nothing is cut off. -/
theorem makeChain_eq_rightFold (small : middleware.length < 2 ^ 31) (last : Option F) : makeChain middleware last = rightFold middleware last := by
  induction middleware using List.reverseRecOn with
  | nil => rfl
  | append_singleton ms m _ =>
    rw [List.length_append, List.length_singleton] at small
    have start : (int32 (ms ++ [m]).length - 1).toNat = ms.length := by
      rw [List.length_append, List.length_singleton, int32_of_range (by omega) (by omega)]
      omega
    rw [makeChain, List.getLast?_concat]
    dsimp only
    rw [start, applyDown_eq_rightFold _ (by simp), List.take_left, rightFold, rightFold, List.foldr_append]
    rfl

/-! ## The applications -/

/-- The positions that are applied, one after the other. -/
def applied (n : Nat) : List Nat :=
  match n with
  | 0 => []
  | n + 1 => n :: (List.range (int32 (n + 1 : Nat) - 1).toNat).reverse

theorem applyDown_eq_foldl (middleware : List (Middleware F)) (n : Nat) (h : Option F) :
    applyDown middleware n h = (List.range n).reverse.foldl (fun h i => (middleware[i]?.getD id) h) h := by
  induction n generalizing h with
  | zero => rfl
  | succ n ih =>
    rw [applyDown, ih, List.range_succ, List.reverse_append]
    rfl

/-- These are the applications, whatever the middleware and however many. -/
theorem makeChain_eq_applied (middleware : List (Middleware F)) (last : Option F) :
    makeChain middleware last = (applied middleware.length).foldl (fun h i => (middleware[i]?.getD id) h) last := by
  induction middleware using List.reverseRecOn with
  | nil => rfl
  | append_singleton ms m _ =>
    have own : (ms ++ [m])[ms.length]? = some m := List.getElem?_concat_length
    rw [makeChain, List.getLast?_concat]
    dsimp only
    rw [applyDown_eq_foldl, List.length_append, List.length_singleton, applied, List.foldl_cons, own]
    rfl

theorem applied_inside {n i : Nat} (member : i ∈ applied n) : i < n := by
  cases n with
  | zero => cases member
  | succ n =>
    have size := int32_le (n + 1)
    rcases List.mem_cons.1 member with rfl | below
    · exact Nat.lt_succ_self _
    · have low := List.mem_range.1 (List.mem_reverse.1 below)
      omega

theorem applied_perm {n : Nat} (small : n < 2 ^ 31) : (applied n).Perm (List.range n) := by
  cases n with
  | zero => exact .refl []
  | succ n =>
    have start : ((n + 1 : Nat) - 1 : Int).toNat = n := by omega
    rw [applied, int32_of_range (by omega) (by omega), start, List.range_succ]
    exact ((List.reverse_perm _).cons n).trans (List.perm_append_singleton n _).symm

/-- From there on some are left out. -/
theorem applied_length {n : Nat} (large : 2 ^ 31 ≤ n) : (applied n).length < n := by
  cases n with
  | zero => omega
  | succ n =>
    have high := int32_high (n + 1 : Nat)
    rw [applied, List.length_cons, List.length_reverse, List.length_range]
    omega

/-- Middleware that counts how often it is applied. -/
def counters (n : Nat) : List (Middleware Nat) := List.replicate n (Option.map (· + 1))

theorem foldl_counters {n : Nat} {positions : List Nat} (inside : ∀ i ∈ positions, i < n) (k : Nat) :
    positions.foldl (fun h i => ((counters n)[i]?.getD id) h) (some k) = some (k + positions.length) := by
  induction positions generalizing k with
  | nil => rfl
  | cons i positions ih =>
    have here : (counters n)[i]? = some (Option.map (· + 1)) := List.getElem?_replicate_of_lt (inside i List.mem_cons_self)
    rw [List.foldl_cons, here, Option.getD_some, Option.map_some, ih fun j member => inside j (List.mem_cons_of_mem i member),
      List.length_cons]
    exact congrArg some (by omega)

theorem makeChain_counters (n : Nat) : makeChain (counters n) (some 0) = some (applied n).length := by
  have length : (counters n).length = n := List.length_replicate
  rw [makeChain_eq_applied, length, foldl_counters fun i member => applied_inside member, Nat.zero_add]

/-! ## The four builders -/

inductive Builder where
  | receiver
  | sender
  | spawn
  | contextDecorator
  deriving DecidableEq, Repr

/-- The builder, also over a last function that is empty. -/
def Builder.build (b : Builder) (middleware : List (Middleware F)) (last : Option F) : Option F :=
  match b, last with
  | .receiver, some lastReceiver => makeReceiverMiddlewareChain middleware lastReceiver
  | .sender, some lastSender => makeSenderMiddlewareChain middleware lastSender
  | .spawn, some lastSpawn => makeSpawnMiddlewareChain middleware lastSpawn
  | .contextDecorator, some lastDecorator => makeContextDecoratorChain middleware lastDecorator
  | _, none => makeChain middleware none

theorem build_eq (b : Builder) (middleware : List (Middleware F)) (last : Option F) : b.build middleware last = makeChain middleware last := by
  cases last with
  | none => cases b <;> rfl
  | some last => cases b <;> rfl

/-- The builder applies the middleware at these positions, whatever it is. -/
def Applies (b : Builder) (n : Nat) (positions : List Nat) : Prop :=
  ∀ (F : Type) (middleware : List (Middleware F)) (last : Option F), middleware.length = n →
    b.build middleware last = positions.foldl (fun h i => (middleware[i]?.getD id) h) last

theorem applies_applied (b : Builder) (n : Nat) : Applies b n (applied n) := by
  rintro F middleware last rfl
  rw [build_eq, makeChain_eq_applied]

/-- **Each middleware once**, exactly where the cast keeps the size. -/
theorem exists_applies_iff (b : Builder) (n : Nat) : (∃ positions, positions.Perm (List.range n) ∧ Applies b n positions) ↔ n < 2 ^ 31 := by
  constructor
  · rintro ⟨positions, once, applies⟩
    by_contra large
    have count := applies Nat (counters n) (some 0) List.length_replicate
    rw [build_eq, makeChain_counters, foldl_counters fun i member => List.mem_range.1 (once.mem_iff.1 member), Nat.zero_add,
      once.length_eq, List.length_range] at count
    have less := applied_length (Nat.not_lt.1 large)
    rw [Option.some.inj count] at less
    exact Nat.lt_irrefl n less
  · exact fun small => ⟨applied n, applied_perm small, applies_applied b n⟩

/-! ## Calling next -/

/-- Records its name when it is called, and calls the next function or leaves it. -/
def recorder (name : Nat) (callsNext : Bool) : Middleware (List Nat → List Nat) := fun next =>
  some fun order => if callsNext then next.getD id (order ++ [name]) else order ++ [name]

/-- Recorders with their positions as names. -/
def recorders : Nat → List Bool → List (Middleware (List Nat → List Nat))
  | _, [] => []
  | i, callsNext :: rest => recorder i callsNext :: recorders (i + 1) rest

theorem length_recorders (i : Nat) (calls : List Bool) : (recorders i calls).length = calls.length := by
  induction calls generalizing i with
  | nil => rfl
  | cons callsNext rest ih => rw [recorders, List.length_cons, ih, List.length_cons]

/-- The call goes on to the first recorder that does not call next, or to the last function. -/
theorem rightFold_recorders (i : Nat) (calls : List Bool) :
    rightFold (recorders i calls) (some fun order => order ++ [i + calls.length]) =
      some fun order => order ++ List.range' i ((calls.takeWhile id).length + 1) := by
  induction calls generalizing i with
  | nil => rfl
  | cons callsNext rest ih =>
    have last : i + (callsNext :: rest).length = i + 1 + rest.length := by
      rw [List.length_cons]
      omega
    have tail := ih (i + 1)
    rw [rightFold] at tail ⊢
    rw [recorders, List.foldr_cons, last, tail, recorder]
    cases callsNext with
    | true =>
      simp only [if_true, Option.getD_some, List.takeWhile_cons, id, List.length_cons, List.append_assoc, List.singleton_append]
      rfl
    | false => rfl

/-! ## Right folds -/

/-- **The chain is the right fold**, with what follows: lists one after the other, the first
outermost, what one middleware keeps from being called. -/
structure RightFolds (b : Builder) (middleware : List (Middleware F)) : Prop where
  chain : ∀ last, b.build middleware last = rightFold middleware last
  once : ∃ positions, positions.Perm (List.range middleware.length) ∧ Applies b middleware.length positions
  append : ∀ xs ys, middleware = xs ++ ys → ∀ last, b.build middleware last = b.build xs (b.build ys last)
  outermost : ∀ m rest, middleware = m :: rest → ∀ last, b.build middleware last = m (b.build rest last)
  suppresses : ∀ xs m ys, middleware = xs ++ m :: ys → (∀ next next', m next = m next') →
    ∀ last last', b.build middleware last = b.build (xs ++ [m]) last'
  /-- recorders in their places: all up to the first that does not call next, and no other -/
  entered : ∀ calls : List Bool, calls.length = middleware.length →
    b.build (recorders 0 calls) (some fun order => order ++ [calls.length]) =
      some fun order => order ++ List.range ((calls.takeWhile id).length + 1)

theorem rightFold_append (xs ys : List (Middleware F)) (last : Option F) : rightFold (xs ++ ys) last = rightFold xs (rightFold ys last) :=
  List.foldr_append

/-- **Exactly where the cast keeps the size.** -/
theorem rightFolds_iff (b : Builder) (middleware : List (Middleware F)) : RightFolds b middleware ↔ middleware.length < 2 ^ 31 := by
  constructor
  · exact fun folds => (exists_applies_iff b middleware.length).1 folds.once
  · intro small
    -- each part is a list that is not longer
    have fold : ∀ {ms : List (Middleware F)}, ms.length ≤ middleware.length → ∀ last, b.build ms last = rightFold ms last :=
      fun shorter last => (build_eq b _ last).trans (makeChain_eq_rightFold (Nat.lt_of_le_of_lt shorter small) last)
    constructor
    case chain => exact fold (Nat.le_refl _)
    case once => exact (exists_applies_iff b middleware.length).2 small
    case append =>
      rintro xs ys rfl last
      rw [List.length_append] at fold
      rw [fold (by rw [List.length_append]), fold (Nat.le_add_left _ _), fold (Nat.le_add_right _ _), rightFold_append]
    case outermost =>
      rintro m rest rfl last
      rw [fold (Nat.le_refl _), fold (by simp)]
      rfl
    case suppresses =>
      rintro xs m ys rfl deaf last last'
      rw [fold (Nat.le_refl _), fold (by simp), rightFold_append, rightFold_append]
      exact congrArg (rightFold xs) (deaf _ _)
    case entered =>
      intro calls length
      have few : (recorders 0 calls).length < 2 ^ 31 := by rwa [length_recorders, length]
      have order := rightFold_recorders 0 calls
      rw [Nat.zero_add, ← List.range_eq_range'] at order
      rw [build_eq, makeChain_eq_rightFold few, order]

theorem rightFold_counters (n k : Nat) : rightFold (counters n) (some k) = some (k + n) := by
  induction n with
  | zero => rfl
  | succ n ih => exact congrArg (Option.map (· + 1)) ih

/-- With this many the loop does not start, and only the last one is applied. -/
theorem not_rightFolds : makeReceiverMiddlewareChain (counters (2 ^ 31 + 2)) 0 = some 1 ∧
    rightFold (counters (2 ^ 31 + 2)) (some 0) = some (2 ^ 31 + 2) ∧ ¬ RightFolds Builder.receiver (counters (2 ^ 31 + 2)) := by
  have built : makeReceiverMiddlewareChain (counters (2 ^ 31 + 2)) 0 = some 1 :=
    (makeChain_counters (2 ^ 31 + 2)).trans (congrArg some (by simp [applied, int32]))
  have fold := rightFold_counters (2 ^ 31 + 2) 0
  rw [Nat.zero_add] at fold
  refine ⟨built, fold, fun folds => ?_⟩
  have same := built.symm.trans ((folds.chain (some 0)).trans fold)
  exact absurd (Option.some.inj same) (by decide)

/-- Two recorders and a last function, in the order of the list. -/
example : (makeReceiverMiddlewareChain [recorder 1 true, recorder 2 true] fun order => order ++ [0]).map (fun call => call []) = some [1, 2, 0] := by
  decide

end Protoactor.Actor.Configured
