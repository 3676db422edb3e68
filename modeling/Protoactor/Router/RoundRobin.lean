import Mathlib.Algebra.Order.Group.Unbundled.Int
import Protoactor.Lib.Int32

/-!
# The round robin router (`src/router/router.cpp`)

One call of `RouteMessage` after another. The counter is a `std::atomic<int>`, so it goes from `2^31 - 1` to
`-2^31`; the remainder of a negative value is corrected by the number of routees. Unless that number divides
`2^32` the indices before and after that step do not follow each other.
-/

namespace Protoactor.Router
set_option autoImplicit false
open Lib

variable {R M : Type}

structure RoundRobinRouter (R : Type) where
  routees : List R
  /-- `sender_` is not null -/
  sender : Bool
  currentIndex : Int
  deriving DecidableEq, Repr

/-- What a call comes to. -/
inductive Routed (R M : Type) where
  /-- `sender_->Send(routees_[index], message)` -/
  | sends (index : Int) (routee : R) (message : M)
  | nothing
  /-- a remainder that is not defined, or an access out of range -/
  | undefined
  deriving DecidableEq, Repr

def Routed.index : Routed R M → Option Int
  | .sends index _ _ => some index
  | _ => none

namespace RoundRobinRouter

def new : RoundRobinRouter R := ⟨[], false, 0⟩

def setRoutees (routees : List R) (r : RoundRobinRouter R) : RoundRobinRouter R := { r with routees := routees, currentIndex := 0 }

def setSender (sender : Bool) (r : RoundRobinRouter R) : RoundRobinRouter R := { r with sender := sender }

/-- `static_cast<int>(routees_.size())`. -/
def size (routees : List R) : Int := int32 routees.length

/-- From the remainder on, which is that of C++. -/
def select (routees : List R) (sender : Bool) (message : M) (index : Int) : Routed R M :=
  if size routees = 0 ∨ (index = -2147483648 ∧ size routees = -1) then .undefined
  else
    let index := index.tmod (size routees)
    let index := if index < 0 then int32 (index + routees.length) else index
    if sender ∧ index < size routees then
      if index < 0 then .undefined
      else
        match routees[index.toNat]? with
        | none => .undefined
        | some routee => .sends index routee message
    else .nothing

def routeMessage (message : M) (r : RoundRobinRouter R) : Routed R M × RoundRobinRouter R :=
  if r.routees = [] then (.nothing, r)
  else (select r.routees r.sender message r.currentIndex, { r with currentIndex := int32 (r.currentIndex + 1) })

/-- After that many calls. -/
def after (messages : Nat → M) (r : RoundRobinRouter R) : Nat → RoundRobinRouter R
  | 0 => r
  | i + 1 => ((after messages r i).routeMessage (messages i)).2

/-- What the `i`-th call comes to. -/
def routed (messages : Nat → M) (r : RoundRobinRouter R) (i : Nat) : Routed R M := ((after messages r i).routeMessage (messages i)).1

/-- **A fair run**: each of the `k` calls sends its message to one routee, and any calls one after another, as many as
there are routees, send to different ones. -/
structure Fair (messages : Nat → M) (r : RoundRobinRouter R) (k : Nat) : Prop where
  sends : ∀ i < k, ∃ index routee, routed messages r i = .sends index routee (messages i) ∧ 0 ≤ index ∧ index < r.routees.length ∧
    r.routees[index.toNat]? = some routee
  differ : ∀ first, first + r.routees.length ≤ k → ∀ i < r.routees.length, ∀ j < r.routees.length,
    (routed messages r (first + i)).index = (routed messages r (first + j)).index → i = j

/-! ## One call -/

variable {messages : Nat → M} {r : RoundRobinRouter R} {c : Nat}

/-- All that the calls change is the counter. -/
theorem after_eq (messages : Nat → M) (some : r.routees ≠ []) (counter : r.currentIndex = int32 c) (i : Nat) :
    after messages r i = { r with currentIndex := int32 ((c + i : Nat) : Int) } := by
  induction i with
  | zero => rw [after, Nat.add_zero, ← counter]
  | succ i ih =>
    have next : ((c + i : Nat) : Int) + 1 = ((c + (i + 1) : Nat) : Int) := by omega
    rw [after, ih, routeMessage, if_neg some]
    dsimp only
    rw [int32_add, next]

theorem routed_eq (messages : Nat → M) (some : r.routees ≠ []) (counter : r.currentIndex = int32 c) (i : Nat) :
    routed messages r i = select r.routees r.sender (messages i) (int32 ((c + i : Nat) : Int)) := by
  rw [routed, after_eq messages some counter, routeMessage, if_neg some]

/-- How often the counter has gone from `2^31 - 1` to `-2^31` in `c` calls. -/
def wraps (c : Nat) : Nat := (c + 2 ^ 31) / 2 ^ 32

theorem int32_counter (c : Nat) : int32 (c : Int) = c - 2 ^ 32 * wraps c := by
  unfold int32 wraps
  rw [Int.bmod_def]
  split <;> omega

section Size

variable {routees : List R}

theorem size_high (routees : List R) : size routees < 2 ^ 31 := by
  unfold size
  rw [int32_counter]
  unfold wraps
  omega

theorem size_le (routees : List R) : size routees ≤ routees.length := by
  rw [size, int32_counter]
  omega

/-- The remainder of C++ with its correction is the one that is never negative. -/
theorem corrected (positive : 0 < size routees) (index : Int) :
    (if index.tmod (size routees) < 0 then int32 (index.tmod (size routees) + routees.length) else index.tmod (size routees)) =
      index % size routees := by
  have nonneg : 0 ≤ index % size routees := Int.emod_nonneg _ (by omega)
  have below : index % size routees < size routees := Int.emod_lt_of_pos _ positive
  have high := size_high routees
  rw [Int.tmod_eq_emod]
  by_cases even : 0 ≤ index ∨ size routees ∣ index
  · rw [if_pos even, if_neg (by omega)]
    omega
  · have moved : int32 (index % size routees - (size routees).natAbs + routees.length) =
        int32 (size routees + (index % size routees - (size routees).natAbs)) := by
      rw [size, int32_add, Int.add_comm]
    have plain : size routees + (index % size routees - (size routees).natAbs) = index % size routees := by omega
    rw [if_neg even, if_pos (by omega), moved, plain]
    exact int32_of_range (by omega) (by omega)

/-- With a positive size the message goes to the routee at that remainder. -/
theorem select_pos (message : M) (index : Int) (positive : 0 < size routees) :
    ∃ routee, select routees true message index = .sends (index % size routees) routee message ∧
      routees[(index % size routees).toNat]? = some routee ∧ 0 ≤ index % size routees ∧ index % size routees < routees.length := by
  have nonneg : 0 ≤ index % size routees := Int.emod_nonneg _ (by omega)
  have below : index % size routees < size routees := Int.emod_lt_of_pos _ positive
  have low := size_le routees
  have inside : (index % size routees).toNat < routees.length := by omega
  refine ⟨routees[(index % size routees).toNat], ?_, List.getElem?_eq_getElem inside, nonneg, by omega⟩
  unfold select
  rw [if_neg (by omega)]
  dsimp only
  rw [corrected positive, if_pos ⟨rfl, below⟩, if_neg (by omega), List.getElem?_eq_getElem inside]

/-- Otherwise an index below the size is negative, and no routee gets the message. -/
theorem select_neg (sender : Bool) (message : M) (index : Int) (negative : size routees ≤ 0) :
    (select routees sender message index).index = none := by
  unfold select
  split
  · rfl
  · dsimp only
    generalize (if index.tmod (size routees) < 0 then int32 (index.tmod (size routees) + routees.length)
      else index.tmod (size routees)) = final
    split
    · rename_i below
      rw [if_pos (by omega)]
      rfl
    · rfl

end Size

/-! ## Runs -/

/-- The counter goes from `2^31 - 1` to `-2^31` at call `b`. -/
def Wrap (b : Nat) : Prop := b % 2 ^ 32 = 2 ^ 31

theorem wraps_eq {i j : Nat} (le : i ≤ j) (none : ∀ b, i < b → b ≤ j → ¬ Wrap b) : wraps i = wraps j := by
  unfold wraps Wrap at *
  by_contra differ
  apply none (2 ^ 32 * ((j + 2 ^ 31) / 2 ^ 32) - 2 ^ 31)
  · omega
  · omega
  · omega

/-- Two calls use the same index. -/
theorem emod_counter_iff (n : Int) (i j : Nat) :
    int32 (i : Int) % n = int32 (j : Int) % n ↔ n ∣ (j - i : Int) - 2 ^ 32 * ((wraps j : Int) - wraps i) := by
  rw [int32_counter, int32_counter, eq_comm, Int.emod_eq_emod_iff_emod_sub_eq_zero, ← Int.dvd_iff_emod_eq_zero]
  have regrouped : (j : Int) - 2 ^ 32 * wraps j - (i - 2 ^ 32 * wraps i) = (j - i : Int) - 2 ^ 32 * ((wraps j : Int) - wraps i) := by omega
  rw [regrouped]

/-- As long as the counter does not wrap, calls one after another use different indices. -/
theorem eq_of_emod_counter {n i j : Nat} (le : i ≤ j) (near : j < i + n) (none : n ∣ 2 ^ 32 ∨ wraps i = wraps j)
    (same : int32 (i : Int) % n = int32 (j : Int) % n) : i = j := by
  have divides : (n : Int) ∣ (j - i : Int) - 2 ^ 32 * ((wraps j : Int) - wraps i) := (emod_counter_iff n i j).1 same
  have rest : (n : Int) ∣ (j - i : Int) := by
    rcases none with whole | equal
    · have whole : (n : Int) ∣ 2 ^ 32 * ((wraps j : Int) - wraps i) := by
        apply Int.dvd_mul_of_dvd_left
        exact Int.natCast_dvd_natCast.2 whole
      exact (Int.dvd_iff_dvd_of_dvd_sub divides).2 whole
    · rw [equal, Int.sub_self, Int.mul_zero, Int.sub_zero] at divides
      exact divides
  have small : ((j : Int) - i) % n = j - i := Int.emod_eq_of_lt (by omega) (by omega)
  rw [Int.dvd_iff_emod_eq_zero, small] at rest
  omega

/-- Around a wrap two of `n` calls one after another use the same index. -/
theorem same_index {n b first : Nat} (wrap : Wrap b) (int : n < 2 ^ 31) (odd : ¬ n ∣ 2 ^ 32) (before : first < b) (after : b < first + n) :
    ∃ i j, first ≤ i ∧ i < j ∧ j < first + n ∧ int32 (i : Int) % n = int32 (j : Int) % n := by
  have positive : 0 < n := by omega
  have below : 2 ^ 32 % n < n := Nat.mod_lt _ positive
  have some : 2 ^ 32 % n ≠ 0 := fun zero => odd (Nat.dvd_of_mod_eq_zero zero)
  refine ⟨b - min (b - first) (2 ^ 32 % n), b + (2 ^ 32 % n - min (b - first) (2 ^ 32 % n)), by omega, by omega, by omega, ?_⟩
  rw [emod_counter_iff]
  have one : (wraps (b + (2 ^ 32 % n - min (b - first) (2 ^ 32 % n))) : Int) - wraps (b - min (b - first) (2 ^ 32 % n)) = 1 := by
    unfold Wrap at wrap
    unfold wraps
    omega
  rw [one]
  have back : ((b + (2 ^ 32 % n - min (b - first) (2 ^ 32 % n)) : Nat) : Int) - ((b - min (b - first) (2 ^ 32 % n) : Nat) : Int) - 2 ^ 32 * 1 =
      -((2 ^ 32 - 2 ^ 32 % n : Nat) : Int) := by
    have le : 2 ^ 32 % n ≤ 2 ^ 32 := Nat.mod_le _ _
    omega
  rw [back, Int.dvd_neg]
  exact Int.natCast_dvd_natCast.2 (Nat.dvd_sub_mod _)

/-- No two of `n` calls one after another, out of the `k` after call `c`, use the same index. -/
theorem differ_iff {n k : Nat} (positive : 0 < n) (int : n < 2 ^ 31) (c : Nat) :
    (∀ first, first + n ≤ k → ∀ i < n, ∀ j < n,
        int32 ((c + (first + i) : Nat) : Int) % n = int32 ((c + (first + j) : Nat) : Int) % n → i = j) ↔
      n ∣ 2 ^ 32 ∨ k < n ∨ ∀ b, c < b → b < c + k → ¬ Wrap b := by
  constructor
  · intro differ
    by_contra none
    simp only [not_or, not_lt, not_forall, not_not] at none
    obtain ⟨odd, long, b, before, after, wrap⟩ := none
    -- the calls that end with call `b`, or the first ones
    obtain ⟨first, fits, low, high⟩ : ∃ first, first + n ≤ k ∧ c + first < b ∧ b < c + first + n := by
      have two : n ≠ 1 := fun one => odd (one ▸ Nat.one_dvd _)
      exact ⟨max 0 (b - c + 1 - n), by omega, by omega, by omega⟩
    obtain ⟨i, j, inside, less, last, same⟩ := same_index wrap int odd low high
    have equal := differ first fits (i - c - first) (by omega) (j - c - first) (by omega) (by
      rw [show c + (first + (i - c - first)) = i by omega, show c + (first + (j - c - first)) = j by omega]
      exact same)
    omega
  · intro steady first fits
    have ordered : ∀ i j, i ≤ j → j < n →
        int32 ((c + (first + i) : Nat) : Int) % n = int32 ((c + (first + j) : Nat) : Int) % n → i = j := by
      intro i j le last same
      have equal := eq_of_emod_counter (by omega) (by omega) ?_ same
      · omega
      · rcases steady with whole | short | none
        · exact .inl whole
        · omega
        · exact .inr (wraps_eq (by omega) fun b low high => none b (by omega) (by omega))
    intro i insideI j insideJ same
    rcases Nat.le_total i j with le | le
    · exact ordered i j le insideJ same
    · exact (ordered j i le insideI same.symm).symm

/-- A run that begins with the counter of call `c`. -/
theorem fair_of_counter (messages : Nat → M) (some : r.routees ≠ []) (sender : r.sender = true) (counter : r.currentIndex = int32 c) (k : Nat) :
    Fair messages r k ↔ k = 0 ∨
      (r.routees.length < 2 ^ 31 ∧ (r.routees.length ∣ 2 ^ 32 ∨ k < r.routees.length ∨ ∀ b, c < b → b < c + k → ¬ Wrap b)) ∨
      (2 ^ 31 ≤ r.routees.length ∧ 0 < size r.routees ∧ k < r.routees.length) := by
  have positive : 0 < r.routees.length := List.length_pos_iff.2 some
  have calls := fun i => routed_eq messages some counter i
  rw [sender] at calls
  by_cases sized : 0 < size r.routees
  · have sent : ∀ i, ∃ routee, routed messages r i = .sends (int32 ((c + i : Nat) : Int) % size r.routees) routee (messages i) ∧
        r.routees[(int32 ((c + i : Nat) : Int) % size r.routees).toNat]? = Option.some routee ∧
        0 ≤ int32 ((c + i : Nat) : Int) % size r.routees ∧ int32 ((c + i : Nat) : Int) % size r.routees < r.routees.length := by
      intro i
      rw [calls]
      exact select_pos (messages i) _ sized
    have index : ∀ i, (routed messages r i).index = Option.some (int32 ((c + i : Nat) : Int) % size r.routees) := by
      intro i
      obtain ⟨routee, eq, -⟩ := sent i
      rw [eq]
      rfl
    have fair : Fair messages r k ↔ ∀ first, first + r.routees.length ≤ k → ∀ i < r.routees.length, ∀ j < r.routees.length,
        int32 ((c + (first + i) : Nat) : Int) % size r.routees = int32 ((c + (first + j) : Nat) : Int) % size r.routees → i = j := by
      constructor
      · intro fair first fits i insideI j insideJ same
        exact fair.differ first fits i insideI j insideJ (by rw [index, index, same])
      · intro differ
        refine ⟨fun i _ => ?_, fun first fits i insideI j insideJ same => differ first fits i insideI j insideJ ?_⟩
        · obtain ⟨routee, eq, there, nonneg, below⟩ := sent i
          exact ⟨_, routee, eq, nonneg, below, there⟩
        · rw [index, index] at same
          exact Option.some.inj same
    rw [fair]
    by_cases int : r.routees.length < 2 ^ 31
    · have exact : size r.routees = r.routees.length := int32_of_range (by omega) (by omega)
      rw [exact, differ_iff positive int]
      constructor
      · exact fun steady => .inr (.inl ⟨int, steady⟩)
      · rintro (rfl | ⟨-, steady⟩ | ⟨large, -⟩)
        · exact .inr (.inl positive)
        · exact steady
        · omega
    · have long : size r.routees + 2 ^ 32 ≤ r.routees.length := by
        have high := size_high r.routees
        unfold size at sized high ⊢
        rw [int32_counter] at sized high ⊢
        unfold wraps at sized high ⊢
        omega
      constructor
      · intro differ
        refine .inr (.inr ⟨by omega, sized, ?_⟩)
        by_contra short
        have same : int32 ((c + (0 + 0) : Nat) : Int) = int32 ((c + (0 + 2 ^ 32) : Nat) : Int) := by
          rw [int32_counter, int32_counter]
          unfold wraps
          omega
        have equal := differ 0 (by omega) 0 positive (2 ^ 32) (by omega) (by rw [same])
        omega
      · rintro (rfl | ⟨small, -⟩ | ⟨-, -, short⟩) first fits
        · omega
        · omega
        · omega
  · have none : ∀ i, (routed messages r i).index = Option.none := by
      intro i
      rw [calls]
      exact select_neg true (messages i) _ (by omega)
    have large : ¬ r.routees.length < 2 ^ 31 := by
      intro int
      have exact : size r.routees = r.routees.length := int32_of_range (by omega) (by omega)
      omega
    constructor
    · intro fair
      by_contra more
      simp only [not_or] at more
      obtain ⟨index, routee, eq, -⟩ := fair.sends 0 (by omega)
      have nothing := none 0
      rw [eq] at nothing
      cases nothing
    · rintro (rfl | ⟨small, -⟩ | ⟨-, pos, -⟩)
      · exact ⟨nofun, fun first fits => by omega⟩
      · omega
      · omega

/-- A router after `SetRoutees`, `c` calls of `RouteMessage` and `SetSender`. -/
def started (routees : List R) (earlier : Nat → M) (c : Nat) : RoundRobinRouter R :=
  (after earlier (new.setRoutees routees) c).setSender true

theorem started_eq {routees : List R} (some : routees ≠ []) (earlier : Nat → M) (c : Nat) :
    started routees earlier c = ⟨routees, true, int32 (c : Int)⟩ := by
  rw [started, after_eq (c := 0) earlier some int32_zero.symm, Nat.zero_add]
  simp only [setSender, setRoutees]

/-- **A run is fair** for at most `2^31 - 1` routees if their number divides `2^32`, if it is too short for a round, or
if the counter does not wrap between its calls. With more routees it is fair only before the first round is over. -/
theorem fair_iff {routees : List R} (some : routees ≠ []) (earlier messages : Nat → M) (c k : Nat) :
    Fair messages (started routees earlier c) k ↔ k = 0 ∨
      (routees.length < 2 ^ 31 ∧ (routees.length ∣ 2 ^ 32 ∨ k < routees.length ∨ ∀ b, c < b → b < c + k → ¬ Wrap b)) ∨
      (2 ^ 31 ≤ routees.length ∧ 0 < size routees ∧ k < routees.length) := by
  rw [started_eq some]
  exact fair_of_counter messages some (by simp only) (by simp only) k

theorem fair_iff_two : Fair id (started [10, 11] id 0) (2 ^ 40) := by
  have length : ([10, 11] : List Nat).length = 2 := rfl
  have whole : 2 ∣ 2 ^ 32 := ⟨2 ^ 31, by omega⟩
  apply (fair_iff (by decide) id id 0 (2 ^ 40)).2
  rw [length]
  exact .inr (.inl ⟨by omega, .inl whole⟩)

/-- Three routees, and the three calls around the wrap. -/
theorem not_fair : (routed id (started [10, 11, 12] id 2147483646) 1).index = some 1 ∧
    (routed id (started [10, 11, 12] id 2147483646) 2).index = some 1 ∧ ¬ Fair id (started [10, 11, 12] id 2147483646) 3 := by
  have calls : ∀ i, routed id (started [10, 11, 12] id 2147483646) i = select [10, 11, 12] true i (int32 ((2147483646 + i : Nat) : Int)) := by
    intro i
    rw [started_eq (by decide), routed_eq (c := 2147483646) id (by decide) rfl]
    rfl
  have one : (routed id (started [10, 11, 12] id 2147483646) 1).index = some 1 := by
    rw [calls]
    decide
  have two : (routed id (started [10, 11, 12] id 2147483646) 2).index = some 1 := by
    rw [calls]
    decide
  refine ⟨one, two, fun fair => ?_⟩
  have length : (started [10, 11, 12] id 2147483646).routees.length = 3 := by
    rw [started_eq (by decide)]
    rfl
  have equal := fair.differ 0 (by omega) 1 (by omega) 2 (by omega) (one.trans two.symm)
  omega

end RoundRobinRouter

end Protoactor.Router
