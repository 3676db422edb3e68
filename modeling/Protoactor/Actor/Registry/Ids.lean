import Protoactor.Actor.Registry.Names

/-!
# Ids and counters

`Uint64ToID` writes every counter, 0 included, as a numeral of one to eleven digits and a
`$`. `readID` is the other direction: it takes the digits back to the counter.
-/

namespace Protoactor.Actor
set_option autoImplicit false
open Lib

namespace ProcessRegistry

/-- `Uint64ToID` in at most so many rounds, every access to `DIGITS` checked. -/
def uint64ToIDWithin : Nat → UInt64 → String → Option String
  | 0, _, _ => none
  | rounds + 1, u, result =>
    if 64 ≤ u then
      DIGITS.toList[(u &&& 0x3f).toNat]?.bind fun c => uint64ToIDWithin rounds (u >>> 6) (String.singleton c ++ result)
    else DIGITS.toList[u.toNat]?.map fun c => String.singleton c ++ result

/-- The value of letters that follow the digits of `n`. -/
def readDigits : List Char → Nat → Option Nat
  | [], n => some n
  | c :: text, n => (DIGITS.toList.idxOf? c).bind fun d => readDigits text (n * 64 + d)

/-- The counter that an id was made from. -/
def readID (id : String) : Option Nat :=
  if id.toList.getLast? = some '$' then readDigits id.toList.dropLast 0 else none

theorem readDigits_map {digits : List Nat} (small : ∀ d ∈ digits, d < 64) (n : Nat) :
    readDigits (digits.map digit) n = some (valueAfter 64 n digits) := by
  induction digits generalizing n with
  | nil => rfl
  | cons d digits ih =>
    have low := small d List.mem_cons_self
    obtain ⟨bound, here⟩ := List.getElem?_eq_some_iff.1 (getElem?_digits low)
    have index : DIGITS.toList.idxOf? (digit d) = some d := by
      refine List.idxOf?_eq_some_iff.2 ⟨bound, here, fun j before same => ?_⟩
      have low' : j < 64 := Nat.lt_trans before low
      obtain ⟨bound', there⟩ := List.getElem?_eq_some_iff.1 (getElem?_digits low')
      have equal := digit_distinct j low' d low (there.symm.trans same)
      omega
    rw [List.map_cons, readDigits, index, Option.bind_some, ih fun e member => small e (List.mem_cons_of_mem d member)]
    rfl

theorem readID_map {digits : List Nat} {id : String} (small : ∀ d ∈ digits, d < 64) (text : id.toList = digits.map digit ++ ['$']) :
    readID id = some (valueAfter 64 0 digits) := by
  rw [readID, text, List.getLast?_concat, if_pos rfl, List.dropLast_concat, readDigits_map small]

/-- What a round writes in front of the text. -/
def withDigit (d : Nat) (result : String) : String := String.singleton (digit d) ++ result

theorem toList_withDigit (d : Nat) (result : String) : (withDigit d result).toList = digit d :: result.toList := by
  rw [withDigit, String.toList_append, String.toList_singleton, List.singleton_append]

/-- The round that ends the loop. -/
theorem uint64ToID_last (rounds : Nat) {u : UInt64} (result : String) (small : u.toNat < 64) :
    uint64ToIDWithin (rounds + 1) u result = some (withDigit u.toNat result) ∧ uint64ToIDLoop u result = withDigit u.toNat result := by
  have low : ¬ 64 ≤ u := fun large => Nat.not_le.2 small (UInt64.le_iff_toNat_le.1 large)
  constructor
  · rw [uint64ToIDWithin, if_neg low, getElem?_digits small]
    rfl
  · rw [uint64ToIDLoop, if_neg low]
    rfl

/-- Any other round. -/
theorem uint64ToID_round (rounds : Nat) {u : UInt64} (result : String) (large : 64 ≤ u.toNat) :
    uint64ToIDWithin (rounds + 1) u result = uint64ToIDWithin rounds (u >>> 6) (withDigit (u.toNat % 64) result) ∧
      uint64ToIDLoop u result = uint64ToIDLoop (u >>> 6) (withDigit (u.toNat % 64) result) := by
  have high : 64 ≤ u := UInt64.le_iff_toNat_le.2 large
  have low := toNat_low u
  constructor
  · rw [uint64ToIDWithin, if_pos high, low, getElem?_digits (Nat.mod_lt _ (by decide)), Option.bind_some]
    rfl
  · rw [uint64ToIDLoop, if_pos high, low]
    rfl

/-- As many rounds as the counter has digits are enough, and they write these digits in
front of what there is. -/
theorem uint64ToIDWithin_eq (rounds : Nat) (u : UInt64) (result : String) (few : u.toNat < 64 ^ (rounds + 1)) :
    uint64ToIDWithin (rounds + 1) u result = some (uint64ToIDLoop u result) ∧
      ∃ digits, NumeralOf 64 u.toNat digits ∧ digits.length ≤ rounds + 1 ∧
        (uint64ToIDLoop u result).toList = digits.map digit ++ result.toList := by
  induction rounds generalizing u result with
  | zero =>
    obtain ⟨within, loop⟩ := uint64ToID_last 0 result few
    rw [within, loop, toList_withDigit]
    exact ⟨rfl, [u.toNat], numeralOf_small few, Nat.le_refl 1, rfl⟩
  | succ rounds ih =>
    by_cases small : u.toNat < 64
    · obtain ⟨within, loop⟩ := uint64ToID_last (rounds + 1) result small
      rw [within, loop, toList_withDigit]
      exact ⟨rfl, [u.toNat], numeralOf_small small, Nat.le_add_left 1 (rounds + 1), rfl⟩
    · have large : 64 ≤ u.toNat := Nat.not_lt.1 small
      have fewer : (u >>> 6).toNat < 64 ^ (rounds + 1) := by
        rw [toNat_high]
        exact Nat.div_lt_of_lt_mul (by rwa [Nat.mul_comm, ← Nat.pow_succ])
      obtain ⟨within, loop⟩ := uint64ToID_round (rounds + 1) result large
      obtain ⟨rest, digits, high, length, text⟩ := ih (u >>> 6) (withDigit (u.toNat % 64) result) fewer
      rw [toNat_high] at high
      rw [within, loop, rest, text, toList_withDigit]
      refine ⟨rfl, digits ++ [u.toNat % 64], high.concat (by decide) large, ?_, ?_⟩
      · rw [List.length_append, List.length_singleton]
        omega
      · rw [List.map_append, List.map_singleton, List.append_assoc, List.singleton_append]

/-- **What an id says.** The loop ends within eleven rounds and stays within `DIGITS`; the
id is the numeral of the counter with a `$`, it reads back, and no other counter has it. -/
structure Encodes (u : UInt64) (id : String) : Prop where
  ends : uint64ToIDWithin 11 u "$" = some id
  numeral : ∃ digits, NumeralOf 64 u.toNat digits ∧ 1 ≤ digits.length ∧ digits.length ≤ 11 ∧ id.toList = digits.map digit ++ ['$']
  readBack : readID id = some u.toNat
  own : ∀ u', uint64ToID u' = id → u' = u

theorem readID_uint64ToID (u : UInt64) : readID (uint64ToID u) = some u.toNat := by
  have few : u.toNat < 64 ^ (10 + 1) := Nat.lt_trans u.toNat_lt (by decide)
  obtain ⟨-, digits, numeral, -, text⟩ := uint64ToIDWithin_eq 10 u "$" few
  rw [uint64ToID, readID_map numeral.small text, numeral.value]

theorem uint64ToID_encodes (u : UInt64) : Encodes u (uint64ToID u) := by
  have few : u.toNat < 64 ^ (10 + 1) := Nat.lt_trans u.toNat_lt (by decide)
  obtain ⟨within, digits, numeral, length, text⟩ := uint64ToIDWithin_eq 10 u "$" few
  refine ⟨within, ⟨digits, numeral, List.length_pos_iff.2 numeral.nonempty, length, text⟩, readID_uint64ToID u, fun u' same => ?_⟩
  have reading := readID_uint64ToID u'
  rw [same, readID_uint64ToID u] at reading
  exact (UInt64.toNat_inj.1 (Option.some.inj reading)).symm

/-- The smallest counter has a digit too, the largest has eleven. -/
example : uint64ToIDWithin 1 0 "$" = some "0$" ∧ uint64ToIDWithin 11 (.ofNat (2 ^ 64 - 1)) "$" = some "f++++++++++$" := by decide

end ProcessRegistry

end Protoactor.Actor
