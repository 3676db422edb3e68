import Mathlib.Data.Nat.Digits.Lemmas

/-!
# Positional numerals

`numeral letter base n` writes `n`, most significant digit first and without leading zeros,
in an alphabet of `base` letters. A numeral that follows some other text can be told
apart from that text only if its length is known: `append_numeral_inj` says which other
text and number give the same letters. `NumeralOf` says which digits are a numeral, zero
included, and leaves out how they are found.
-/

namespace Protoactor.Lib
set_option autoImplicit false

variable {α : Type} {letter : Nat → α} {base m n : Nat} {p q : List α}

def numeral (letter : Nat → α) (base n : Nat) : List α := (base.digits n).reverse.map letter

/-- Different digits have different letters. -/
def Distinct (letter : Nat → α) (base : Nat) : Prop := ∀ i < base, ∀ j < base, letter i = letter j → i = j

@[simp] theorem length_numeral : (numeral letter base n).length = (base.digits n).length := by
  simp [numeral]

/-- The number of digits of `n`. -/
def size (base n : Nat) : Nat := (base.digits n).length

/-- The digits of `m` end those of `n` exactly when they are the low ones. -/
theorem numeral_split (big : 1 < base) (low : n % base ^ size base m = m) :
    numeral letter base n = numeral letter base (n / base ^ size base m) ++ numeral letter base m := by
  have whole : m + base ^ size base m * (n / base ^ size base m) = n := by
    have parts := Nat.mod_add_div n (base ^ size base m)
    rwa [low] at parts
  have digits := Nat.digits_append_digits (m := n / base ^ size base m) (n := m) (Nat.lt_trans Nat.zero_lt_one big)
  rw [← size, whole] at digits
  simp only [numeral, ← digits, List.reverse_append, List.map_append]

/-- One letter after the other, from the digits of a number. -/
theorem digits_of_map (distinct : Distinct letter base) {l l' : List Nat} (small : ∀ d ∈ l, d < base)
    (small' : ∀ d ∈ l', d < base) (same : l.map letter = l'.map letter) : l = l' := by
  induction l generalizing l' with
  | nil =>
    cases l' with
    | nil => rfl
    | cons d' l' => cases same
  | cons d l ih =>
    cases l' with
    | nil => cases same
    | cons d' l' =>
      rw [List.map_cons, List.map_cons, List.cons.injEq] at same
      have first := distinct d (small d List.mem_cons_self) d' (small' d' List.mem_cons_self) same.1
      have rest := ih (fun e member => small e (List.mem_cons_of_mem _ member))
        (fun e member => small' e (List.mem_cons_of_mem _ member)) same.2
      rw [first, rest]

/-- **Text and numeral.** The longer numeral swallows the end of the other text. -/
theorem append_numeral_inj (big : 1 < base) (distinct : Distinct letter base) (order : m ≤ n) :
    p ++ numeral letter base m = q ++ numeral letter base n ↔
      n % base ^ size base m = m ∧ p = q ++ numeral letter base (n / base ^ size base m) := by
  constructor
  · intro same
    have shorter : size base m ≤ size base n := Nat.le_length_digits_le base m n order
    -- the last `size base m` letters of the longer numeral
    have split : numeral letter base n = ((base.digits n).drop (size base m)).reverse.map letter ++
        ((base.digits n).take (size base m)).reverse.map letter := by
      rw [← List.map_append, ← List.reverse_append, List.take_append_drop, numeral]
    rw [split, ← List.append_assoc] at same
    obtain ⟨front, back⟩ := List.append_inj' same (by simp [size] at shorter ⊢; omega)
    have small : ∀ k, ∀ d ∈ base.digits k, d < base := fun k d member => Nat.digits_lt_base big member
    have low : base.digits m = (base.digits n).take (size base m) := by
      apply List.reverse_injective
      refine digits_of_map distinct ?_ ?_ back
      · simpa using small m
      · intro d member
        exact small n d (List.mem_of_mem_take (List.mem_reverse.1 member))
    have value : n % base ^ size base m = m := by
      have rest := Nat.self_mod_pow_eq_ofDigits_take (size base m) n big
      rw [rest, ← low, Nat.ofDigits_digits]
    refine ⟨value, ?_⟩
    have again : numeral letter base n = _ ++ _ := numeral_split big value
    rw [split] at again
    rw [front, (List.append_inj' again (by simp [size] at shorter ⊢; omega)).1]
  · rintro ⟨low, rfl⟩
    rw [numeral_split big low, List.append_assoc]

/-! ## Digits and their value -/

variable {digits : List Nat}

/-- The value of digits that follow those of `n`. -/
def valueAfter (base n : Nat) (digits : List Nat) : Nat := digits.foldl (fun n d => n * base + d) n

/-- **The numeral of a number**: its digits, most significant first, with no leading zero;
the numeral of 0 has one digit. -/
structure NumeralOf (base n : Nat) (digits : List Nat) : Prop where
  nonempty : digits ≠ []
  small : ∀ d ∈ digits, d < base
  leading : digits.head? = some 0 → digits = [0]
  value : valueAfter base 0 digits = n

theorem numeralOf_small (small : n < base) : NumeralOf base n [n] where
  nonempty := List.cons_ne_nil n []
  small d member := List.mem_singleton.1 member ▸ small
  leading zero := congrArg (fun n => [n]) (Option.some.inj zero)
  value := by simp [valueAfter]

/-- One more digit at the end. -/
theorem NumeralOf.concat (high : NumeralOf base (n / base) digits) (positive : 0 < base) (large : base ≤ n) :
    NumeralOf base n (digits ++ [n % base]) where
  nonempty := List.append_ne_nil_of_left_ne_nil high.nonempty _
  small d member := by
    rcases List.mem_append.1 member with old | new
    · exact high.small d old
    · rw [List.mem_singleton.1 new]
      exact Nat.mod_lt n positive
  leading zero := by
    rw [List.head?_append_of_ne_nil _ high.nonempty] at zero
    have none := high.value
    rw [high.leading zero, valueAfter, List.foldl_cons, List.foldl_nil, Nat.zero_mul] at none
    have some : 0 < n / base := Nat.div_pos large positive
    omega
  value := by
    have above := high.value
    rw [valueAfter] at above ⊢
    rw [List.foldl_append, above, List.foldl_cons, List.foldl_nil, Nat.mul_comm]
    exact Nat.div_add_mod n base

end Protoactor.Lib
