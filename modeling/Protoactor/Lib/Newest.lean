import Mathlib.Order.Bounds.Basic

/-!
# Slots that keep the greatest

A slot takes what it is offered if that is greater than what it holds. So it holds the greatest of
all that it has been offered (`Newest`), which a set determines: neither the order of the offers
nor their repetition matters (`offers_agree`). `offerAt` is the same with a slot for each key.
-/

namespace Protoactor.Lib
set_option autoImplicit false

variable {K α : Type} [LinearOrder α]

/-- What the slot holds after one more offer. -/
def offer (held : Option α) (a : α) : Option α :=
  match held with
  | none => some a
  | some b => if b < a then some a else some b

/-- The greatest element of the set, if there is one element at all. -/
def Newest (S : Set α) : Option α → Prop
  | none => S = ∅
  | some a => IsGreatest S a

theorem newest_single (held : Option α) : Newest {a | held = some a} held := by
  cases held with
  | none => simp [Newest]
  | some b =>
    have same : {a | some b = some a} = {b} := by
      ext a
      simp [eq_comm]
    rw [same]
    exact isGreatest_singleton

theorem Newest.unique {S : Set α} {held held' : Option α} (one : Newest S held) (other : Newest S held') : held = held' := by
  cases held with
  | none =>
    cases held' with
    | none => rfl
    | some b => exact absurd (one ▸ other.1) (Set.notMem_empty b)
  | some a =>
    cases held' with
    | none => exact absurd (other ▸ one.1) (Set.notMem_empty a)
    | some b => exact congrArg some (IsGreatest.unique one other)

theorem offer_some (b a : α) : offer (some b) a = some (max a b) := by
  simp only [offer]
  rcases lt_or_ge b a with less | le
  · rw [if_pos less, max_eq_left less.le]
  · rw [if_neg le.not_gt, max_eq_right le]

theorem Newest.offer {S : Set α} {held : Option α} (newest : Newest S held) (a : α) : Newest (insert a S) (offer held a) := by
  cases held with
  | none =>
    have empty : S = ∅ := newest
    rw [empty, insert_empty_eq]
    exact isGreatest_singleton
  | some b =>
    rw [offer_some]
    exact IsGreatest.insert a newest

/-- A slot for each key. -/
def offerAt [DecidableEq K] (held : K → Option α) (entry : K × α) : K → Option α :=
  fun k => if entry.1 = k then offer (held k) entry.2 else held k

/-- **Each slot holds the greatest** of what it held and what its key was offered. -/
theorem newest_offers [DecidableEq K] (entries : List (K × α)) (held : K → Option α) (k : K) :
    Newest ({a | held k = some a} ∪ {a | (k, a) ∈ entries}) (entries.foldl offerAt held k) := by
  suffices further : ∀ (S : Set α) (held : K → Option α), Newest S (held k) →
      Newest (S ∪ {a | (k, a) ∈ entries}) (entries.foldl offerAt held k) from further _ held (newest_single (held k))
  induction entries with
  | nil =>
    intro S held newest
    simpa using newest
  | cons entry entries ih =>
    intro S held newest
    by_cases own : entry.1 = k
    · have offered : Newest (insert entry.2 S) (offerAt held entry k) := by
        rw [offerAt, if_pos own]
        exact newest.offer entry.2
      have sets : insert entry.2 S ∪ {a | (k, a) ∈ entries} = S ∪ {a | (k, a) ∈ entry :: entries} := by
        subst own
        ext a
        simp [Prod.ext_iff, or_left_comm, or_assoc]
      exact sets ▸ ih _ _ offered
    · have kept : offerAt held entry k = held k := if_neg own
      have sets : {a | (k, a) ∈ entry :: entries} = {a | (k, a) ∈ entries} := by
        ext a
        simp [Prod.ext_iff, Ne.symm own]
      rw [sets]
      exact ih _ _ (kept ▸ newest)

/-- **The same offers**, in any order and any number of times, end in the same slots. -/
theorem offers_agree [DecidableEq K] {entries entries' : List (K × α)} (held : K → Option α)
    (same : ∀ entry, entry ∈ entries ↔ entry ∈ entries') : entries.foldl offerAt held = entries'.foldl offerAt held := by
  funext k
  have sets : {a | (k, a) ∈ entries} = {a | (k, a) ∈ entries'} := Set.ext fun a => same (k, a)
  exact (sets ▸ newest_offers entries held k).unique (newest_offers entries' held k)

end Protoactor.Lib
