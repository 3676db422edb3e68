import Mathlib.Order.Lattice

/-!
# One slot for many versions

A log of versions, each with an index, and of cuts, each of which deletes the versions up to an
index. What such a log answers is the last version that no later cut reaches (`survivor`). A store
that holds one version only (`slot`) answers the same as long as the indices of the versions do not
decrease (`slot_eq_survivor`): a cut that reaches the last version then reaches all earlier ones.
-/

namespace Protoactor.Lib.Versions
set_option autoImplicit false

variable {I V : Type} [LinearOrder I]

inductive Entry (I V : Type) where
  | put (index : I) (value : V)
  | cut (upTo : I)
  deriving DecidableEq, Repr

/-- A cut that deletes the version with the index. -/
def Entry.reaches (index : I) : Entry I V → Bool
  | .put _ _ => false
  | .cut upTo => decide (index ≤ upTo)

/-- No cut of the log reaches the index. -/
def spares (log : List (Entry I V)) (index : I) : Bool := log.all fun entry => !entry.reaches index

/-- The last version of the log that no later cut reaches. -/
def survivor : List (Entry I V) → Option (I × V)
  | [] => none
  | .put index value :: later => (survivor later).or (if spares later index then some (index, value) else none)
  | .cut _ :: later => survivor later

/-- The indices of the versions. -/
def indices (log : List (Entry I V)) : List I :=
  log.filterMap fun
    | .put index _ => some index
    | .cut _ => none

/-- One step of a store that holds one version. -/
def hold (held : Option (I × V)) : Entry I V → Option (I × V)
  | .put index value => some (index, value)
  | .cut upTo => held.filter fun version => upTo < version.1

def slot (log : List (Entry I V)) : Option (I × V) := log.foldl hold none

/-- Where nothing survives, every version has been reached, and with it every lower index. -/
theorem not_spares_of_survivor {log : List (Entry I V)} (nothing : survivor log = none) {low index : I} (member : index ∈ indices log)
    (le : low ≤ index) : spares log low = false := by
  induction log with
  | nil => cases member
  | cons entry later ih =>
    cases entry with
    | put first value =>
      rw [survivor, Option.or_eq_none_iff] at nothing
      obtain ⟨rest, reached⟩ := nothing
      have cut : spares later first = false := by
        cases spared : spares later first with
        | false => rfl
        | true => simp [spared] at reached
      have lower : spares later low = false := by
        rcases List.mem_cons.1 (show index ∈ first :: indices later from member) with rfl | older
        · simp only [spares, List.all_eq_false, Bool.not_eq_true, Bool.not_eq_false'] at cut ⊢
          obtain ⟨entry, inside, reaches⟩ := cut
          refine ⟨entry, inside, ?_⟩
          cases entry with
          | put _ _ => cases reaches
          | cut upTo => exact decide_eq_true (le_trans le (of_decide_eq_true reaches))
        · exact ih rest older
      simpa [spares, Entry.reaches] using lower
    | cut upTo =>
      have lower := ih nothing member
      rw [spares, List.all_cons]
      exact Bool.and_eq_false_imp.2 fun _ => lower

/-- A store that begins with a version of an index that is not above the others. -/
theorem foldl_hold (log : List (Entry I V)) (sorted : (indices log).Pairwise (· ≤ ·)) (held : Option (I × V))
    (below : ∀ version, held = some version → ∀ index ∈ indices log, version.1 ≤ index) :
    log.foldl hold held = (survivor log).or (held.filter fun version => spares log version.1) := by
  induction log generalizing held with
  | nil => cases held <;> rfl
  | cons entry later ih =>
    cases entry with
    | put index value =>
      obtain ⟨first, rest⟩ := List.pairwise_cons.1 (show (index :: indices later).Pairwise (· ≤ ·) from sorted)
      rw [List.foldl_cons, hold, ih rest _ (fun version same => by cases same; exact first)]
      have own : ((survivor later).or (Option.filter (fun version : I × V => spares later version.1) (some (index, value)))) =
          survivor (.put index value :: later) := by
        rw [Option.filter_some]
        rfl
      rw [own]
      cases alive : survivor (.put index value :: later) with
      | some version => rw [Option.some_or]
      | none =>
        rw [Option.none_or]
        cases held with
        | none => rfl
        | some version =>
          have gone := not_spares_of_survivor alive (List.mem_cons_self : index ∈ index :: indices later)
            (below version rfl index List.mem_cons_self)
          rw [Option.filter_some, gone]
          rfl
    | cut upTo =>
      have kept : ∀ version, hold held (.cut upTo) = some version → held = some version :=
        fun version same => (Option.filter_eq_some_iff.1 same).1
      rw [List.foldl_cons, ih sorted _ fun version same => below version (kept version same), survivor]
      congr 1
      cases held with
      | none => rfl
      | some version =>
        simp only [hold, Option.filter_filter, spares, List.all_cons, Entry.reaches]
        congr 1
        funext version
        simp [← not_le]

/-- **One slot is enough** for versions whose indices do not decrease. -/
theorem slot_eq_survivor {log : List (Entry I V)} (sorted : (indices log).Pairwise (· ≤ ·)) : slot log = survivor log := by
  rw [slot, foldl_hold log sorted none nofun]
  cases survivor log <;> rfl

end Protoactor.Lib.Versions
