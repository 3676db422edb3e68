import Mathlib.Order.Defs.PartialOrder

/-!
# Windows over a history

A `Window` says which moments are recent, seen from another one. A table with the last moment at
which each key was seen may forget what is not recent any more: as long as the moments come in
order, it answers whether a key was seen recently as the whole history would.
-/

namespace Protoactor.Lib
set_option autoImplicit false

structure Window (T : Type) [Preorder T] where
  /-- `inside now seen`: seen from `now`, `seen` is recent -/
  inside : T → T → Bool
  refresh : ∀ {now seen seen' : T}, seen ≤ seen' → inside now seen = true → inside now seen' = true
  aging : ∀ {now now' seen : T}, now ≤ now' → inside now' seen = true → inside now seen = true

namespace Window

variable {κ T : Type} [Preorder T] (w : Window T)

/-- Drop what is not recent. -/
def forget (now : T) (table : κ → Option T) : κ → Option T := fun key => (table key).filter (w.inside now)

def sight [DecidableEq κ] (key : κ) (now : T) (table : κ → Option T) : κ → Option T :=
  fun k => if k = key then some now else table k

/-- The answer of the table. -/
def recent (now : T) (key : κ) (table : κ → Option T) : Bool := (table key).any (w.inside now)

/-- What the table has of a key is the last moment in its history. -/
def Latest (history : List (κ × T)) (table : κ → Option T) : Prop :=
  ∀ key t, table key = some t → (key, t) ∈ history ∧ ∀ t', (key, t') ∈ history → t' ≤ t

/-- The table has forgotten about the key only what is not recent. -/
def Spent (now : T) (history : List (κ × T)) (table : κ → Option T) (key : κ) : Prop :=
  table key = none → ∀ t, (key, t) ∈ history → w.inside now t = false

variable {w} {now now' : T} {key key' : κ} {history : List (κ × T)} {table : κ → Option T}

/-- **The answer of the table** is that of the history. -/
theorem recent_iff (latest : Latest history table) (spent : w.Spent now history table key) :
    w.recent now key table = true ↔ ∃ t, (key, t) ∈ history ∧ w.inside now t = true := by
  unfold recent
  cases here : table key with
  | none =>
    refine ⟨nofun, fun ⟨t, seen, inside⟩ => ?_⟩
    rw [spent here t seen] at inside
    cases inside
  | some last =>
    obtain ⟨seen, newest⟩ := latest key last here
    exact ⟨fun inside => ⟨last, seen, inside⟩, fun ⟨t, seen', inside⟩ => w.refresh (newest t seen') inside⟩

theorem latest_nil : Latest ([] : List (κ × T)) fun _ => none := nofun

theorem spent_nil : w.Spent now ([] : List (κ × T)) (fun _ => none) key := nofun

theorem latest_forget (latest : Latest history table) : Latest history (w.forget now table) := by
  intro key t kept
  exact latest key t (Option.filter_eq_some_iff.1 kept).1

/-- Dropping what is not recent drops nothing that counts. -/
theorem spent_forget (latest : Latest history table) (spent : w.Spent now history table key) :
    w.Spent now history (w.forget now table) key := by
  intro dropped t seen
  cases here : table key with
  | none => exact spent here t seen
  | some last =>
    simp only [forget, here, Option.filter_some, ite_eq_right_iff, reduceCtorEq, imp_false, Bool.not_eq_true] at dropped
    cases inside : w.inside now t with
    | false => rfl
    | true =>
      have still := w.refresh ((latest key last here).2 t seen) inside
      rw [dropped] at still
      cases still

theorem latest_sight [DecidableEq κ] (latest : Latest history table) (order : ∀ t, (key, t) ∈ history → t ≤ now) :
    Latest (history ++ [(key, now)]) (sight key now table) := by
  intro k t here
  by_cases same : k = key
  · subst same
    obtain rfl : now = t := by simpa [sight] using here
    refine ⟨by simp, fun t' seen => ?_⟩
    rcases List.mem_append.1 seen with earlier | last
    · exact order t' earlier
    · obtain ⟨-, rfl⟩ := Prod.mk.inj (List.mem_singleton.1 last)
      exact le_refl t'
  · obtain ⟨seen, newest⟩ := latest k t (by simpa [sight, same] using here)
    refine ⟨List.mem_append_left _ seen, fun t' seen' => newest t' ?_⟩
    simpa [same] using seen'

theorem spent_sight [DecidableEq κ] (spent : w.Spent now' history table key') :
    w.Spent now' (history ++ [(key, now)]) (sight key now table) key' := by
  intro here t seen
  by_cases same : key' = key
  · simp [sight, same] at here
  · exact spent (by simpa [sight, same] using here) t (by simpa [same] using seen)

theorem spent_aging (later : now ≤ now') (spent : w.Spent now history table key) : w.Spent now' history table key := by
  intro here t seen
  cases inside : w.inside now' t with
  | false => rfl
  | true =>
    have earlier := w.aging later inside
    rw [spent here t seen] at earlier
    cases earlier

end Window

end Protoactor.Lib
