import Protoactor.Actor.Registry

/-!
# Whose PID `Remove` is called with

`Get` looks at the address of a PID before it looks the id up; `Remove` looks at the id only. So
it takes a local process away under a PID of another node with the same id (`remove_agrees_iff`).
-/

namespace Protoactor.Actor.ProcessRegistry
set_option autoImplicit false

variable {P : Type} {r : ProcessRegistry P} {p : Option PID}

/-- An address of another node, as `Get` sees it. -/
def Far (r : ProcessRegistry P) (pid : PID) : Prop := pid.address ≠ localAddress ∧ pid.address ≠ r.address

instance (r : ProcessRegistry P) (pid : PID) : Decidable (r.Far pid) := inferInstanceAs (Decidable (_ ∧ _))

/-- The process that `Get` returns from the local table. -/
def owned (r : ProcessRegistry P) : Option PID → Option P
  | none => none
  | some pid => if r.Far pid then none else r.find pid.id

/-- **`Remove` agrees with `Get`**: an answer that it changes was the process that `Get` returns from the
local table for the PID that is removed. -/
def AgreesWithGet (r : ProcessRegistry P) (p : Option PID) : Prop :=
  (∀ q, (r.remove p).get q ≠ r.get q → ∃ process, r.owned p = some process ∧ r.get q = (process, true)) ∧
    ∀ id, (r.remove p).getLocal id ≠ r.getLocal id → ∃ process, r.owned p = some process ∧ r.getLocal id = (process, true)

/-- The PID is not of another node, or no process is registered under its id. -/
def Removable (r : ProcessRegistry P) (p : Option PID) : Prop := ∀ pid, p = some pid → r.Far pid → r.find pid.id = none

theorem getLocal_eq (r : ProcessRegistry P) (id : String) :
    r.getLocal id = ((r.find id).getD r.deadLetter, (r.find id).isSome) := by
  unfold getLocal
  cases r.find id <;> rfl

theorem get_of_far {q : PID} (far : r.Far q) :
    r.get (some q) = match r.remoteHandlers.findSome? (· q) with
      | some process => (process, true)
      | none => (r.deadLetter, false) := if_pos far

theorem get_of_near {q : PID} (near : ¬ r.Far q) : r.get (some q) = r.getLocal q.id := if_neg near

/-- What a removal takes from the answer under an id. -/
theorem getLocal_remove (pid : PID) (id : String) :
    (r.remove (some pid)).getLocal id = if id = pid.id then (r.deadLetter, false) else r.getLocal id := by
  rw [getLocal_eq, find_remove]
  split
  · rfl
  · exact (r.getLocal_eq id).symm

/-- PIDs of other nodes are looked up as before. -/
theorem get_remove (pid q : PID) :
    (r.remove (some pid)).get (some q) = if ¬ r.Far q ∧ q.id = pid.id then (r.deadLetter, false) else r.get (some q) := by
  by_cases far : r.Far q
  · rw [if_neg fun both => both.1 far, get_of_far far]
    exact get_of_far (r := r.remove (some pid)) far
  · have near : ¬ (r.remove (some pid)).Far q := far
    rw [get_of_near near, get_of_near far, getLocal_remove]
    simp only [far, not_false_eq_true, true_and]

/-- An answer that a removal changes. -/
theorem getLocal_changes {pid : PID} {id : String} (changed : (r.remove (some pid)).getLocal id ≠ r.getLocal id) :
    id = pid.id ∧ ∃ process, r.find pid.id = some process ∧ r.getLocal id = (process, true) := by
  rw [getLocal_remove] at changed
  by_cases same : id = pid.id
  · subst same
    refine ⟨rfl, ?_⟩
    rw [if_pos rfl, getLocal_eq] at changed
    cases found : r.find pid.id with
    | none => exact absurd (by rw [found]; rfl) changed
    | some process => exact ⟨process, rfl, by rw [getLocal_eq, found]; rfl⟩
  · exact absurd (by rw [if_neg same]) changed

/-- **Exactly then** does `Remove` agree with `Get`. -/
theorem remove_agrees_iff (r : ProcessRegistry P) (p : Option PID) : AgreesWithGet r p ↔ Removable r p := by
  constructor
  · rintro ⟨-, locals⟩ pid rfl far
    cases found : r.find pid.id with
    | none => rfl
    | some process =>
      have changed : (r.remove (some pid)).getLocal pid.id ≠ r.getLocal pid.id := by
        rw [getLocal_remove, if_pos rfl, getLocal_eq, found]
        exact fun same => Bool.false_ne_true (congrArg Prod.snd same)
      obtain ⟨owner, owned, -⟩ := locals pid.id changed
      rw [ProcessRegistry.owned, if_pos far] at owned
      cases owned
  · intro removable
    cases p with
    | none => exact ⟨fun q changed => absurd rfl changed, fun id changed => absurd rfl changed⟩
    | some pid =>
      have owner : ∀ process, r.find pid.id = some process → r.owned (some pid) = some process := by
        intro process found
        have near : ¬ r.Far pid := fun far => by
          rw [removable pid rfl far] at found
          cases found
        rw [owned, if_neg near, found]
      constructor
      · intro q changed
        cases q with
        | none => exact absurd rfl changed
        | some q =>
          by_cases far : r.Far q
          · rw [get_remove, if_neg fun both => both.1 far] at changed
            exact absurd rfl changed
          · have near : ¬ (r.remove (some pid)).Far q := far
            rw [get_of_near near, get_of_near far] at changed
            obtain ⟨-, process, found, answered⟩ := getLocal_changes changed
            exact ⟨process, owner process found, by rw [get_of_near far, answered]⟩
      · intro id changed
        obtain ⟨-, process, found, answered⟩ := getLocal_changes changed
        exact ⟨process, owner process found, answered⟩

/-- The PID of a future of another node, and the local process that has the same id. -/
theorem remove_disagrees_foreign : ¬ AgreesWithGet ((new 0 : ProcessRegistry Nat).add 7 "1$").2 (some ⟨0, "10.0.0.2:8090", "1$"⟩) := by
  rintro ⟨-, locals⟩
  obtain ⟨process, owned, -⟩ := locals "1$" (by decide)
  cases owned

end Protoactor.Actor.ProcessRegistry
