import Protoactor.Actor.Future.Outcome
import Protoactor.Actor.Registry

/-!
# Futures in the process registry

`NewFuture` with the registry it registers in. The constructor draws an id, makes the PID,
asks for `shared_from_this()` and only then adds itself; while it runs no `shared_ptr` owns
the object, so it throws before the `Add`. The rest is about a future that an owner had
kept alive: it would be found until its first completing call, unless its name was taken.
-/

namespace Protoactor.Actor.FutureImpl
set_option autoImplicit false

variable {U K F P : Type}

/-- A future that has been constructed, with the registry. -/
structure Installed (U K F P : Type) where
  future : FutureImpl U K F
  /-- the thread of the timeout has been started -/
  timer : Bool
  registry : ProcessRegistry P

/-- The constructor: `object` is the one under construction, `ref` the PID that `NewPID` makes, and `timeout`
a number of milliseconds. The answer of `Add` is not looked at. -/
def constructIn (owned : Bool) (object : P) (ref : Nat) (timeout : Int) (r : ProcessRegistry P) :
    Except BadWeakPtr (Installed U K F P) × ProcessRegistry P :=
  let (id, r) := r.nextID
  let pid : PID := ⟨ref, r.address, "future" ++ id⟩
  match sharedFromThis owned with
  | .error e => (.error e, r)
  | .ok _ =>
    let (_, r) := r.add object ("future" ++ id)
    (.ok ⟨created pid [], 0 < timeout, r⟩, r)

/-- `NewFuture`, where the `shared_ptr` comes after the constructor. -/
def newFutureIn (object : P) (ref : Nat) (timeout : Int) (r : ProcessRegistry P) :
    Except BadWeakPtr (Installed U K F P) × ProcessRegistry P := constructIn false object ref timeout r

/-- What a call hands to `ProcessRegistry::Remove`. -/
def removal (f : FutureImpl U K F) (op : Op U K F) : Option PID := if f.done then none else op.pid

namespace Installed

def apply (s : Installed U K F P) (op : Op U K F) : Installed U K F P :=
  { s with future := s.future.apply op, registry := s.registry.remove (removal s.future op) }

def after (s : Installed U K F P) (ops : List (Op U K F)) : Installed U K F P := ops.foldl apply s

/-- `Get` finds the future, and a reply sent to what it finds completes it. -/
structure Answers (object : P) (s : Installed U K F P) : Prop where
  found : s.registry.get (some s.future.pid) = (object, true)
  completed : ∀ message, (s.future.apply (.sendUserMessage (some s.future.pid) message)).done = true

/-- It does so until the first completing call. -/
def StaysReachable (object : P) (s : Installed U K F P) : Prop :=
  ∀ ops, (∀ op ∈ ops, op.completes = false) → (s.after ops).Answers object

end Installed

/-- A future is made, and can be reached as long as it is pending. -/
def PendingReachable (object : P) (outcome : Except BadWeakPtr (Installed U K F P)) : Prop :=
  ∃ s, outcome = .ok s ∧ s.StaysReachable object

/-! ## What happens to the registry -/

/-- `NewFuture` throws, having drawn an id. -/
theorem newFutureIn_eq (object : P) (ref : Nat) (timeout : Int) (r : ProcessRegistry P) :
    (newFutureIn object ref timeout r : Except BadWeakPtr (Installed U K F P) × _) = (.error .thrown, r.nextID.2) := rfl

/-- A call that does not complete the future has nothing to remove. -/
theorem pid_waiting {op : Op U K F} (waits : op.completes = false) : op.pid = none := by
  cases op <;> first | rfl | cases waits

/-- A reply to a pending future ends in `Stop`. -/
theorem reply_completes {f : FutureImpl U K F} (pending : f.done = false) (pid : Option PID) (message : Ptr U K) :
    (f.apply (.sendUserMessage pid message)).registry = remove f.registry pid ∧
    (f.apply (.sendUserMessage pid message)).done = true := by
  have waiting : ¬ f.done = true := by simp [pending]
  show (f.sendUserMessage pid message).registry = _ ∧ (f.sendUserMessage pid message).done = _
  rw [sendUserMessage, if_neg waiting]
  dsimp only
  split
  · exact ⟨(notified_stop pending pid _ _).registry, (notified_stop pending pid _ _).done⟩
  · exact ⟨(notified_stop pending pid _ _).registry, (notified_stop pending pid _ _).done⟩

/-- What a call does to the list of the ids. -/
theorem registry_apply (f : FutureImpl U K F) (op : Op U K F) :
    (f.apply op).registry = remove f.registry (removal f op) := by
  cases done : f.done with
  | true =>
    rw [(frozen_apply done op).registry]
    simp [removal, done, remove]
  | false =>
    have waiting : ¬ f.done = true := by simp [done]
    rw [removal, if_neg waiting]
    cases op with
    | continueWith continuation =>
      rw [apply_pending done rfl]
      rfl
    | pipeTo pids =>
      rw [apply_pending done rfl]
      rfl
    | sendUserMessage pid message => exact (reply_completes done pid message).1
    | sendSystemMessage pid message =>
      show (f.sendSystemMessage pid message).registry = _
      rw [sendSystemMessage, if_neg waiting]
      exact (notified_stop done pid _ _).registry
    | stop pid => exact (notified_stop done pid f.result f.err).registry
    | timeout =>
      rw [apply_timeout done]
      rfl

namespace Installed

/-- What the future takes for registered is registered. -/
def Agrees (s : Installed U K F P) (id : String) : Prop := id ∈ s.future.registry ↔ (s.registry.find id).isSome

theorem agrees_apply {s : Installed U K F P} {id : String} (same : s.Agrees id) (op : Op U K F) :
    (s.apply op).Agrees id := by
  show id ∈ (s.future.apply op).registry ↔ ((s.registry.remove (removal s.future op)).find id).isSome
  rw [registry_apply, mem_remove]
  cases named : removal s.future op with
  | none => simpa [Agrees, ProcessRegistry.remove] using same
  | some pid =>
    rw [ProcessRegistry.find_remove]
    by_cases own : id = pid.id
    · simp [own]
    · have other : ¬ pid.id = id := fun same => own same.symm
      simpa [Agrees, own, other] using same

/-- **The registry and the future agree** on the entry of the future, over every order of calls. -/
theorem agrees_after {s : Installed U K F P} {id : String} (same : s.Agrees id) (ops : List (Op U K F)) :
    (s.after ops).Agrees id := by
  induction ops generalizing s with
  | nil => exact same
  | cons op ops ih => exact ih (agrees_apply same op)

/-- While pending, a future leaves the registry alone. -/
theorem after_pending {s : Installed U K F P} {ops : List (Op U K F)} (pending : s.future.done = false)
    (waits : ∀ op ∈ ops, op.completes = false) :
    (s.after ops).registry = s.registry ∧ (s.after ops).future.pid = s.future.pid ∧ (s.after ops).future.done = false := by
  induction ops generalizing s with
  | nil => exact ⟨rfl, rfl, pending⟩
  | cons op ops ih =>
    have first := apply_pending pending (waits op List.mem_cons_self)
    have nothing : removal s.future op = none := by
      rw [removal, pid_waiting (waits op List.mem_cons_self), ite_self]
    have still : (s.apply op).future.done = false := by
      show (s.future.apply op).done = false
      rw [first]
      exact pending
    obtain ⟨registry, pid, done⟩ := ih still fun op' member => waits op' (List.mem_cons_of_mem op member)
    refine ⟨registry.trans ?_, pid.trans ?_, done⟩
    · show s.registry.remove (removal s.future op) = s.registry
      rw [nothing]
      rfl
    · show (s.future.apply op).pid = s.future.pid
      rw [first]

end Installed

/-! ## Reachability -/

/-- **No future is reachable**: `NewFuture` returns none, whatever is in the registry. -/
theorem newFuture_unreachable (object : P) (ref : Nat) (timeout : Int) (r : ProcessRegistry P) :
    ¬ PendingReachable object (newFutureIn object ref timeout r : Except BadWeakPtr (Installed U K F P) × _).1 := by
  rw [newFutureIn_eq]
  rintro ⟨s, outcome, -⟩
  cases outcome

/-- The first future of a new system. -/
theorem newFuture_throws : ¬ PendingReachable "future"
    (newFutureIn "future" 0 5000 (ProcessRegistry.new "deadletter") :
      Except BadWeakPtr (Installed Unit Unit Unit String) × _).1 := by
  rintro ⟨s, outcome, -⟩
  cases outcome

section Owned

variable {object : P} {r : ProcessRegistry P}

/-- Without the exception the constructor ends with `Add`. -/
theorem constructIn_owned (ref : Nat) (timeout : Int) (r : ProcessRegistry P) :
    (constructIn true object ref timeout r : Except BadWeakPtr (Installed U K F P) × _).1 =
      .ok ⟨created ⟨ref, r.address, "future" ++ r.nextID.1⟩ [], 0 < timeout, (r.nextID.2.add object ("future" ++ r.nextID.1)).2⟩ :=
  rfl

/-- What the name of the future stands for after that `Add`. -/
theorem find_owned (object : P) (r : ProcessRegistry P) (id : String) :
    (r.nextID.2.add object id).2.find id = if r.find id = none then some object else r.find id := by
  have same : r.nextID.2.find id = r.find id := rfl
  rw [(r.nextID.2.add_eq object id).2, same]
  simp

theorem address_add (r : ProcessRegistry P) (object : P) (id : String) : (r.add object id).2.address = r.address := by
  unfold ProcessRegistry.add
  split <;> rfl

/-- **A future that is owned while it is constructed** is reachable exactly when nobody has taken its name. -/
theorem owned_reachable_iff (ref : Nat) (timeout : Int) (new : ∀ id, r.find id ≠ some object) :
    PendingReachable object (constructIn true object ref timeout r : Except BadWeakPtr (Installed U K F P) × _).1 ↔
      r.find ("future" ++ r.nextID.1) = none := by
  have entry := find_owned object r ("future" ++ r.nextID.1)
  have home : r.address = (r.nextID.2.add object ("future" ++ r.nextID.1)).2.address :=
    (address_add r.nextID.2 _ _).symm
  rw [constructIn_owned]
  constructor
  · rintro ⟨s, outcome, reachable⟩
    cases outcome
    have found := (reachable [] fun op member => absurd member List.not_mem_nil).found
    simp only [Installed.after, List.foldl_nil, created] at found
    rw [ProcessRegistry.get_local _ home, entry] at found
    cases taken : r.find ("future" ++ r.nextID.1) with
    | none => rfl
    | some old =>
      simp only [taken, reduceCtorEq, if_false, Prod.mk.injEq, and_true] at found
      exact absurd (found ▸ taken) (new _)
  · intro free
    rw [if_pos free] at entry
    refine ⟨_, rfl, fun ops waits => ?_⟩
    obtain ⟨registry, pid, pending⟩ := Installed.after_pending (s := ⟨created ⟨ref, r.address, "future" ++ r.nextID.1⟩ [],
      decide (0 < timeout), (r.nextID.2.add object ("future" ++ r.nextID.1)).2⟩) rfl waits
    constructor
    case found =>
      rw [registry, pid, ProcessRegistry.get_local _ home]
      simp only [created, entry]
    case completed =>
      intro message
      exact (reply_completes pending _ message).2

end Owned

end Protoactor.Actor.FutureImpl
