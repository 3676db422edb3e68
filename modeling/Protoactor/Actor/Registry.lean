import Protoactor.Actor.Messages

/-!
# The process registry (`src/actor/process_registry.cpp`)

`ProcessRegistry` with its shards as functions from ids to processes; each operation on a
shard is one critical section. `P` is the type of a non-null `std::shared_ptr<Process>`. A
`std::string` is a `String` with one character for each byte.
-/

namespace Protoactor.Actor
set_option autoImplicit false

/-- `LOCAL_ADDRESS`. -/
def localAddress : String := "nonhost"

/-- `DIGITS`. -/
def DIGITS : String := "0123456789abcdefghijklmnopqrstuvwxyzABCDEFGHIJKLMNOPQRSTUVWXYZ~+"

/-- `DIGITS[i]`. -/
def digit (i : Nat) : Char := DIGITS.toList.getD i '\x00'

/-- `NUM_SHARDS`. -/
def numShards : Nat := 1024

structure ProcessRegistry (P : Type) where
  sequenceId : UInt64
  address : String
  localPids : Nat → String → Option P
  /-- `remote_handlers_`; a handler answers a process or `ok = false` -/
  remoteHandlers : List (PID → Option P)
  /-- `actor_system_->GetDeadLetter()` -/
  deadLetter : P

namespace ProcessRegistry

variable {P : Type}

/-- The constructor, with every shard empty. -/
def new (deadLetter : P) : ProcessRegistry P where
  sequenceId := 0
  address := localAddress
  localPids := fun _ _ => none
  remoteHandlers := []
  deadLetter := deadLetter

/-- The same registry over a larger type of processes. -/
def map {Q : Type} (f : P → Q) (r : ProcessRegistry P) : ProcessRegistry Q where
  sequenceId := r.sequenceId
  address := r.address
  localPids := fun b id => (r.localPids b id).map f
  remoteHandlers := r.remoteHandlers.map fun handler pid => (handler pid).map f
  deadLetter := f r.deadLetter

/-- A `char`, which is signed, as it is added to a `size_t`. -/
def ofChar (c : Char) : UInt64 := if c.toNat < 128 then c.toNat.toUInt64 else c.toNat.toUInt64 - 256

def getBucket (key : String) : Nat := (key.toList.foldl (fun hash c => hash * 31 + ofChar c) (0 : UInt64)).toNat % numShards

/-- The loop of `Uint64ToID` and the digit after it. -/
def uint64ToIDLoop (u : UInt64) (result : String) : String :=
  if 64 ≤ u then uint64ToIDLoop (u >>> 6) (String.singleton (digit (u &&& 0x3f).toNat) ++ result)
  else String.singleton (digit u.toNat) ++ result
termination_by u.toNat
decreasing_by
  rename_i big
  have large : 64 ≤ u.toNat := UInt64.le_iff_toNat_le.1 big
  have shifted : (u >>> 6).toNat = u.toNat / 64 := by
    rw [UInt64.toNat_shiftRight, Nat.shiftRight_eq_div_pow]
    rfl
  omega

/-- `Uint64ToID`: the digits and a `$`. -/
def uint64ToID (u : UInt64) : String := uint64ToIDLoop u "$"

/-- `NextID`: the id that is drawn, and the registry after. -/
def nextID (r : ProcessRegistry P) : String × ProcessRegistry P :=
  let counter := r.sequenceId + 1
  (uint64ToID counter, { r with sequenceId := counter })

/-- What a shard has under an id. -/
def find (r : ProcessRegistry P) (id : String) : Option P := r.localPids (getBucket id) id

/-- One entry of one shard. -/
def write (r : ProcessRegistry P) (id : String) (entry : Option P) : ProcessRegistry P :=
  { r with localPids := fun b k => if b = getBucket id ∧ k = id then entry else r.localPids b k }

/-- `Add`: whether the process was added, and the registry after; the PID that is
returned has the address of the registry and this id in both cases. -/
def add (r : ProcessRegistry P) (process : P) (id : String) : Bool × ProcessRegistry P :=
  match r.find id with
  | some _ => (false, r)
  | none => (true, r.write id (some process))

def remove (r : ProcessRegistry P) : Option PID → ProcessRegistry P
  | none => r
  | some pid => r.write pid.id none

/-- `Clear`, shard by shard. -/
def clear (r : ProcessRegistry P) : ProcessRegistry P := { r with localPids := fun _ _ => none }

/-- `GetLocal`. -/
def getLocal (r : ProcessRegistry P) (id : String) : P × Bool :=
  match r.find id with
  | none => (r.deadLetter, false)
  | some process => (process, true)

def get (r : ProcessRegistry P) : Option PID → P × Bool
  | none => (r.deadLetter, false)
  | some pid =>
    if pid.address ≠ localAddress ∧ pid.address ≠ r.address then
      match r.remoteHandlers.findSome? (· pid) with
      | some process => (process, true)
      | none => (r.deadLetter, false)
    else r.getLocal pid.id

/-! ## Entries -/

theorem find_write (r : ProcessRegistry P) (id key : String) (entry : Option P) :
    (r.write id entry).find key = if key = id then entry else r.find key := by
  by_cases same : key = id
  · simp [find, write, same]
  · simp [find, write, same]

@[simp] theorem find_new (deadLetter : P) (id : String) : (new deadLetter).find id = none := rfl

/-- `Add` succeeds exactly on a free name, and never changes another name's entry. -/
theorem add_eq (r : ProcessRegistry P) (process : P) (id : String) :
    (r.add process id).1 = (r.find id).isNone ∧
    ∀ key, (r.add process id).2.find key = if key = id ∧ r.find id = none then some process else r.find key := by
  unfold add
  split
  · rename_i old taken
    exact ⟨by simp [taken], fun key => by simp [taken]⟩
  · rename_i free
    refine ⟨by simp [free], fun key => ?_⟩
    rw [find_write]
    simp [free]

@[simp] theorem add_deadLetter (r : ProcessRegistry P) (process : P) (id : String) :
    (r.add process id).2.deadLetter = r.deadLetter := by
  unfold add
  split <;> rfl

theorem find_remove (r : ProcessRegistry P) (pid : PID) (key : String) :
    (r.remove (some pid)).find key = if key = pid.id then none else r.find key := r.find_write pid.id key none

/-- `Get` of a local PID answers the entry under its id, or the dead letter process. -/
theorem get_local (r : ProcessRegistry P) {pid : PID} (home : pid.address = r.address) :
    r.get (some pid) = match r.find pid.id with
      | none => (r.deadLetter, false)
      | some process => (process, true) := by
  simp only [get, home, ne_eq, not_true_eq_false, and_false, if_false, getLocal]

/-- Without an entry or an answer of a handler, `Get` hands out the dead letter process. -/
theorem get_unknown {r : ProcessRegistry P} {pid : Option PID} (unknown : (r.get pid).2 = false) :
    (r.get pid).1 = r.deadLetter := by
  cases pid with
  | none => rfl
  | some pid =>
    by_cases far : pid.address ≠ localAddress ∧ pid.address ≠ r.address
    · rw [get, if_pos far] at unknown ⊢
      split at unknown
      · cases unknown
      · rfl
    · rw [get, if_neg far, getLocal] at unknown ⊢
      split at unknown
      · rfl
      · cases unknown

end ProcessRegistry

end Protoactor.Actor
