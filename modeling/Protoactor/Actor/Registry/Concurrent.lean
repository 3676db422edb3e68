import Protoactor.Actor.Registry
import Protoactor.Lib.Machine
import Protoactor.Lib.Linearizable

/-!
# The registry under concurrent calls

Any number of threads call `Add`, `Remove`, `Get` and `GetLocal`. A call that has an id to
look up takes the mutex of the shard of that id, looks the id up, does the rest of its
section and gives the mutex back as it returns; threads in different shards are in their
sections at the same time. `history` and `order` are auxiliary: the calls and answers, and
the operations in the order of the ends of their sections.
-/

namespace Protoactor.Actor
set_option autoImplicit false
open Lib

namespace ProcessRegistry

/-- A call of a public method; `get` is `Get`, which takes PIDs of every address. -/
inductive Call (P : Type) where
  | add (process : P) (id : String)
  | remove (pid : Option PID)
  | get (pid : Option PID)
  | getLocal (id : String)
  deriving DecidableEq, Repr

inductive Answer (P : Type) where
  /-- the PID that `Add` makes, and whether the process was added -/
  | added (address id : String) (ok : Bool)
  | removed
  | found (process : P) (ok : Bool)
  deriving DecidableEq, Repr

end ProcessRegistry

open ProcessRegistry (Call Answer)

variable {P : Type}

/-! ## The abstract registry -/

/-- A finite map from ids to processes. -/
structure IdMap (P : Type) where
  find : String → Option P
  finite : ∃ ids : List String, ∀ id, find id ≠ none → id ∈ ids

namespace IdMap

def empty : IdMap P := ⟨fun _ => none, [], fun _ present => absurd rfl present⟩

def insert (m : IdMap P) (id : String) (process : P) : IdMap P where
  find := fun key => if key = id then some process else m.find key
  finite := by
    obtain ⟨ids, all⟩ := m.finite
    refine ⟨id :: ids, fun key present => ?_⟩
    by_cases same : key = id
    · exact same ▸ List.mem_cons_self
    · rw [if_neg same] at present
      exact List.mem_cons_of_mem _ (all key present)

def erase (m : IdMap P) (id : String) : IdMap P where
  find := fun key => if key = id then none else m.find key
  finite := by
    obtain ⟨ids, all⟩ := m.finite
    refine ⟨ids, fun key present => ?_⟩
    by_cases same : key = id
    · rw [if_pos same] at present
      exact absurd rfl present
    · rw [if_neg same] at present
      exact all key present

def lookup (m : IdMap P) (deadLetter : P) (id : String) : Answer P :=
  match m.find id with
  | some process => .found process true
  | none => .found deadLetter false

/-- The registry as a sequential object: `Add` succeeds exactly on an absent id. -/
def apply (deadLetter : P) (address : String) : Spec (IdMap P) (Call P) (Answer P) := fun m call =>
  match call with
  | .add process id =>
    match m.find id with
    | some _ => (.added address id false, m)
    | none => (.added address id true, m.insert id process)
  | .remove none => (.removed, m)
  | .remove (some pid) => (.removed, m.erase pid.id)
  | .get none => (.found deadLetter false, m)
  | .get (some pid) => (m.lookup deadLetter pid.id, m)
  | .getLocal id => (m.lookup deadLetter id, m)

/-- The shards hold the map: each id is kept in its own bucket. -/
def Represents (m : IdMap P) (r : ProcessRegistry P) : Prop := ∀ id, m.find id = r.find id

end IdMap

namespace ProcessRegistry

/-- `Get` does not ask the remote handlers about this PID. -/
def home (address : String) (pid : PID) : Bool := ¬ (pid.address ≠ localAddress ∧ pid.address ≠ address)

/-- A whole call on the sharded registry. -/
def perform (r : ProcessRegistry P) : Call P → Answer P × ProcessRegistry P
  | .add process id => (.added r.address id (r.add process id).1, (r.add process id).2)
  | .remove pid => (.removed, r.remove pid)
  | .get pid => (.found (r.get pid).1 (r.get pid).2, r)
  | .getLocal id => (.found (r.getLocal id).1 (r.getLocal id).2, r)

/-- The id whose shard a call locks; without one it returns before the lock. -/
def key (address : String) : Call P → Option String
  | .add _ id => some id
  | .remove pid => pid.map PID.id
  | .get none => none
  | .get (some pid) => if home address pid then some pid.id else none
  | .getLocal id => some id

/-- The rest of a section once `find` has answered. -/
def finish (r : ProcessRegistry P) (entry : Option P) : Call P → Answer P × ProcessRegistry P
  | .add process id =>
    match entry with
    | some _ => (.added r.address id false, r)
    | none => (.added r.address id true, r.write id (some process))
  | .remove none => (.removed, r)
  | .remove (some pid) => (.removed, r.write pid.id none)
  | .get _ | .getLocal _ =>
    match entry with
    | some process => (.found process true, r)
    | none => (.found r.deadLetter false, r)

namespace Concurrent

/-- Where a thread is. -/
inductive Phase (P : Type) where
  | idle
  /-- it has made a call and not locked anything -/
  | called (ticket : Nat) (call : Call P)
  /-- it has the mutex of its shard -/
  | locked (ticket : Nat) (call : Call P)
  | looked (ticket : Nat) (call : Call P) (entry : Option P)
  /-- its section is done, the mutex still held -/
  | leaving (ticket : Nat) (call : Call P) (answer : Answer P)
  deriving DecidableEq, Repr

namespace Phase

def ticket : Phase P → Option Nat
  | .idle => none
  | .called n _ | .locked n _ | .looked n _ _ | .leaving n _ _ => some n

/-- The shard whose mutex the thread holds. -/
def holds (address : String) : Phase P → Option Nat
  | .idle | .called _ _ => none
  | .locked _ call | .looked _ call _ | .leaving _ call _ => (key address call).map getBucket

end Phase

structure State (P : Type) where
  registry : ProcessRegistry P
  /-- `shard_mutexes_`, with the thread that holds each -/
  mutexes : Nat → Option Nat
  threads : Nat → Phase P
  next : Nat
  history : List (Event (Call P) (Answer P))
  order : List (Operation (Call P) (Answer P))

def start (r : ProcessRegistry P) : State P where
  registry := r
  mutexes := fun _ => none
  threads := fun _ => .idle
  next := 0
  history := []
  order := []

/-- A step of the `i`-th thread. -/
inductive Label (P : Type) where
  | invoke (i : Nat) (call : Call P)
  /-- takes the mutex, or returns early -/
  | lock (i : Nat)
  | look (i : Nat)
  | finish (i : Nat)
  /-- gives the mutex back and returns -/
  | respond (i : Nat)
  deriving DecidableEq, Repr

def State.put (s : State P) (i : Nat) (phase : Phase P) : State P :=
  { s with threads := fun j => if j = i then phase else s.threads j }

/-- The mutex of a shard has a new holder, or none. -/
def State.hold (s : State P) (bucket : Nat) (holder : Option Nat) : State P :=
  { s with mutexes := fun b => if b = bucket then holder else s.mutexes b }

def step : Machine (State P) (Label P) := fun s l =>
  match l with
  | .invoke i call =>
    match s.threads i with
    | .idle => some { s.put i (.called s.next call) with
        next := s.next + 1
        history := s.history ++ [.invoke s.next i call] }
    | _ => none
  | .lock i =>
    match s.threads i with
    | .called n call =>
      match key s.registry.address call with
      | none =>
        let answer := (s.registry.perform call).1
        some { s.put i (.leaving n call answer) with order := s.order ++ [⟨n, i, call, answer⟩] }
      | some id =>
        match s.mutexes (getBucket id) with
        | none => some ((s.hold (getBucket id) (some i)).put i (.locked n call))
        | some _ => none
    | _ => none
  | .look i =>
    match s.threads i with
    | .locked n call => (key s.registry.address call).map fun id => s.put i (.looked n call (s.registry.find id))
    | _ => none
  | .finish i =>
    match s.threads i with
    | .looked n call entry =>
      let (answer, registry) := s.registry.finish entry call
      some { s.put i (.leaving n call answer) with registry := registry, order := s.order ++ [⟨n, i, call, answer⟩] }
    | _ => none
  | .respond i =>
    match s.threads i with
    | .leaving n call answer =>
      let s' := match key s.registry.address call with
        | some id => s.hold (getBucket id) none
        | none => s
      some { s'.put i .idle with history := s.history ++ [.respond n i answer] }
    | _ => none

/-- The call is not a `Get` of a remote PID. -/
def Local (address : String) : Call P → Prop
  | .get (some pid) => home address pid = true
  | _ => True

/-- `Get` is called with local addresses. -/
def LocalGets (s : State P) : Label P → Prop
  | .invoke _ call => Local s.registry.address call
  | _ => True

/-! ## One section -/

section Section

variable {r : ProcessRegistry P} {m : IdMap P}

theorem get_home {pid : PID} (near : home r.address pid = true) : r.get (some pid) = r.getLocal pid.id := by
  rw [home, decide_eq_true_eq] at near
  rw [get, if_neg near]

/-- A section that looked its id up does the whole call. -/
theorem finish_eq {call : Call P} {id : String} (keyed : key r.address call = some id) :
    r.finish (r.find id) call = r.perform call := by
  cases call with
  | add process id' =>
    cases keyed
    cases entry : r.find id <;> simp [finish, perform, add, entry]
  | remove pid =>
    cases pid with
    | none => cases keyed
    | some pid => rfl
  | get pid =>
    cases pid with
    | none => cases keyed
    | some pid =>
      rw [key] at keyed
      split at keyed
      · rename_i near
        cases keyed
        rw [perform, get_home near]
        cases entry : r.find pid.id <;> simp [finish, getLocal, entry]
      · cases keyed
  | getLocal id' =>
    cases keyed
    cases entry : r.find id <;> simp [finish, perform, getLocal, entry]

/-- A call that locks nothing changes nothing. -/
theorem perform_keyless {call : Call P} (keyless : key r.address call = none) : (r.perform call).2 = r := by
  cases call with
  | add process id => cases keyless
  | remove pid =>
    cases pid with
    | none => rfl
    | some pid => cases keyless
  | get pid => rfl
  | getLocal id => rfl

/-- A call changes at most the entry of its id. -/
theorem perform_frame {call : Call P} {id other : String} (keyed : key r.address call = some id) (different : other ≠ id) :
    (r.perform call).2.find other = r.find other := by
  cases call with
  | add process id' =>
    cases keyed
    rw [perform, (r.add_eq process id).2, if_neg fun both => different both.1]
  | remove pid =>
    cases pid with
    | none => cases keyed
    | some pid =>
      cases keyed
      rw [perform, find_remove, if_neg different]
  | get pid => rfl
  | getLocal id' => rfl

/-- The members beside the shards stay. -/
theorem perform_constant (r : ProcessRegistry P) (call : Call P) :
    (r.perform call).2.address = r.address ∧ (r.perform call).2.deadLetter = r.deadLetter := by
  cases call with
  | add process id =>
    rw [perform]
    unfold add
    split <;> exact ⟨rfl, rfl⟩
  | remove pid => cases pid <;> exact ⟨rfl, rfl⟩
  | get pid => exact ⟨rfl, rfl⟩
  | getLocal id => exact ⟨rfl, rfl⟩

theorem lookup_represented (same : m.Represents r) (id : String) :
    m.lookup r.deadLetter id = .found (r.getLocal id).1 (r.getLocal id).2 := by
  cases entry : r.find id <;> simp [IdMap.lookup, getLocal, same id, entry]

/-- **The shards refine the map**: a call gets the answer of the one map and keeps the two alike. -/
theorem perform_refines {call : Call P} (same : m.Represents r) (near : Local r.address call) :
    (IdMap.apply r.deadLetter r.address m call).1 = (r.perform call).1 ∧
    (IdMap.apply r.deadLetter r.address m call).2.Represents (r.perform call).2 := by
  cases call with
  | add process id =>
    cases entry : r.find id with
    | some old => simp [IdMap.apply, perform, add, same id, entry, same]
    | none =>
      simp only [IdMap.apply, perform, add, same id, entry, true_and]
      intro key
      rw [find_write, ← same key]
      rfl
  | remove pid =>
    cases pid with
    | none => exact ⟨rfl, same⟩
    | some pid =>
      refine ⟨rfl, fun key => ?_⟩
      rw [perform, find_remove, ← same key]
      rfl
  | get pid =>
    cases pid with
    | none => exact ⟨rfl, same⟩
    | some pid =>
      refine ⟨?_, same⟩
      rw [perform, get_home near]
      exact lookup_represented same pid.id
  | getLocal id => exact ⟨lookup_represented same id, same⟩

end Section

end Concurrent

end ProcessRegistry

end Protoactor.Actor
