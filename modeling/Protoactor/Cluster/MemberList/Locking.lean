import Protoactor.Lib.Machine
import Protoactor.Cluster.MemberList

/-!
# The mutex of the member list (`src/cluster/member_list.cpp`, `src/actor/eventstream.cpp`)

`UpdateTopology` publishes while its lock guard holds `mutex_`, a lock that its owner cannot take
again, and `Publish` calls the subscribers on the same thread. Predicates and handlers are code of
others that runs inside the call: a label says what it does next, so the runs cover whatever it
does. Any number of threads call the list; each has a stack of what it is inside of.

The mutex of the event stream is held while the subscriptions are copied or changed. No code of
others runs then, so each of these is one step.
-/

namespace Protoactor.Cluster.MemberList.Locking
set_option autoImplicit false
open Lib

/-- What is done under `mutex_`. -/
inductive Op where
  | getMembers
  | getMember (memberId : String)
  | updateTopology (topology : ClusterTopology)
  deriving DecidableEq, Repr

/-- An entry of `subscriptions_`. -/
structure Subscriber where
  hasPredicate : Bool
  deriving DecidableEq, Repr

/-- What a thread is inside of. -/
inductive Frame where
  /-- the constructor of the lock guard -/
  | lock (op : Op)
  /-- the statements after it -/
  | body (op : Op)
  /-- the destructor of the lock guard, with the topology of `UpdateTopology` -/
  | unlock (topology : Option ClusterTopology)
  /-- the loop of `Publish`, with the subscribers that it has not come to -/
  | publish (subs : List Subscriber)
  /-- the loop while it calls a predicate -/
  | predicate (subs : List Subscriber)
  | handler
  deriving DecidableEq, Repr

/-- A predicate or a handler runs on top of the stack. -/
def Frame.code : Frame → Bool
  | .predicate _ | .handler => true
  | _ => false

inductive Call where
  | getMembers
  | getMember (memberId : String)
  | updateTopology (topology : Option ClusterTopology)
  /-- `Publish` of any other event; also a `GossipUpdate`, which the list's own handler then takes -/
  | publish
  deriving DecidableEq, Repr

/-- The lock guard that the call begins with; `UpdateTopology` of null returns before it. -/
def Call.op : Call → Option Op
  | .getMembers => some .getMembers
  | .getMember memberId => some (.getMember memberId)
  | .updateTopology topology => topology.map .updateTopology
  | .publish => none

/-- What a call puts on the stack. -/
def Call.frames (subscribers : List Subscriber) (call : Call) : List Frame :=
  match call with
  | .publish => [.publish subscribers]
  | call => call.op.toList.map .lock

inductive Answer where
  | members (members : List Member)
  | member (member : Option Member)
  deriving DecidableEq, Repr

structure State where
  list : MemberList
  /-- the thread that holds `mutex_` -/
  owner : Option Nat
  subscribers : List Subscriber
  threads : Nat → List Frame
  /-- auxiliary: what `GetMembers` and `GetMember` have returned, and where -/
  answers : List (Nat × Answer)

/-- Nobody at work. -/
def start (members : List Member) (subscribers : List Subscriber) : State := ⟨⟨members⟩, none, subscribers, fun _ => [], []⟩

inductive Label where
  /-- anybody subscribes or unsubscribes -/
  | subscribers (subscribers : List Subscriber)
  /-- a call of a thread, from the code on top of its stack if there is one -/
  | call (i : Nat) (call : Call)
  /-- the next step of the list or of the event stream -/
  | run (i : Nat)
  /-- a predicate returns -/
  | answer (i : Nat) (accepts : Bool)
  /-- a handler returns -/
  | finish (i : Nat)
  /-- a predicate or a handler throws -/
  | throw (i : Nat)
  deriving DecidableEq, Repr

/-- The thread that acts. -/
def Label.actor : Label → Option Nat
  | .subscribers _ => none
  | .call i _ | .run i | .answer i _ | .finish i | .throw i => some i

def Label.calls : Label → Bool
  | .call _ _ => true
  | _ => false

/-- What an exception leaves: the next code below may catch it. -/
def unwind (stack : List Frame) : List Frame := stack.dropWhile fun frame => !frame.code

/-- The exception passes a lock guard. -/
def unlocks (stack : List Frame) : Bool :=
  (stack.takeWhile fun frame => !frame.code).any fun frame =>
    match frame with
    | .unlock _ => true
    | _ => false

namespace State

def put (i : Nat) (stack : List Frame) (s : State) : State := { s with threads := fun j => if j = i then stack else s.threads j }

/-- The statements after the lock guard, up to the first call of a subscriber. -/
def body (i : Nat) (below : List Frame) (s : State) : Op → State
  | .getMembers => { s with answers := s.answers ++ [(i, Answer.members s.list.members)] }.put i (.unlock none :: below)
  | .getMember memberId => { s with answers := s.answers ++ [(i, Answer.member (s.list.getMember memberId))] }.put i (.unlock none :: below)
  | .updateTopology topology =>
    { s with list := (s.list.updateTopology (some topology)).2 }.put i (.publish s.subscribers :: .unlock (some topology) :: below)

/-- The step of the frame on top of thread `i`; the mutex is not recursive. -/
def run (i : Nat) (frame : Frame) (below : List Frame) (s : State) : Option State :=
  match frame with
  | .lock op => if s.owner.isSome then none else some ({ s with owner := some i }.put i (.body op :: below))
  | .body op => some (s.body i below op)
  | .unlock _ => some ({ s with owner := none }.put i below)
  | .publish [] => some (s.put i below)
  | .publish (sub :: subs) =>
    if sub.hasPredicate then some (s.put i (.predicate subs :: below)) else some (s.put i (.handler :: .publish subs :: below))
  | .predicate _ | .handler => none

/-- An exception of the code on top. -/
def throw (i : Nat) (below : List Frame) (s : State) : State :=
  { s with owner := if unlocks below then none else s.owner }.put i (unwind below)

end State

def step : Machine State Label := fun s l =>
  match l with
  | .subscribers subscribers => some { s with subscribers := subscribers }
  | .call i call => if (s.threads i).head?.all Frame.code then some (s.put i (call.frames s.subscribers ++ s.threads i)) else none
  | .run i =>
    match s.threads i with
    | frame :: below => s.run i frame below
    | [] => none
  | .answer i accepts =>
    match s.threads i with
    | .predicate subs :: below => some (s.put i (if accepts then .handler :: .publish subs :: below else .publish subs :: below))
    | _ => none
  | .finish i =>
    match s.threads i with
    | .handler :: below => some (s.put i below)
    | _ => none
  | .throw i =>
    match s.threads i with
    | frame :: below => if frame.code then some (s.throw i below) else none
    | [] => none

/-! ## Self-deadlock -/

/-- The thread is about to lock the mutex that it holds itself. -/
def State.SelfDeadlock (s : State) (i : Nat) : Prop := s.owner = some i ∧ ∃ op below, s.threads i = .lock op :: below

/-- Right after the lock guard; the subscriptions are copied later. -/
def State.Entered (s : State) (i : Nat) : Prop := ∃ op below, s.threads i = .body op :: below

/-- The step is no call of a locking method by code that runs on the thread which holds the mutex. -/
def careful (s : State) : Label → Bool
  | .call i call => s.owner != some i || call.op.isNone
  | _ => true

/-- **Updates complete.** No thread waits for itself; what is inside `UpdateTopology` finds the new
list; a call goes on unless it waits for another thread, and the thread that has the mutex makes a
bounded number of steps with it if its code makes no further calls. -/
structure Completes (s : State) : Prop where
  free : ∀ i, ¬ s.SelfDeadlock i
  sees : ∀ i topology, Frame.unlock (some topology) ∈ s.threads i → s.list.members = topology.members
  moves : ∀ i, s.threads i ≠ [] → (∃ j, j ≠ i ∧ s.owner = some j) ∨ ∃ l, l.actor = some i ∧ l.calls = false ∧ (step s l).isSome
  ends : ∀ i, s.owner = some i → ¬ s.Entered i → ∃ bound, ∀ ls s',
    Machine.Run step (fun t l => t.owner = some i ∧ (l.actor = some i → l.calls = false)) s ls s' → ls.countP (·.actor = some i) ≤ bound

end Protoactor.Cluster.MemberList.Locking
