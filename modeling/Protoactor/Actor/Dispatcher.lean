import Protoactor.Actor.Mailbox.Interleaving
import Protoactor.Actor.ThreadPool

/-!
# Mailboxes on a thread pool (`src/actor/dispatcher.cpp`)

Any number of mailboxes whose `DefaultDispatcherImpl` has one pool, with any number of threads that
post and the workers of the pool. A task of the pool is a `ProcessMessages` of a mailbox, and is
known here by the number of the mailbox. `Schedule` tests `IsShutdown` and then calls `Submit`,
which tests again under the mutex; the two are steps of their own. The pool is not destroyed.
-/

namespace Protoactor.Actor
set_option autoImplicit false
open Lib

variable {M : Type}

namespace Dispatcher

/-- A post; `admitted` tells that `IsShutdown` has answered no. -/
structure Post (M : Type) where
  call : PostCall M
  admitted : Bool
  deriving DecidableEq, Repr

/-- A mailbox with the posts and the `ProcessMessages` calls on it. -/
structure Slot (M : Type) where
  box : DefaultMailbox M
  posts : List (Post M)
  calls : List (Worker M)
  deriving DecidableEq, Repr

/-- `Schedule` has returned. -/
def Post.returned (p : Post M) : Post M := { p with call := { p.call with pc := .returned } }

def Slot.setPost (n : Nat) (p : Post M) (a : Slot M) : Slot M := { a with posts := a.posts.set n p }

structure State (M : Type) where
  pool : ThreadPool Nat
  slots : Nat → Slot M
  /-- the call that a worker of the pool is in, among those of its mailbox -/
  place : Nat → Nat

inductive Label (M : Type) where
  | post (i : Nat) (k : Kind) (message : Option M)
  /-- the next step of the `n`-th post to the mailbox -/
  | poster (i n : Nat)
  /-- a worker begins its task -/
  | run (w : Nat)
  /-- the next step of the `ProcessMessages` call that the worker is in -/
  | worker (w : Nat)
  /-- the handler that the worker has invoked throws -/
  | raise (w : Nat)
  /-- the call of the worker is over; what it threw was caught in the task -/
  | finish (w : Nat)
  /-- a worker takes the mutex of the pool, or wakes up -/
  | lock (w : Nat)
  | wake (w : Nat)
  /-- `Shutdown` or `ShutdownNow`, on a worker or on a thread of its own, and its joins -/
  | shutdown (worker : Option Nat)
  | shutdownNow (worker : Option Nat)
  | join (c : Nat)
  deriving DecidableEq, Repr

namespace State

/-- Mailboxes with their handlers registered, and a pool. -/
def start (numThreads : Nat) (cpuCount : Int) : State M :=
  ⟨.new numThreads cpuCount, fun _ => ⟨.new, [], []⟩, fun _ => 0⟩

def put (i : Nat) (a : Slot M) (s : State M) : State M := { s with slots := fun j => if j = i then a else s.slots j }

def withPool (pool : ThreadPool Nat) (s : State M) : State M := { s with pool := pool }

/-- `DefaultDispatcherImpl::Schedule`, up to the test and from there. -/
def schedule (i n : Nat) (p : Post M) (s : State M) : State M :=
  if p.admitted then (s.put i ((s.slots i).setPost n p.returned)).withPool (s.pool.submit (some i))
  else if s.pool.stop then s.put i ((s.slots i).setPost n p.returned)
  else s.put i ((s.slots i).setPost n { p with admitted := true })

/-- The mailbox and the call that a worker is at, unless it waits inside a `Shutdown`. -/
def at_ (w : Nat) (s : State M) : Option (Nat × Worker M) :=
  match s.pool.workers[w]? with
  | some (.running _ i) => if s.pool.available (some w) then (s.slots i).calls[s.place w]?.map fun c => (i, c) else none
  | _ => none

def setCall (w i : Nat) (c : Worker M) (s : State M) : State M :=
  s.put i { s.slots i with calls := (s.slots i).calls.set (s.place w) c }

end State

/-- The steps, with the handlers of each mailbox. -/
def step (h : Nat → Handlers) : Machine (State M) (Label M) := fun s l =>
  match l with
  | .post i k message =>
    some (s.put i { s.slots i with posts := (s.slots i).posts ++ [⟨⟨k, message, .push⟩, false⟩] })
  | .poster i n =>
    match (s.slots i).posts[n]? with
    | none => none
    | some p =>
      match p.call.pc with
      | .dispatch => some (s.schedule i n p)
      | _ =>
        (p.call.step (s.slots i).box).map fun (b, c) =>
          s.put i ({ s.slots i with box := b }.setPost n { p with call := c })
  | .run w =>
    match s.pool.workers[w]? with
    | some (.taken _ i) =>
      (s.pool.step (.run w)).map fun pool =>
        { s.put i { s.slots i with calls := (s.slots i).calls ++ [Worker.processMessages (h i)] } with
          pool := pool
          place := fun v => if v = w then (s.slots i).calls.length else s.place v }
    | _ => none
  | .worker w =>
    match s.at_ w with
    | some (i, c) =>
      (c.step (h i) (s.slots i).box).map fun (b, c') =>
        (s.put i { s.slots i with box := b, calls := (s.slots i).calls.set (s.place w) c' })
    | none => none
  | .raise w =>
    match s.at_ w with
    | some (i, c) => if c.invoking then some (s.setCall w i { c with pc := .threw }) else none
    | none => none
  | .finish w =>
    match s.at_ w with
    | some (_, c) => if c.finished then (s.pool.step (.finish w false)).map fun pool => s.withPool pool else none
    | none => none
  | .lock w => (s.pool.step (.lock w)).map fun pool => s.withPool pool
  | .wake w => (s.pool.step (.wake w)).map fun pool => s.withPool pool
  | .shutdown worker => (s.pool.step (.shutdown worker)).map fun pool => s.withPool pool
  | .shutdownNow worker => (s.pool.step (.shutdownNow worker)).map fun pool => s.withPool pool
  | .join c => (s.pool.step (.join c)).map fun pool => s.withPool pool

end Dispatcher

end Protoactor.Actor
