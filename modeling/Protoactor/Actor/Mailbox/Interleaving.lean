import Protoactor.Lib.Machine
import Protoactor.Lib.Pool
import Protoactor.Actor.Mailbox

/-!
# One mailbox, any number of threads

The machine of a single `DefaultMailbox`: any number of posts in progress, any number of
tasks handed to the dispatcher and not started, any number of `ProcessMessages` calls. A
label names the call that takes its next atomic step, so the runs of the machine are the
interleavings of the calls. A call stays in its pool when it is over.

`DefaultDispatcherImpl::Schedule` wraps the task in a `try` block: an exception that leaves
`ProcessMessages` ends the task and nothing else (`raise`). A task that finds the pool gone
or shut down, or is thrown away by `ShutdownNow`, is never run (`lose`).
-/

namespace Protoactor.Actor.Interleaving
set_option autoImplicit false
open Lib

variable {M : Type}

structure State (M : Type) where
  box : DefaultMailbox M
  posts : List (PostCall M)
  scheduled : Nat
  calls : List (Worker M)
  deriving DecidableEq, Repr

/-- A mailbox with its handlers registered, before the first post. -/
def init : State M := ⟨DefaultMailbox.new, [], 0, []⟩

inductive Label (M : Type) where
  /-- some thread calls `PostUserMessage` / `PostSystemMessage` -/
  | post (k : Kind) (message : Option M)
  /-- the next atomic step of the `n`-th post -/
  | poster (n : Nat)
  /-- the dispatcher starts a task -/
  | start
  /-- the dispatcher drops a task -/
  | lose
  /-- the next atomic step of the `n`-th `ProcessMessages` call -/
  | worker (n : Nat)
  /-- the invoked handler of the `n`-th `ProcessMessages` call throws -/
  | raise (n : Nat)
  deriving DecidableEq, Repr

def step (h : Handlers) : Machine (State M) (Label M) := fun s l =>
  match l with
  | .post k message => some { s with posts := s.posts ++ [⟨k, message, .push⟩] }
  | .poster n =>
    match s.posts[n]? with
    | none => none
    | some c =>
      match c.pc with
      | .dispatch =>
        some { s with posts := s.posts.set n { c with pc := .returned }, scheduled := s.scheduled + 1 }
      | _ => (c.step s.box).map fun (b, c') => { s with box := b, posts := s.posts.set n c' }
  | .start =>
    match s.scheduled with
    | 0 => none
    | k + 1 => some { s with scheduled := k, calls := s.calls ++ [Worker.processMessages h] }
  | .lose =>
    match s.scheduled with
    | 0 => none
    | k + 1 => some { s with scheduled := k }
  | .worker n =>
    match s.calls[n]? with
    | none => none
    | some w => (w.step h s.box).map fun (b, w') => { s with box := b, calls := s.calls.set n w' }
  | .raise n =>
    match s.calls[n]? with
    | none => none
    | some w => if w.invoking then some { s with calls := s.calls.set n { w with pc := .threw } } else none

/-- What one step can do, with the acting call singled out of its pool. -/
inductive Step (h : Handlers) (s : State M) : Label M → State M → Prop where
  | post (k : Kind) (message : Option M) :
      Step h s (.post k message) { s with posts := s.posts ++ [⟨k, message, .push⟩] }
  | poster {n : Nat} {pre post : List (PostCall M)} {c c' : PostCall M} {b : DefaultMailbox M}
      (here : s.posts = pre ++ c :: post) (act : c.step s.box = some (b, c')) :
      Step h s (.poster n) { s with box := b, posts := pre ++ c' :: post }
  | dispatch {n : Nat} {pre post : List (PostCall M)} {c : PostCall M}
      (here : s.posts = pre ++ c :: post) (pc : c.pc = .dispatch) :
      Step h s (.poster n)
        { s with posts := pre ++ { c with pc := .returned } :: post, scheduled := s.scheduled + 1 }
  | start {k : Nat} (pending : s.scheduled = k + 1) :
      Step h s .start { s with scheduled := k, calls := s.calls ++ [Worker.processMessages h] }
  | lose {k : Nat} (pending : s.scheduled = k + 1) : Step h s .lose { s with scheduled := k }
  | worker {n : Nat} {pre post : List (Worker M)} {w w' : Worker M} {b : DefaultMailbox M}
      (get : s.calls[n]? = some w) (here : s.calls = pre ++ w :: post) (act : w.step h s.box = some (b, w')) :
      Step h s (.worker n) { s with box := b, calls := pre ++ w' :: post }
  | raise {n : Nat} {pre post : List (Worker M)} {w : Worker M}
      (here : s.calls = pre ++ w :: post) (inside : w.invoking = true) :
      Step h s (.raise n) { s with calls := pre ++ { w with pc := .threw } :: post }

theorem step_cases {h : Handlers} {s s' : State M} {l : Label M} (move : step h s l = some s') : Step h s l s' := by
  cases l with
  | post k message => cases move; exact .post k message
  | poster n =>
    simp only [step] at move
    split at move
    · cases move
    · rename_i c get
      obtain ⟨pre, post, here, put⟩ := pool_split get
      split at move
      · rename_i pc
        cases move
        rw [put]
        exact .dispatch here pc
      · obtain ⟨⟨b, c'⟩, act, rfl⟩ := Option.map_eq_some_iff.1 move
        simp only [put]
        exact .poster here act
  | start =>
    simp only [step] at move
    split at move
    · cases move
    · rename_i k pending
      cases move
      exact .start pending
  | lose =>
    simp only [step] at move
    split at move
    · cases move
    · rename_i k pending
      cases move
      exact .lose pending
  | worker n =>
    simp only [step] at move
    split at move
    · cases move
    · rename_i w get
      obtain ⟨pre, post, here, put⟩ := pool_split get
      obtain ⟨⟨b, w'⟩, act, rfl⟩ := Option.map_eq_some_iff.1 move
      simp only [put]
      exact .worker get here act
  | raise n =>
    simp only [step] at move
    split at move
    · cases move
    · rename_i w get
      obtain ⟨pre, post, here, put⟩ := pool_split get
      split at move
      · rename_i inside
        cases move
        rw [put]
        exact .raise here inside
      · cases move

/-- A post has won the compare-exchange and not yet called the dispatcher. -/
def dispatching (c : PostCall M) : Bool := c.pc == .dispatch

/-- A post that has not returned. -/
def inProgress (c : PostCall M) : Bool := c.pc != .returned

/-- The parties that hold the processing right: a post about to hand over the
task it won, a task not started, a call between gaining `RUNNING` and storing `IDLE`. -/
def holders (s : State M) : Nat :=
  s.posts.countP dispatching + s.scheduled + s.calls.countP Worker.holds

/-- No post in progress, no task pending, no `ProcessMessages` call running. -/
def Quiescent (s : State M) : Prop :=
  (∀ c ∈ s.posts, inProgress c = false) ∧ s.scheduled = 0 ∧ ∀ w ∈ s.calls, w.finished = true

end Protoactor.Actor.Interleaving
