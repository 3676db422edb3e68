import Mathlib.Logic.Function.Basic
import Mathlib.Data.Fintype.BigOperators
import Protoactor.Lib.Machine
import Protoactor.Actor.Mailbox.Lane

/-!
# Many mailboxes on one stack

`SynchronizedDispatcherImpl::Schedule` is `fn()`: the task runs to its end before the post
returns. So posting, processing and handling nest on the stack of the thread that made the
first post, and the machine here is a call stack over the mailboxes of all actors. Only
the frame on top moves, and the calls it consists of are the ones of `Interleaving`.

A behaviour is a resumable program over a shared memory: it runs until its next send or
until it returns. What it computes, and from what, is left open.
-/

namespace Protoactor.Actor.Synchronized
set_option autoImplicit false
open Lib

variable {A M σ K : Type}

/-- A message on its way to the mailbox of an actor. -/
structure Send (A M : Type) where
  target : A
  kind : Kind
  message : M
  deriving DecidableEq, Repr

/-- What the actors do with their messages. `K` is what is left to run of a handler. -/
structure Behaviour (A M σ K : Type) where
  receive : A → Kind → M → K
  /-- up to the next send, or to the return -/
  resume : A → K → σ → σ × Option (Send A M × K)

inductive Frame (A M K : Type) where
  /-- `PostUserMessage` / `PostSystemMessage` on the mailbox of `target` -/
  | post (target : A) (call : PostCall M)
  /-- `ProcessMessages` of the mailbox of `self` -/
  | process (self : A) (call : Worker M)
  /-- `InvokeUserMessage` / `InvokeSystemMessage` on the context of `self` -/
  | handler (self : A) (rest : K)
  deriving DecidableEq, Repr

structure Config (A M σ K : Type) where
  boxes : A → DefaultMailbox M
  memory : σ
  /-- innermost call first -/
  stack : List (Frame A M K)
  /-- auxiliary: every send so far, the external one first -/
  sent : List (Send A M)

/-- The post that a send makes. -/
def Send.frame (send : Send A M) : Frame A M K := .post send.target ⟨send.kind, some send.message, .push⟩

/-- One external post on the given mailboxes. -/
def start (boxes : A → DefaultMailbox M) (memory : σ) (send : Send A M) : Config A M σ K :=
  ⟨boxes, memory, [send.frame], [send]⟩

/-- The next step of the frame on top. The stack is empty once the external post has
returned; a handler that throws is outside this machine. -/
def step [DecidableEq A] (hs : A → Handlers) (beh : Behaviour A M σ K) (c : Config A M σ K) :
    Option (Config A M σ K) :=
  match c.stack with
  | [] => none
  | .post a call :: below =>
    match call.pc with
    | .dispatch =>
      some { c with stack := .process a (.processMessages (hs a)) :: .post a { call with pc := .returned } :: below }
    | .returned => some { c with stack := below }
    | _ => (call.step (c.boxes a)).map fun (b, call') =>
        { c with boxes := Function.update c.boxes a b, stack := .post a call' :: below }
  | .process a w :: below =>
    match w.pc with
    | .returned => some { c with stack := below }
    | .invoke k m => (w.step (hs a) (c.boxes a)).map fun (b, w') =>
        { c with boxes := Function.update c.boxes a b, stack := .handler a (beh.receive a k m) :: .process a w' :: below }
    | _ => (w.step (hs a) (c.boxes a)).map fun (b, w') =>
        { c with boxes := Function.update c.boxes a b, stack := .process a w' :: below }
  | .handler a rest :: below =>
    match beh.resume a rest c.memory with
    | (memory, none) => some { c with memory := memory, stack := below }
    | (memory, some (send, rest')) =>
      some { c with memory := memory, stack := send.frame :: .handler a rest' :: below, sent := c.sent ++ [send] }

/-- The messages of kind `k` among `sends` that go to `b`, in order. -/
def sentTo [DecidableEq A] (b : A) (k : Kind) (sends : List (Send A M)) : List M :=
  (sends.filter fun send => send.target = b ∧ send.kind = k).map Send.message

/-- The invocation on the stack is one of `b`. -/
def Frame.handles [DecidableEq A] (b : A) (f : Frame A M K) : Bool :=
  match f with
  | .handler a _ => a = b
  | _ => false

/-- The mailbox of an actor at rest: empty, `IDLE`, counters 0, not suspended. -/
structure Quiet (b : DefaultMailbox M) : Prop where
  idle : b.schedulerStatus = .idle
  active : b.suspended = 0
  lanes : ∀ k, (b.lane k).Resting

/-! ## One step, by the frame that takes it -/

/-- What one step can do. -/
inductive Move [DecidableEq A] (hs : A → Handlers) (beh : Behaviour A M σ K) :
    Config A M σ K → Config A M σ K → Prop where
  | post {boxes : A → DefaultMailbox M} {memory : σ} {a : A} {call call' : PostCall M} {b : DefaultMailbox M}
      {below : List (Frame A M K)} {sent : List (Send A M)} (act : call.step (boxes a) = some (b, call')) :
      Move hs beh ⟨boxes, memory, .post a call :: below, sent⟩
        ⟨Function.update boxes a b, memory, .post a call' :: below, sent⟩
  | dispatch {boxes : A → DefaultMailbox M} {memory : σ} {a : A} {call : PostCall M}
      {below : List (Frame A M K)} {sent : List (Send A M)} (pc : call.pc = .dispatch) :
      Move hs beh ⟨boxes, memory, .post a call :: below, sent⟩
        ⟨boxes, memory, .process a (.processMessages (hs a)) :: .post a { call with pc := .returned } :: below, sent⟩
  | posted {boxes : A → DefaultMailbox M} {memory : σ} {a : A} {call : PostCall M}
      {below : List (Frame A M K)} {sent : List (Send A M)} (pc : call.pc = .returned) :
      Move hs beh ⟨boxes, memory, .post a call :: below, sent⟩ ⟨boxes, memory, below, sent⟩
  | work {boxes : A → DefaultMailbox M} {memory : σ} {a : A} {w w' : Worker M} {b : DefaultMailbox M}
      {below : List (Frame A M K)} {sent : List (Send A M)} (quiet : ∀ k m, w.pc ≠ .invoke k m)
      (act : w.step (hs a) (boxes a) = some (b, w')) :
      Move hs beh ⟨boxes, memory, .process a w :: below, sent⟩
        ⟨Function.update boxes a b, memory, .process a w' :: below, sent⟩
  | invoke {boxes : A → DefaultMailbox M} {memory : σ} {a : A} {w w' : Worker M} {b : DefaultMailbox M}
      {below : List (Frame A M K)} {sent : List (Send A M)} {k : Kind} {m : M} (pc : w.pc = .invoke k m)
      (act : w.step (hs a) (boxes a) = some (b, w')) :
      Move hs beh ⟨boxes, memory, .process a w :: below, sent⟩
        ⟨Function.update boxes a b, memory, .handler a (beh.receive a k m) :: .process a w' :: below, sent⟩
  | processed {boxes : A → DefaultMailbox M} {memory : σ} {a : A} {w : Worker M}
      {below : List (Frame A M K)} {sent : List (Send A M)} (pc : w.pc = .returned) :
      Move hs beh ⟨boxes, memory, .process a w :: below, sent⟩ ⟨boxes, memory, below, sent⟩
  | handled {boxes : A → DefaultMailbox M} {memory memory' : σ} {a : A} {rest : K}
      {below : List (Frame A M K)} {sent : List (Send A M)} (done : beh.resume a rest memory = (memory', none)) :
      Move hs beh ⟨boxes, memory, .handler a rest :: below, sent⟩ ⟨boxes, memory', below, sent⟩
  | send {boxes : A → DefaultMailbox M} {memory memory' : σ} {a : A} {rest rest' : K} {send : Send A M}
      {below : List (Frame A M K)} {sent : List (Send A M)}
      (next : beh.resume a rest memory = (memory', some (send, rest'))) :
      Move hs beh ⟨boxes, memory, .handler a rest :: below, sent⟩
        ⟨boxes, memory', send.frame :: .handler a rest' :: below, sent ++ [send]⟩

theorem move_of_step [DecidableEq A] {hs : A → Handlers} {beh : Behaviour A M σ K} {c c' : Config A M σ K}
    (move : step hs beh c = some c') : Move hs beh c c' := by
  obtain ⟨boxes, memory, stack, sent⟩ := c
  cases stack with
  | nil => cases move
  | cons top below =>
    cases top with
    | post a call =>
      simp only [step] at move
      split at move
      · rename_i pc
        cases move
        exact .dispatch pc
      · rename_i pc
        cases move
        exact .posted pc
      · obtain ⟨⟨b, call'⟩, act, rfl⟩ := Option.map_eq_some_iff.1 move
        exact .post act
    | process a w =>
      simp only [step] at move
      split at move
      · rename_i pc
        cases move
        exact .processed pc
      · rename_i k m pc
        obtain ⟨⟨b, w'⟩, act, rfl⟩ := Option.map_eq_some_iff.1 move
        exact .invoke pc act
      · rename_i quiet
        obtain ⟨⟨b, w'⟩, act, rfl⟩ := Option.map_eq_some_iff.1 move
        exact .work quiet act
    | handler a rest =>
      simp only [step] at move
      split at move
      · rename_i memory' done
        cases move
        exact .handled done
      · rename_i memory' send rest' next
        cases move
        exact .send next

/-- Only an empty stack and a call that threw have no next step. -/
theorem stuck [DecidableEq A] {hs : A → Handlers} {beh : Behaviour A M σ K} {c : Config A M σ K}
    (last : step hs beh c = none) : c.stack = [] ∨ ∃ a w below, c.stack = .process a w :: below ∧ w.pc = .threw := by
  obtain ⟨boxes, memory, stack, sent⟩ := c
  cases stack with
  | nil => exact .inl rfl
  | cons top below =>
    cases top with
    | post a call =>
      cases pc : call.pc with
      | schedule =>
        cases status : (boxes a).schedulerStatus <;> simp [step, PostCall.step, pc, status] at last
      | push | fetchAdd | dispatch | returned => simp [step, PostCall.step, pc] at last
    | process a w =>
      cases pc : w.pc with
      | reacquire =>
        cases status : (boxes a).schedulerStatus <;> simp [step, Worker.step, pc, status] at last
      | threw => exact .inr ⟨a, w, below, rfl, pc⟩
      | pop _ | fetchSub _ _ | invoke _ _ | invoking _ _ | checkSuspended | storeIdle | loadSys | loadUser _
      | loadSuspended _ _ | returned => simp [step, Worker.step, pc] at last
    | handler a rest =>
      simp only [step] at last
      split at last <;> cases last

end Protoactor.Actor.Synchronized
