import Protoactor.Lib.Machine
import Protoactor.Actor.EventStream

/-!
# The event stream under concurrent calls

Any number of threads call the stream, from the outside or from a handler that `Publish` has
called on them. A step is a section under the mutex, a load or a store outside of it, or the
begin or the end of a handler. `SubscribeWithPredicate` stores the predicate when `Subscribe` has
given the mutex back; `Publish` goes through a copy of the active subscriptions, made under the
mutex, and neither the test of a predicate nor the call of a handler looks at the stream again.

`wanted` and `history` are auxiliary: the predicate each subscription has been made for, and the
order in which handlers were entered and calls of `Unsubscribe` returned.
-/

namespace Protoactor.Actor.EventStream.Concurrent
set_option autoImplicit false
open Lib

variable {Evt H : Type}

/-- What a thread is in the middle of. -/
inductive Frame (Evt : Type) where
  /-- `SubscribeWithPredicate`, back from `Subscribe` -/
  | assign (subscription : Nat) (predicate : Evt → Bool)
  /-- `Unsubscribe` of a subscription that was active, before the lock -/
  | remove (subscription : Nat)
  /-- `Unsubscribe`, about to return -/
  | leave (subscription : Nat)
  /-- the loop of `Publish`, with the subscriptions it has not come to -/
  | publish (evt : Evt) (subs : List Nat)
  /-- the loop, when the predicate has let the event through -/
  | calling (evt : Evt) (subscription : Nat) (subs : List Nat)
  /-- a handler, above the loop that called it -/
  | handler (subscription : Nat) (evt : Evt)

inductive Call (Evt H : Type) where
  | subscribe (handler : H)
  | subscribeWithPredicate (handler : H) (predicate : Evt → Bool)
  | unsubscribe (subscription : Option Nat)
  | publish (evt : Evt)

inductive Happened (Evt : Type) where
  | entered (subscription : Nat) (evt : Evt)
  | returned (subscription : Nat)

structure State (Evt H : Type) where
  stream : EventStream Evt H
  threads : Nat → List (Frame Evt)
  wanted : List (Option (Evt → Bool))
  history : List (Happened Evt)

inductive Label (Evt H : Type) where
  | call (i : Nat) (call : Call Evt H)
  /-- the next step of a call -/
  | run (i : Nat)
  /-- a handler returns -/
  | finish (i : Nat)
  /-- a handler throws, and the `Publish` below is left -/
  | throw (i : Nat)

/-- `sub->predicate_ = predicate`. -/
def setPredicate (subscription : Nat) (predicate : Evt → Bool) (s : EventStream Evt H) : EventStream Evt H :=
  { s with objects := s.objects.modify subscription fun sub => { sub with predicate := some predicate } }

/-- The test of `predicate_`. -/
def accepts (s : EventStream Evt H) (evt : Evt) (subscription : Nat) : Bool :=
  s.objects[subscription]?.any fun sub => sub.predicate.all (· evt)

namespace State

def put (i : Nat) (frames : List (Frame Evt)) (s : State Evt H) : State Evt H :=
  { s with threads := fun j => if j = i then frames else s.threads j }

def record (happened : Happened Evt) (s : State Evt H) : State Evt H := { s with history := s.history ++ [happened] }

/-- The first step of a call, above `below`; only subscriptions of this stream are unsubscribed. -/
def call (i : Nat) (below : List (Frame Evt)) (s : State Evt H) : Call Evt H → Option (State Evt H)
  | .subscribe handler => some { s with stream := s.stream.subscribe handler, wanted := s.wanted ++ [none] }
  | .subscribeWithPredicate handler predicate =>
    some ({ s with stream := s.stream.subscribe handler, wanted := s.wanted ++ [some predicate] }.put i
      (.assign s.stream.objects.length predicate :: below))
  | .unsubscribe none => some s
  | .unsubscribe (some subscription) =>
    if subscription < s.stream.objects.length then
      if s.stream.isActive subscription then some (s.put i (.remove subscription :: below))
      else some (s.put i (.leave subscription :: below))
    else none
  | .publish evt => some (s.put i (.publish evt (s.stream.subscriptions.filter s.stream.isActive) :: below))

/-- The frame on top of thread `i` makes its next step; the section of `Unsubscribe` is that of
the sequential one. -/
def run (i : Nat) (frame : Frame Evt) (below : List (Frame Evt)) (s : State Evt H) : Option (State Evt H) :=
  match frame with
  | .assign subscription predicate => some ({ s with stream := setPredicate subscription predicate s.stream }.put i below)
  | .remove subscription =>
    some ({ s with stream := s.stream.unsubscribe (some subscription) }.put i (.leave subscription :: below))
  | .leave subscription => some ((s.record (.returned subscription)).put i below)
  | .publish _ [] => some (s.put i below)
  | .publish evt (subscription :: subs) =>
    if accepts s.stream evt subscription then some (s.put i (.calling evt subscription subs :: below))
    else some (s.put i (.publish evt subs :: below))
  | .calling evt subscription subs =>
    some ((s.record (.entered subscription evt)).put i
      (.handler subscription evt :: .publish evt subs :: below))
  | .handler _ _ => none

end State

def step : Machine (State Evt H) (Label Evt H) := fun s l =>
  match l with
  | .call i call =>
    match s.threads i with
    | [] => s.call i [] call
    | .handler subscription evt :: below => s.call i (.handler subscription evt :: below) call
    | _ => none
  | .run i =>
    match s.threads i with
    | frame :: below => s.run i frame below
    | [] => none
  | .finish i =>
    match s.threads i with
    | .handler _ _ :: below => some (s.put i below)
    | _ => none
  | .throw i =>
    match s.threads i with
    | .handler _ _ :: .publish _ _ :: below => some (s.put i below)
    | _ => none

/-- A new stream, nobody at work. -/
def init : State Evt H := ⟨new, fun _ => [], [], []⟩

/-- With no other thread in between, the two stores are `SubscribeWithPredicate`. -/
theorem setPredicate_subscribe (s : EventStream Evt H) (handler : H) (predicate : Evt → Bool) :
    setPredicate s.objects.length predicate (s.subscribe handler) = s.subscribeWithPredicate handler predicate := rfl

/-! ## What a step can do -/

/-- The steps, by what they do to the stream and the history. Thread `i` has `below` left of its
frames, and what the step puts on it. -/
inductive Stepped (s : State Evt H) (i : Nat) : State Evt H → Prop where
  | subscribed (handler : H) :
      Stepped s i { s with stream := s.stream.subscribe handler, wanted := s.wanted ++ [none] }
  | subscribing (handler : H) (predicate : Evt → Bool) :
      Stepped s i ({ s with stream := s.stream.subscribe handler, wanted := s.wanted ++ [some predicate] }.put i
        (.assign s.stream.objects.length predicate :: s.threads i))
  | assigned {subscription : Nat} {predicate : Evt → Bool} {below : List (Frame Evt)}
      (top : s.threads i = .assign subscription predicate :: below) :
      Stepped s i ({ s with stream := setPredicate subscription predicate s.stream }.put i below)
  | found {subscription : Nat} (bound : subscription < s.stream.objects.length) :
      Stepped s i (s.put i (.remove subscription :: s.threads i))
  | missed {subscription : Nat} (bound : subscription < s.stream.objects.length)
      (gone : s.stream.isActive subscription = false) : Stepped s i (s.put i (.leave subscription :: s.threads i))
  | removed {subscription : Nat} {below : List (Frame Evt)} (top : s.threads i = .remove subscription :: below) :
      Stepped s i ({ s with stream := s.stream.unsubscribe (some subscription) }.put i (.leave subscription :: below))
  | left {subscription : Nat} {below : List (Frame Evt)} (top : s.threads i = .leave subscription :: below) :
      Stepped s i ((s.record (.returned subscription)).put i below)
  | copied (evt : Evt) :
      Stepped s i (s.put i (.publish evt (s.stream.subscriptions.filter s.stream.isActive) :: s.threads i))
  | accepted {evt : Evt} {subscription : Nat} {subs : List Nat} {below : List (Frame Evt)}
      (top : s.threads i = .publish evt (subscription :: subs) :: below) (accept : accepts s.stream evt subscription = true) :
      Stepped s i (s.put i (.calling evt subscription subs :: below))
  | rejected {evt : Evt} {subscription : Nat} {subs : List Nat} {below : List (Frame Evt)}
      (top : s.threads i = .publish evt (subscription :: subs) :: below) : Stepped s i (s.put i (.publish evt subs :: below))
  | entered {evt : Evt} {subscription : Nat} {subs : List Nat} {below : List (Frame Evt)}
      (top : s.threads i = .calling evt subscription subs :: below) :
      Stepped s i ((s.record (.entered subscription evt)).put i
        (.handler subscription evt :: .publish evt subs :: below))
  | ended (gone : List (Frame Evt)) {below : List (Frame Evt)} (top : s.threads i = gone ++ below)
      (finished : ∀ subscription predicate, .assign subscription predicate ∉ gone) : Stepped s i (s.put i below)
  | nothing : Stepped s i s

/-- The thread that takes a step. -/
def Label.thread : Label Evt H → Nat
  | .call i _ | .run i | .finish i | .throw i => i

theorem stepped_call {s s' : State Evt H} {i : Nat} {call : Call Evt H} (act : s.call i (s.threads i) call = some s') :
    Stepped s i s' := by
  cases call with
  | subscribe handler => cases act; exact .subscribed handler
  | subscribeWithPredicate handler predicate => cases act; exact .subscribing handler predicate
  | publish evt => cases act; exact .copied evt
  | unsubscribe subscription =>
    cases subscription with
    | none => cases act; exact .nothing
    | some subscription =>
      simp only [State.call] at act
      split at act
      · rename_i bound
        split at act
        · cases act; exact .found bound
        · rename_i gone
          cases act
          exact .missed bound (by simpa using gone)
      · cases act

theorem stepped {s s' : State Evt H} {l : Label Evt H} (act : step s l = some s') : Stepped s l.thread s' := by
  cases l with
  | call i call =>
    simp only [step] at act
    split at act
    · rename_i top; rw [← top] at act; exact stepped_call act
    · rename_i top; rw [← top] at act; exact stepped_call act
    · cases act
  | finish i =>
    simp only [step] at act
    split at act
    · rename_i subscription evt below top
      cases act
      exact .ended [.handler subscription evt] top (by simp)
    · cases act
  | throw i =>
    simp only [step] at act
    split at act
    · rename_i subscription evt evt' subs below top
      cases act
      exact .ended [.handler subscription evt, .publish evt' subs] top (by simp)
    · cases act
  | run i =>
    simp only [step] at act
    split at act
    · rename_i frame below top
      cases frame with
      | assign => cases act; exact .assigned top
      | remove => cases act; exact .removed top
      | leave => cases act; exact .left top
      | calling => cases act; exact .entered top
      | handler => cases act
      | publish evt subs =>
        cases subs with
        | nil =>
          cases act
          exact .ended [.publish evt []] top (by simp)
        | cons subscription subs =>
          simp only [State.run] at act
          split at act
          · rename_i accept; cases act; exact .accepted top accept
          · cases act; exact .rejected top
    · cases act

/-- Only a handler lets its thread do anything but run. -/
theorem eq_run {s s' : State Evt H} {l : Label Evt H} {frame : Frame Evt} {below : List (Frame Evt)}
    (act : step s l = some s') (top : s.threads l.thread = frame :: below)
    (busy : ∀ subscription evt, frame ≠ .handler subscription evt) : l = .run l.thread := by
  cases l with
  | run i => rfl
  | call i | finish i | throw i =>
    simp only [Label.thread] at top
    simp only [step, top] at act
    cases frame with
    | handler subscription evt => exact absurd rfl (busy subscription evt)
    | _ => cases act

/-! ## Frames and objects -/

theorem put_threads (i j : Nat) (frames : List (Frame Evt)) (s : State Evt H) :
    (s.put i frames).threads j = if j = i then frames else s.threads j := rfl

/-- A frame that is there after a step has been put there or was there before. -/
theorem mem_put {s : State Evt H} {i j : Nat} {frames : List (Frame Evt)} {frame : Frame Evt}
    (member : frame ∈ (s.put i frames).threads j) : frame ∈ frames ∨ frame ∈ s.threads j := by
  rw [put_threads] at member
  split at member
  · exact .inl member
  · exact .inr member

/-- The frames that a step puts on its thread. -/
inductive Fresh (s : State Evt H) (i : Nat) (s' : State Evt H) : Frame Evt → Prop where
  | assign (predicate : Evt → Bool) : Fresh s i s' (.assign s.stream.objects.length predicate)
  | remove {r : Nat} (bound : r < s.stream.objects.length) : Fresh s i s' (.remove r)
  | missed {r : Nat} (bound : r < s.stream.objects.length) (gone : s.stream.isActive r = false)
      (same : s'.stream = s.stream) : Fresh s i s' (.leave r)
  | removed {r : Nat} (before : .remove r ∈ s.threads i) (stream : s'.stream = s.stream.unsubscribe (some r)) :
      Fresh s i s' (.leave r)
  | copied (evt : Evt) (same : s'.stream = s.stream) :
      Fresh s i s' (.publish evt (s.stream.subscriptions.filter s.stream.isActive))
  | rejected {evt : Evt} {r : Nat} {subs : List Nat} (before : .publish evt (r :: subs) ∈ s.threads i)
      (same : s'.stream = s.stream) : Fresh s i s' (.publish evt subs)
  | accepted {evt : Evt} {r : Nat} {subs : List Nat} {below : List (Frame Evt)}
      (top : s.threads i = .publish evt (r :: subs) :: below) (accept : accepts s.stream evt r = true)
      (same : s'.stream = s.stream) : Fresh s i s' (.calling evt r subs)
  | resumed {evt : Evt} {r : Nat} {subs : List Nat} (before : .calling evt r subs ∈ s.threads i)
      (same : s'.stream = s.stream) : Fresh s i s' (.publish evt subs)
  | handler (r : Nat) (evt : Evt) : Fresh s i s' (.handler r evt)

/-- What is on a thread that `new` has been put on, above what was left of its frames. -/
theorem fresh_put {s s₀ s' : State Evt H} {i j : Nat} {frame : Frame Evt} (new : List (Frame Evt)) {below : List (Frame Evt)}
    (fresh : ∀ f ∈ new, Fresh s i s' f) (same : s₀.threads = s.threads) (kept : below ⊆ s.threads i)
    (member : frame ∈ (s₀.put i (new ++ below)).threads j) : Fresh s i s' frame ∨ ∃ k, frame ∈ s.threads k := by
  rcases mem_put member with inside | old
  · rcases List.mem_append.1 inside with here | old
    · exact .inl (fresh frame here)
    · exact .inr ⟨i, kept old⟩
  · exact .inr ⟨j, same ▸ old⟩

theorem Stepped.fresh {s s' : State Evt H} {i j : Nat} {frame : Frame Evt} (h : Stepped s i s')
    (member : frame ∈ s'.threads j) : Fresh s i s' frame ∨ ∃ k, frame ∈ s.threads k := by
  have rest : ∀ {f below}, s.threads i = f :: below → below ⊆ s.threads i ∧ f ∈ s.threads i := fun top =>
    top ▸ ⟨List.subset_cons_self _ _, List.mem_cons_self⟩
  cases h with
  | subscribed | nothing => exact .inr ⟨j, member⟩
  | subscribing handler predicate =>
    exact fresh_put [_] (List.forall_mem_singleton.2 (.assign predicate)) rfl (List.Subset.refl _) member
  | assigned top => exact fresh_put [] (by simp) rfl (rest top).1 member
  | found bound => exact fresh_put [_] (List.forall_mem_singleton.2 (.remove bound)) rfl (List.Subset.refl _) member
  | missed bound gone =>
    exact fresh_put [_] (List.forall_mem_singleton.2 (.missed bound gone rfl)) rfl (List.Subset.refl _) member
  | removed top => exact fresh_put [_] (List.forall_mem_singleton.2 (.removed (rest top).2 rfl)) rfl (rest top).1 member
  | left top => exact fresh_put [] (by simp) rfl (rest top).1 member
  | copied evt => exact fresh_put [_] (List.forall_mem_singleton.2 (.copied evt rfl)) rfl (List.Subset.refl _) member
  | accepted top accept =>
    exact fresh_put [_] (List.forall_mem_singleton.2 (.accepted top accept rfl)) rfl (rest top).1 member
  | rejected top => exact fresh_put [_] (List.forall_mem_singleton.2 (.rejected (rest top).2 rfl)) rfl (rest top).1 member
  | @entered evt r subs below top =>
    exact fresh_put [_, _] (List.forall_mem_cons.2 ⟨.handler r evt, List.forall_mem_singleton.2 (.resumed (rest top).2 rfl)⟩)
      rfl (rest top).1 member
  | ended gone top finished => exact fresh_put [] (by simp) rfl (top ▸ List.subset_append_right _ _) member

/-- A step records that a call of `Unsubscribe` returns, or that a handler is entered, or nothing. -/
theorem Stepped.history {s s' : State Evt H} {i : Nat} (h : Stepped s i s') :
    s'.history = s.history ∨
      (∃ r below, s.threads i = .leave r :: below ∧ s'.history = s.history ++ [.returned r]) ∨
        ∃ evt r subs, .calling evt r subs ∈ s.threads i ∧ s'.history = s.history ++ [.entered r evt] := by
  cases h with
  | left top => exact .inr (.inl ⟨_, _, top, rfl⟩)
  | entered top => exact .inr (.inr ⟨_, _, _, top ▸ List.mem_cons_self, rfl⟩)
  | _ => exact .inl rfl

/-- What a step can do to the stream. -/
inductive Changed (s : State Evt H) (i : Nat) : EventStream Evt H → Prop where
  | same : Changed s i s.stream
  | subscribe (handler : H) : Changed s i (s.stream.subscribe handler)
  | setPredicate {r : Nat} {predicate : Evt → Bool} (before : .assign r predicate ∈ s.threads i) :
      Changed s i (setPredicate r predicate s.stream)
  | unsubscribe (r : Nat) : Changed s i (s.stream.unsubscribe (some r))

theorem Stepped.changed {s s' : State Evt H} {i : Nat} (h : Stepped s i s') : Changed s i s'.stream := by
  cases h with
  | subscribed handler | subscribing handler => exact .subscribe handler
  | assigned top => exact .setPredicate (top ▸ List.mem_cons_self)
  | @removed r _ _ => exact .unsubscribe r
  | _ => exact .same

/-- The predicates of all objects made so far. -/
def predicates (s : EventStream Evt H) : List (Option (Evt → Bool)) := s.objects.map Subscription.predicate

@[simp] theorem predicates_subscribe (s : EventStream Evt H) (handler : H) :
    predicates (s.subscribe handler) = predicates s ++ [none] := by
  simp [predicates, subscribe]

/-- Nothing that is done to an object but the store of its predicate changes its predicate. -/
theorem predicates_modify (objects : List (Subscription Evt H)) (r : Nat) {f : Subscription Evt H → Subscription Evt H}
    (same : ∀ sub, (f sub).predicate = sub.predicate) :
    (objects.modify r f).map Subscription.predicate = objects.map Subscription.predicate := by
  induction objects generalizing r with
  | nil => cases r <;> rfl
  | cons sub rest ih =>
    cases r with
    | zero => simp [same]
    | succ r => simp [ih r]

@[simp] theorem predicates_unsubscribe (s : EventStream Evt H) (subscription : Option Nat) :
    predicates (s.unsubscribe subscription) = predicates s := by
  unfold unsubscribe
  cases subscription with
  | none => rfl
  | some subscription =>
    simp only
    split
    · split <;> exact predicates_modify _ _ fun sub => rfl
    · rfl

theorem predicates_setPredicate (s : EventStream Evt H) (r : Nat) (predicate : Evt → Bool) :
    predicates (setPredicate r predicate s) = (predicates s).modify r fun _ => some predicate := by
  unfold predicates setPredicate
  generalize s.objects = objects
  induction objects generalizing r with
  | nil => cases r <;> rfl
  | cons sub rest ih =>
    cases r with
    | zero => simp
    | succ r => simp [ih r]

theorem accepts_iff {s : EventStream Evt H} {evt : Evt} {r : Nat} :
    accepts s evt r = true ↔ ∃ predicate, (predicates s)[r]? = some predicate ∧ predicate.all (· evt) = true := by
  unfold accepts predicates
  rw [List.getElem?_map]
  cases s.objects[r]? with
  | none => simp
  | some sub => simp

theorem length_predicates (s : EventStream Evt H) : (predicates s).length = s.objects.length := List.length_map _

end Protoactor.Actor.EventStream.Concurrent
