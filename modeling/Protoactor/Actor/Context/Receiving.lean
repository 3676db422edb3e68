import Protoactor.Actor.Context

/-!
# What reaches Receive first

`received` only grows, and only while there is an actor. A context whose first message
is `Started` has `Opened`: `Receive` has had `Started` first, or there is no actor yet, or
the next step is to give it `Started`. Without receiver middleware nothing undoes this;
an actor that is made later, by `HandleRestart`, begins with `Started` as well.
-/

namespace Protoactor.Actor.ActorContext
set_option autoImplicit false
open Lib

variable {U K σ C : Type} {props : Props U K C} {beh : Behaviour U K σ C} {c c' : ActorContext U K σ C}

/-- Nothing is given to `Receive`, and the actor stays. -/
def Unheard (c c' : ActorContext U K σ C) : Prop := c'.received = c.received ∧ c'.actor = c.actor

/-- At most one message is given to `Receive`, if there is an actor, and it stays. -/
def Hears (c c' : ActorContext U K σ C) : Prop :=
  Unheard c c' ∨ (c.actor = true ∧ c'.actor = true ∧ ∃ r, c'.received = c.received ++ [r])

theorem Unheard.trans {c'' : ActorContext U K σ C} (first : Unheard c c') (second : Unheard c' c'') : Unheard c c'' :=
  ⟨second.1.trans first.1, second.2.trans first.2⟩

theorem unheard_invokeUserMessage (message : Ptr U K) : Unheard c (c.invokeUserMessage message) := by
  unfold invokeUserMessage
  split <;> exact ⟨rfl, rfl⟩

theorem unheard_sendUserMessage (pid : Option PID) (message : Ptr U K) : Unheard c (c.sendUserMessage props pid message) := by
  unfold sendUserMessage
  split
  · exact ⟨rfl, rfl⟩
  · dsimp only
    split <;> exact ⟨rfl, rfl⟩

theorem unheard_popStash {again : List (Frame C)} (act : c.popStash again = some c') : Unheard c c' := by
  unfold popStash at act
  split at act
  · cases act
  · split at act
    · cases act
    · cases act
      rename_i extras _ _ top rest _
      have popped : Unheard c ({ c with extras := some { extras with stash := rest } }.call again) := ⟨rfl, rfl⟩
      exact popped.trans (unheard_invokeUserMessage top)

theorem unheard_getD_popStash {again : List (Frame C)} : Unheard c ((c.popStash again).getD c) := by
  cases act : c.popStash again with
  | none => exact ⟨rfl, rfl⟩
  | some c' => exact unheard_popStash act

/-- One handler of `InvokeSystemMessage`. -/
theorem unheard_invokeSystemMessage {message : Ptr U K} (act : c.invokeSystemMessage beh message = some c') :
    Unheard c c' := by
  cases handled act with
  | ignored nothing | started actual | stop actual | continuation actual => exact ⟨rfl, rfl⟩
  | watch actual =>
    unfold handleWatch
    split <;> exact ⟨rfl, rfl⟩
  | unwatch actual =>
    unfold handleUnwatch
    split <;> exact ⟨rfl, rfl⟩
  | @terminated who reason actual =>
    unfold handleTerminated
    split
    · exact unheard_invokeUserMessage _
    · rename_i extras _
      have removed : Unheard c { c with extras := some { extras with children := extras.children.filter (·.ref ≠ who.ref) } } := ⟨rfl, rfl⟩
      exact removed.trans (unheard_invokeUserMessage _)
  | failure actual =>
    unfold handleFailure
    split <;> exact ⟨rfl, rfl⟩
  | restart actual =>
    have restarting : Unheard c ({ c with state := .restarting }.call [.incarnate]) := ⟨rfl, rfl⟩
    exact restarting.trans (unheard_invokeUserMessage _)

theorem hears_receive : Hears c (c.receive beh) := by
  unfold receive
  split
  · rename_i actor
    exact .inr ⟨actor, actor, c.current, rfl⟩
  · exact .inl ⟨rfl, rfl⟩

/-- Of the methods only the one of the last receiver calls `Receive`. -/
theorem unheard_perform {op : Op U K} (other : op ≠ .receive) : Unheard c (c.perform props beh op) := by
  cases op with
  | receive => exact absurd rfl other
  | send pid message | request pid message | requestWithCustomSender pid message sender => exact unheard_sendUserMessage _ _
  | requestFuture fresh pid message => exact ⟨rfl, rfl⟩
  | respond response =>
    show Unheard c (c.respond props response)
    unfold respond
    split
    · exact ⟨rfl, rfl⟩
    · exact unheard_sendUserMessage _ _
  | forward pid =>
    show Unheard c (c.forward props pid)
    unfold forward
    split
    · exact ⟨rfl, rfl⟩
    · exact unheard_sendUserMessage _ _
  | watch pid =>
    show Unheard c (c.watch pid)
    unfold watch
    split <;> exact ⟨rfl, rfl⟩
  | unwatch pid =>
    show Unheard c (c.unwatch pid)
    unfold unwatch
    split <;> exact ⟨rfl, rfl⟩
  | unstash => exact unheard_getD_popStash
  | reenterAfter continuation completed =>
    show Unheard c (c.reenterAfter continuation completed)
    unfold reenterAfter
    split <;> exact ⟨rfl, rfl⟩
  | stash | unstashAll | apply envelope | spawned pid | post pid kind message => exact ⟨rfl, rfl⟩

theorem hears_perform (op : Op U K) : Hears c (c.perform props beh op) := by
  by_cases called : op = .receive
  · subst called
    exact hears_receive
  · exact .inl (unheard_perform called)

/-! ## Started first -/

/-- What `Receive` has been given begins with `Started`, or is about to. -/
inductive Opened (c : ActorContext U K σ C) : Prop where
  | heard {first : Received U K} {later : List (Received U K)} (received : c.received = first :: later)
      (started : first.message = .started)
  | nobody (none : c.received = []) (absent : c.actor = false)
  | due {below : List (Frame C)} (none : c.received = []) (started : c.current.message = .started)
      (next : c.stack = .receive :: below)

theorem Opened.first {r : Received U K} (opened : Opened c) (head : c.received.head? = some r) : r.message = .started := by
  cases opened with
  | heard received started =>
    rw [received] at head
    cases head
    exact started
  | nobody none absent => simp [none] at head
  | due none started next => simp [none] at head

/-- Where the next step is not the one that is due, a context stays opened. -/
theorem Opened.hears (opened : Opened c) (other : ∀ below, c.stack ≠ .receive :: below) (hears : Hears c c') : Opened c' := by
  cases opened with
  | heard received started =>
    rcases hears with ⟨same, -⟩ | ⟨-, -, r, more⟩
    · exact .heard (same.trans received) started
    · exact .heard (more.trans (by rw [received]; rfl)) started
  | nobody none absent =>
    rcases hears with ⟨same, actor⟩ | ⟨actor, -⟩
    · exact .nobody (same.trans none) (actor.trans absent)
    · rw [absent] at actor
      cases actor
  | due none started next => exact absurd next (other _)

/-- A new actor is given `Started` at once. -/
theorem opened_incarnate (opened : Opened c) (other : ∀ below, c.stack ≠ .receive :: below) (below : List (Frame C)) :
    Opened (({ c with stack := below } : ActorContext U K σ C).runFrame props beh .incarnate) := by
  unfold runFrame
  dsimp only
  split
  · exact opened.hears other (.inl ⟨rfl, rfl⟩)
  · rename_i memory actor made
    cases opened with
    | heard received started => exact .heard received started
    | nobody none absent => exact .due none rfl rfl
    | due none started next => exact absurd next (other _)

theorem unheard_restore (below : List (Frame C)) : Unheard c (({ c with stack := below } : ActorContext U K σ C).runFrame props beh .restore) := by
  unfold runFrame
  dsimp only
  cases act : ({ c with stack := below } : ActorContext U K σ C).popStash [.restore] with
  | none => exact ⟨rfl, rfl⟩
  | some c' =>
    obtain ⟨received, actor⟩ := unheard_popStash act
    exact ⟨received, actor⟩

theorem hears_runFrame {frame : Frame C} (made : frame ≠ .incarnate) (called : frame ≠ .receive) (below : List (Frame C)) :
    Hears c (({ c with stack := below } : ActorContext U K σ C).runFrame props beh frame) := by
  cases frame with
  | receive => exact absurd rfl called
  | incarnate => exact absurd rfl made
  | clear => exact .inl ⟨rfl, rfl⟩
  | unstashAll => exact .inl unheard_getD_popStash
  | code rest =>
    unfold runFrame
    dsimp only
    split
    · exact .inl ⟨rfl, rfl⟩
    · exact .inl ⟨rfl, rfl⟩
    · exact hears_perform _
  | restore => exact .inl (unheard_restore below)

/-- No program calls `Receive` itself, as a last receiver does. -/
def Silent (beh : Behaviour U K σ C) : Prop := ∀ code view memory rest, (beh.resume code view memory).2 ≠ .performs .receive rest

/-- Where that is so, only `DefaultReceive` does. -/
theorem unheard_runFrame (silent : Silent beh) {frame : Frame C} (made : frame ≠ .incarnate) (called : frame ≠ .receive)
    (below : List (Frame C)) : Unheard c (({ c with stack := below } : ActorContext U K σ C).runFrame props beh frame) := by
  cases frame with
  | receive => exact absurd rfl called
  | incarnate => exact absurd rfl made
  | clear => exact ⟨rfl, rfl⟩
  | unstashAll => exact unheard_getD_popStash
  | code rest =>
    unfold runFrame
    dsimp only
    split
    · exact ⟨rfl, rfl⟩
    · exact ⟨rfl, rfl⟩
    · rename_i memory op rest' resumed
      have other : op ≠ .receive := by
        rintro rfl
        exact silent rest _ c.memory rest' (congrArg Prod.snd resumed)
      exact unheard_perform other
  | restore => exact unheard_restore below

/-- The call of `Receive` that is due, or a later one. -/
theorem opened_receive (opened : Opened c) (below : List (Frame C)) :
    Opened (({ c with stack := below } : ActorContext U K σ C).receive beh) := by
  unfold receive
  split
  · rename_i actor
    cases opened with
    | heard received started => exact .heard (congrArg (· ++ [c.current]) received) started
    | nobody none absent =>
      rw [show c.actor = true from actor] at absent
      cases absent
    | due none started next => exact .heard (congrArg (· ++ [c.current]) none) started
  · rename_i absent
    cases opened with
    | heard received started => exact .heard received started
    | nobody none absent => exact .nobody none absent
    | due none started next => exact .nobody none (Bool.eq_false_iff.2 absent)

/-- **Started first** is kept by every step of a context without receiver middleware. -/
theorem opened_step {l : Label U K} (plain : props.receiverMiddlewareChain = none) (opened : Opened c)
    (act : step props beh c l = some c') : Opened c' := by
  cases l with
  | user message =>
    cases stack : c.stack with
    | nil =>
      simp only [step, stack] at act
      cases act
      exact opened.hears (by simp [stack]) (.inl (unheard_invokeUserMessage message))
    | cons frame below => simp [step, stack] at act
  | system message =>
    cases stack : c.stack with
    | nil =>
      simp only [step, stack] at act
      exact opened.hears (by simp [stack]) (.inl (unheard_invokeSystemMessage act))
    | cons frame below => simp [step, stack] at act
  | run =>
    cases stack : c.stack with
    | nil => simp [step, stack] at act
    | cons frame below =>
      simp only [step, stack] at act
      cases act
      by_cases made : frame = .incarnate
      · subst made
        exact opened_incarnate opened (by simp [stack]) below
      · by_cases called : frame = .receive
        · subst called
          simp only [runFrame, defaultReceive, plain]
          exact opened_receive opened below
        · exact opened.hears (by simp [stack, called]) (hears_runFrame made called below)

end Protoactor.Actor.ActorContext
