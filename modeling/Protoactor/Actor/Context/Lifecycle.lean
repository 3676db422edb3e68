import Protoactor.Actor.Context

/-!
# After Stop

`HandleStop` leaves the context `STATE_STOPPED`, and `InvokeUserMessage` does nothing in
that state. Three system messages do not go through that test: `Started` is processed
directly, `Restart` overwrites the state first, and a continuation is a plain call. A
stopped context stays stopped as long as none of them arrives, and each of them
brings it back (`revives_breaks`).
-/

namespace Protoactor.Actor.ActorContext
set_option autoImplicit false
open Lib

variable {U K σ C : Type} {props : Props U K C} {beh : Behaviour U K σ C} {c c' : ActorContext U K σ C}

/-- The call is not subject to the test of `STATE_STOPPED`. -/
def Label.revives : Label U K → Bool
  | .system message =>
    match actualMessage message with
    | .started | .restart | .continuation (some _) _ => true
    | _ => false
  | _ => false

/-- Stopped, with no call running; `received` and `continued` are what the actor has done so far. -/
structure AtRest (received : List (Received U K)) (continued : List (K × Ptr U K × ErrorCode))
    (c : ActorContext U K σ C) : Prop where
  stopped : c.state = .stopped
  returned : c.stack = []
  received : c.received = received
  continued : c.continued = continued

@[simp] theorem invokeUserMessage_stopped (stopped : c.state = .stopped) (message : Ptr U K) :
    c.invokeUserMessage message = c := if_pos stopped

/-- A call by the mailbox is made when no other call is running. -/
theorem returned_of_system {message : Ptr U K} (act : step props beh c (.system message) = some c') :
    c.stack = [] ∧ c.invokeSystemMessage beh message = some c' := by
  cases stack : c.stack with
  | nil => exact ⟨rfl, by simpa only [step, stack] using act⟩
  | cons frame below => simp [step, stack] at act

theorem isNull_of_actualMessage {message : Ptr U K} (some : (actualMessage message).isNull = false) :
    message.isNull = false := by
  cases message <;> first | rfl | exact absurd some nofun

/-- `HandleStop` has run. -/
theorem atRest_stop {message : Ptr U K} (act : step props beh c (.system message) = some c')
    (isStop : actualMessage message = .stop) : AtRest c'.received c'.continued c' := by
  obtain ⟨returned, act⟩ := returned_of_system act
  have solid : message.isNull = false := isNull_of_actualMessage (by rw [isStop]; rfl)
  simp only [invokeSystemMessage, solid, isStop, Bool.false_eq_true, if_false] at act
  cases act
  exact ⟨rfl, returned, rfl, rfl⟩

/-- In a stopped context the other messages only change the lists of PIDs and send. -/
theorem atRest_system {received : List (Received U K)} {continued : List (K × Ptr U K × ErrorCode)}
    {message : Ptr U K} (rest : AtRest received continued c) (harmless : (Label.system message).revives = false)
    (act : c.invokeSystemMessage beh message = some c') : AtRest received continued c' := by
  have same := rest
  obtain ⟨stopped, returned, past, closures⟩ := rest
  simp only [Label.revives] at harmless
  cases handled act with
  | ignored nothing => exact same
  | started actual | restart actual | continuation actual => simp [actual] at harmless
  | watch actual =>
    unfold handleWatch
    split
    · exact ⟨stopped, returned, past, closures⟩
    · exact ⟨stopped, returned, past, closures⟩
  | unwatch actual =>
    unfold handleUnwatch
    split
    · exact same
    · exact ⟨stopped, returned, past, closures⟩
  | stop actual => exact ⟨rfl, returned, past, closures⟩
  | terminated actual =>
    unfold handleTerminated
    split
    · simpa only [invokeUserMessage_stopped stopped] using same
    · simp only [invokeUserMessage_stopped, stopped]
      exact ⟨rfl, returned, past, closures⟩
  | failure actual =>
    unfold handleFailure
    split
    · exact same
    · exact ⟨stopped, returned, past, closures⟩

/-- Nothing but the three messages leaves the state in which `HandleStop` ends. -/
theorem atRest_keeps (received : List (Received U K)) (continued : List (K × Ptr U K × ErrorCode)) :
    Machine.Keeps (step props beh) (fun _ l => l.revives = false) (AtRest (σ := σ) (C := C) received continued) := by
  intro c l c' rest harmless act
  cases l with
  | user message =>
    simp only [step, rest.returned] at act
    cases act
    rw [invokeUserMessage_stopped rest.stopped]
    exact rest
  | system message => exact atRest_system rest harmless (returned_of_system act).2
  | run => simp [step, rest.returned] at act

/-- **Stopped is final** as long as no `Started`, `Restart` or continuation message is
processed: the state stays `STATE_STOPPED`, `Receive` is not called and no closure runs. -/
theorem stopped_is_final {message : Ptr U K} {ls : List (Label U K)} {c'' : ActorContext U K σ C}
    (act : step props beh c (.system message) = some c') (isStop : actualMessage message = .stop)
    (later : Machine.Run (step props beh) (fun _ l => l.revives = false) c' ls c'') :
    c''.state = .stopped ∧ c''.received = c'.received ∧ c''.continued = c'.continued := by
  have rest := later.keeps (atRest_keeps c'.received c'.continued) (atRest_stop act isStop)
  exact ⟨rest.stopped, rest.received, rest.continued⟩

/-- The context of an actor that returns at once, stopped by its first message. -/
def stoppedIdle : ActorContext Nat Nat Unit Unit :=
  { new (some ⟨0, "nonhost", "a"⟩) none () true with state := .stopped }

theorem stop_idle : step .plain idle (new (some ⟨0, "nonhost", "a"⟩) none () true) (.system .stop) = some stoppedIdle := rfl

/-- The stopped context after a late `Watch`, which it answers. -/
def watchedIdle : ActorContext Nat Nat Unit Unit :=
  { stoppedIdle with sent := [⟨some ⟨1, "nonhost", "w"⟩, .system, .terminated (some ⟨0, "nonhost", "a"⟩) .stopped⟩] }

theorem stopped_is_final_watched :
    Machine.Run (step .plain idle) (fun _ l => l.revives = false) stoppedIdle
      [.user (.user 3), .system (.watch (some ⟨1, "nonhost", "w"⟩))] watchedIdle ∧
    watchedIdle.state = .stopped ∧ watchedIdle.received = stoppedIdle.received ∧
      watchedIdle.continued = stoppedIdle.continued := by
  have later : Machine.Run (step .plain idle) (fun _ l => l.revives = false) stoppedIdle
      [.user (.user 3), .system (.watch (some ⟨1, "nonhost", "w"⟩))] watchedIdle :=
    Machine.run_of_exec (by decide) (by decide)
  exact ⟨later, stopped_is_final stop_idle rfl later⟩

/-! ## The three ways back -/

/-- A `Started`, `Restart` or continuation message breaks the promise of `STATE_STOPPED`: at once
or with the first step of the call the state changes, `Receive` is called or a closure runs. -/
theorem revives_breaks {received : List (Received U K)} {continued : List (K × Ptr U K × ErrorCode)}
    {message : Ptr U K} (rest : AtRest received continued c) (actor : c.actor = true)
    (revives : (Label.system message).revives = true) (act : step .plain beh c (.system message) = some c') :
    c'.state ≠ .stopped ∨ c'.continued ≠ continued ∨
      ∃ c'', step .plain beh c' .run = some c'' ∧ c''.received ≠ received := by
  obtain ⟨stopped, returned, past, closures⟩ := rest
  simp only [Label.revives] at revives
  cases handled (returned_of_system act).2 with
  | ignored nothing =>
    unfold unhandled at nothing
    split at nothing <;> simp_all
  | started actual =>
    refine .inr (.inr ⟨_, rfl, ?_⟩)
    simp [processMessage, runFrame, defaultReceive, Props.plain, receive, actor, past, call]
  | restart actual =>
    refine .inl ?_
    simp [handleRestart, invokeUserMessage, processMessage, call]
  | continuation actual =>
    refine .inr (.inl ?_)
    simp [handleContinuation, call, closures]
  | watch actual | unwatch actual | stop actual | terminated actual | failure actual => simp [actual] at revives

/-- After `Stop`: a `Restart` makes the context alive and gives two messages to `Receive`, `Started`
gives it one, and a continuation runs. -/
theorem stopped_idle_comes_back : step .plain idle (new (some ⟨0, "nonhost", "a"⟩) none () true) (.system .stop) =
      some stoppedIdle ∧ stoppedIdle.state = .stopped ∧ stoppedIdle.received = [] ∧ stoppedIdle.continued = [] ∧
    (∃ c, Machine.Run (step .plain idle) Machine.free stoppedIdle (.system .restart :: List.replicate 8 .run) c ∧
      c.state = .alive ∧ c.received = [⟨.restarting, none, none⟩, ⟨.started, none, none⟩]) ∧
    (∃ c, Machine.Run (step .plain idle) Machine.free stoppedIdle [.system .started, .run] c ∧
      c.received = [⟨.started, none, none⟩]) ∧
    ∃ c, Machine.Run (step .plain idle) Machine.free stoppedIdle [.system (.continuation (some 5) .null)] c ∧
      c.continued = [(5, .null, .success)] := by
  refine ⟨rfl, rfl, rfl, rfl, ⟨_, Machine.free_of_exec rfl, rfl, rfl⟩, ⟨_, Machine.free_of_exec rfl, rfl⟩,
    ⟨_, Machine.free_of_exec rfl, rfl⟩⟩

end Protoactor.Actor.ActorContext
