import Protoactor.Actor.Context.Sending

/-!
# Forward (`src/actor/actor_context.cpp`)

The guard of `Forward` is meant for system messages. It casts the pointer to `SystemMessage` without
looking at the object, and the cast of a pointer that is not null is not null either: nothing is
ever forwarded.
-/

namespace Protoactor.Actor.ActorContext
set_option autoImplicit false
open Lib

variable {U K σ C : Type} {props : Props U K C} {beh : Behaviour U K σ C} {c c' d : ActorContext U K σ C} {target : PID}

/-- A call that has been made in `c` and has led to `d` so far is over in `c'`. -/
def Returns (props : Props U K C) (beh : Behaviour U K σ C) (c d c' : ActorContext U K σ C) : Prop :=
  c'.stack.length ≤ c.stack.length ∧
    ∃ ls, Machine.Run (step props beh) (fun e l => l = .run ∧ c.stack.length < e.stack.length) d ls c'

/-- The actor that is handed the envelope processes it with these answers of the accessors. -/
def Arrives (envelope : Ptr U K) (entry : Received U K) : Prop :=
  ∀ (τ D : Type) (beh : Behaviour U K τ D) (receiver : ActorContext U K τ D), SendingContext.Live receiver →
    ∃ receiver', Machine.exec (step .plain beh) [.user envelope, .run] receiver = some receiver' ∧
      receiver'.received = receiver.received ++ [entry]

/-- A user message is being processed that has arrived in an envelope. -/
def Enveloped (c : ActorContext U K σ C) : Prop :=
  ∃ header message sender, c.messageOrEnvelope = .envelope header message sender ∧ message.isSystem = false

/-- **Forward passes the message on**: one message to the target, which arrives as this one did; and none
while a system message is being processed. -/
def Forwards (props : Props U K C) (beh : Behaviour U K σ C) (c : ActorContext U K σ C) (target : PID) : Prop :=
  (∀ header message sender, c.messageOrEnvelope = .envelope header message sender → message.isSystem = false →
    ∃ c' envelope, Returns props beh c (c.forward props (some target)) c' ∧
      (c'.sent.drop c.sent.length).filter (·.target = some target) = [⟨some target, .user, envelope⟩] ∧
      Arrives envelope ⟨message, header, sender⟩) ∧
  ((actualMessage c.messageOrEnvelope).isSystem = true →
    ∃ c', Returns props beh c (c.forward props (some target)) c' ∧ c'.sent = c.sent)

/-- While a message is being processed the guard holds. -/
theorem forward_eq (processing : c.messageOrEnvelope.isNull = false) (pid : Option PID) : c.forward props pid = c := by
  rw [forward, if_pos]
  rw [processing]
  exact Bool.false_ne_true

/-- A call that does nothing is over at once. -/
theorem returns_self : Returns props beh c c c' ↔ c' = c := by
  constructor
  · rintro ⟨-, ls, run⟩
    cases run with
    | nil => rfl
    | cons act allowed rest => exact absurd allowed.2 (lt_irrefl _)
  · rintro rfl
    exact ⟨le_refl _, [], .nil _⟩

/-- **Exactly where** no user message is being processed that has arrived in an envelope does `Forward` do
what it is for, with any middleware. -/
theorem forwards_iff (props : Props U K C) (beh : Behaviour U K σ C) (c : ActorContext U K σ C) (target : PID) :
    Forwards props beh c target ↔ ¬ Enveloped c := by
  constructor
  · rintro ⟨users, -⟩ ⟨header, message, sender, here, user⟩
    obtain ⟨c', envelope, returns, sent, -⟩ := users header message sender here user
    have processing : c.messageOrEnvelope.isNull = false := by
      rw [here]
      rfl
    rw [forward_eq processing, returns_self] at returns
    subst returns
    rw [List.drop_length] at sent
    cases sent
  · intro other
    refine ⟨fun header message sender here user => absurd ⟨header, message, sender, here, user⟩ other, fun system => ?_⟩
    have processing : c.messageOrEnvelope.isNull = false := by
      cases message : c.messageOrEnvelope with
      | null =>
        rw [message] at system
        cases system
      | _ => rfl
    rw [forward_eq processing]
    exact ⟨c, returns_self.2 rfl, rfl⟩

/-- An actor that forwards each message once. -/
def forwarder (target : PID) : Behaviour Nat Nat Unit Bool where
  receive := true
  continuation := fun _ _ _ => false
  resume := fun more _ memory => (memory, if more then .performs (.forward (some target)) false else .returns)
  caught := fun _ => none
  produce := fun memory => some (memory, true)

/-- A message with a header and a sender: nothing is sent. -/
theorem not_forwards_user : ∃ c c' : ActorContext Nat Nat Unit Bool,
    Machine.exec (step .plain (forwarder ⟨1, "nonhost", "b"⟩)) [.user (.envelope (some [("k", "v")]) (.user 7) (some ⟨2, "nonhost", "c"⟩)), .run]
      (new none none () true) = some c ∧ ¬ Forwards .plain (forwarder ⟨1, "nonhost", "b"⟩) c ⟨1, "nonhost", "b"⟩ ∧
    Machine.exec (step .plain (forwarder ⟨1, "nonhost", "b"⟩)) [.run, .run, .run] c = some c' ∧ c'.stack = [] ∧ c'.sent = [] := by
  refine ⟨_, _, rfl, fun forwards => ?_, rfl, rfl, rfl⟩
  obtain ⟨c', envelope, returns, sent, -⟩ := forwards.1 _ _ _ rfl rfl
  rw [forward_eq rfl, returns_self] at returns
  subst returns
  cases sent

end Protoactor.Actor.ActorContext
