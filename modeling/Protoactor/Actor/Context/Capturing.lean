import Protoactor.Actor.Context.Stashing

/-!
# Captured contexts (`src/actor/captured_context.cpp`, `src/actor/actor_context.cpp`)

`Capture` saves the current message in an envelope, `Apply` puts one back. Where there is no message
`WrapEnvelope` makes none, so such a capture looks like one that is not there, and applying it does nothing.
-/

namespace Protoactor.Actor
set_option autoImplicit false

variable {U K σ C : Type}

structure CapturedContext (U K : Type) where
  /-- `message_envelope` -/
  messageEnvelope : Ptr U K
  /-- `context`, by its number -/
  context : Option Nat
  deriving DecidableEq, Repr

/-- The contexts by their numbers. -/
abbrev Contexts (U K σ C : Type) := Nat → ActorContext U K σ C

namespace Contexts

/-- `ActorContext::Capture`. -/
def capture (n : Nat) (s : Contexts U K σ C) : CapturedContext U K := ⟨wrapEnvelope (s n).messageOrEnvelope, some n⟩

/-- `ActorContext::Apply`. -/
def apply (n : Nat) (captured : Option (CapturedContext U K)) (s : Contexts U K σ C) : Contexts U K σ C :=
  match captured with
  | none => s
  | some captured => fun i => if i = n then { s n with messageOrEnvelope := captured.messageEnvelope } else s i

end Contexts

namespace CapturedContext

/-- `CapturedContext::Apply`. -/
def apply (captured : CapturedContext U K) (s : Contexts U K σ C) : Contexts U K σ C :=
  match captured.context with
  | none => s
  | some n => if captured.messageEnvelope.isNull then s else s.apply n (some captured)

/-- `CapturedContext::Receive`. -/
def receive (captured : CapturedContext U K) (s : Contexts U K σ C) : Contexts U K σ C :=
  match captured.context with
  | none => s
  | some n =>
    if captured.messageEnvelope.isNull then s
    else
      let current := s.capture n
      current.apply (s.apply n (some captured))

end CapturedContext

variable {s s₀ : Contexts U K σ C} {n : Nat}

theorem isNull_wrapEnvelope (message : Ptr U K) : (wrapEnvelope message).isNull = message.isNull := by cases message <;> rfl

/-- An envelope shows what is in it. -/
theorem seen_wrapEnvelope (message : Ptr U K) : seen (wrapEnvelope message) = seen message := by
  rw [seen, unwrapEnvelope_wrapEnvelope, seen]

theorem isNull_iff {message : Ptr U K} : message.isNull = true ↔ message = .null := by cases message <;> simp [Ptr.isNull]

/-- Applying a capture of a message puts that message back. -/
theorem current_apply_capture (some : (s₀ n).messageOrEnvelope ≠ .null) : ((s₀.capture n).apply s n).current = (s₀ n).current := by
  have wrapped : ¬ (wrapEnvelope (s₀ n).messageOrEnvelope).isNull = true := by rwa [isNull_wrapEnvelope, isNull_iff]
  have put : (s₀.capture n).apply s = s.apply n (Option.some (s₀.capture n)) := if_neg wrapped
  have here : s.apply n (Option.some (s₀.capture n)) n = { s n with messageOrEnvelope := wrapEnvelope (s₀ n).messageOrEnvelope } := if_pos rfl
  rw [put, here]
  exact seen_wrapEnvelope _

/-- A capture of no message does nothing. -/
theorem apply_capture_null (none : (s₀ n).messageOrEnvelope = .null) : (s₀.capture n).apply s = s := by
  have wrapped : (wrapEnvelope (s₀ n).messageOrEnvelope).isNull = true := by rw [none]; rfl
  exact if_pos wrapped

theorem receive_capture_null (none : (s₀ n).messageOrEnvelope = .null) : (s₀.capture n).receive s = s := by
  have wrapped : (wrapEnvelope (s₀ n).messageOrEnvelope).isNull = true := by rw [none]; rfl
  exact if_pos wrapped

/-- `Receive` applies the capture, and then the one it has made itself. -/
theorem receive_capture (some : (s₀ n).messageOrEnvelope ≠ .null) :
    (s₀.capture n).receive s = (s.capture n).apply (s.apply n (Option.some (s₀.capture n))) := by
  have wrapped : ¬ (wrapEnvelope (s₀ n).messageOrEnvelope).isNull = true := by rwa [isNull_wrapEnvelope, isNull_iff]
  exact if_neg wrapped

/-! ## What is restored -/

theorem apply_iff : ((s₀.capture n).apply s n).current = (s₀ n).current ↔
    (s₀ n).messageOrEnvelope ≠ .null ∨ (s n).current = (s₀ n).current := by
  by_cases none : (s₀ n).messageOrEnvelope = .null
  · rw [apply_capture_null none]
    exact (or_iff_right (not_not.2 none)).symm
  · exact iff_of_true (current_apply_capture none) (.inl none)

theorem receive_iff : ((s₀.capture n).receive s n).current = (s n).current ↔
    (s₀ n).messageOrEnvelope = .null ∨ (s n).messageOrEnvelope ≠ .null ∨ (s n).current = (s₀ n).current := by
  by_cases none : (s₀ n).messageOrEnvelope = .null
  · rw [receive_capture_null none]
    exact iff_of_true rfl (.inl none)
  · rw [receive_capture none]
    by_cases nothing : (s n).messageOrEnvelope = .null
    · -- the capture of the state before is not applied
      rw [apply_capture_null nothing]
      have here : s.apply n (some (s₀.capture n)) n = { s n with messageOrEnvelope := wrapEnvelope (s₀ n).messageOrEnvelope } := if_pos rfl
      rw [here]
      have shows : ({ s n with messageOrEnvelope := wrapEnvelope (s₀ n).messageOrEnvelope } : ActorContext U K σ C).current = (s₀ n).current :=
        seen_wrapEnvelope _
      rw [shows]
      simp only [none, nothing, ne_eq, not_true_eq_false, false_or]
      exact eq_comm
    · exact iff_of_true (current_apply_capture nothing) (.inr (.inl nothing))

/-- **A captured context restores what was there**: `Receive` leaves the accessors as they were, `Apply` makes them
answer what they answered at the time of `Capture`. -/
def Restores (s₀ s : Contexts U K σ C) (n : Nat) : Prop :=
  ((s₀.capture n).receive s n).current = (s n).current ∧ ((s₀.capture n).apply s n).current = (s₀ n).current

/-- It does so exactly if there is a message both times, or nothing to be seen. -/
theorem restores_iff : Restores s₀ s n ↔
    ((s₀ n).messageOrEnvelope ≠ .null ∧ (s n).messageOrEnvelope ≠ .null) ∨
      ((s₀ n).current = seen .null ∧ (s n).current = seen .null) := by
  unfold Restores
  rw [receive_iff, apply_iff]
  by_cases none : (s₀ n).messageOrEnvelope = .null
  · have blank : (s₀ n).current = seen .null := by rw [ActorContext.current_eq, none]
    simp [none, blank]
  · by_cases nothing : (s n).messageOrEnvelope = .null
    · have blank : (s n).current = seen .null := by rw [ActorContext.current_eq, nothing]
      simp [none, nothing, blank, eq_comm]
    · simp [none, nothing]

/-- The message that is captured is still there after `Receive` if there was none before it. -/
theorem not_restored : ∃ s₀ s : Contexts Nat Nat Unit Unit, (s₀ 0).messageOrEnvelope = .user 7 ∧ (s 0).current = seen .null ∧
    ((s₀.capture 0).receive s 0).current = seen (.user 7) ∧ ¬ Restores s₀ s 0 := by
  let idle : Contexts Nat Nat Unit Unit := fun _ => .new none none () true
  let busy : Contexts Nat Nat Unit Unit := fun _ => { (ActorContext.new none none () true : ActorContext Nat Nat Unit Unit) with messageOrEnvelope := .user 7 }
  refine ⟨busy, idle, rfl, rfl, rfl, fun restores => ?_⟩
  have kept : seen (.user 7 : Ptr Nat Nat) = seen .null := restores.1
  cases kept

end Protoactor.Actor
