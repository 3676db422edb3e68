import Mathlib.Data.Int.ConditionallyCompleteOrder
import Mathlib.Order.ConditionallyCompleteLattice.Basic
import Protoactor.Lib.Window
import Protoactor.Actor.Messages

/-!
# Deduplication (`src/actor/deduplication_context.cpp`)

`DedupState` with its map from keys to the readings of `steady_clock`, which counts
nanoseconds. A duplicate that is dropped refreshes its entry; every message with a payload
first cleans up the map.
-/

namespace Protoactor.Actor
set_option autoImplicit false
open Lib

variable {U K σ : Type}

/-- The message of an envelope, where neither is null. -/
def payload : Option (MessageEnvelope U K) → Option (Ptr U K)
  | none => none
  | some envelope => if envelope.message.isNull then none else some envelope.message

/-- `duration_cast<milliseconds>` of nanoseconds; it truncates. -/
def milliseconds (duration : Int) : Int := duration.tdiv 1000000

structure DedupState (U K : Type) where
  dedup : Ptr U K → String
  /-- in milliseconds -/
  ttl : Int
  seen : String → Option Int

namespace DedupState

/-- The constructor. -/
def new (dedup : Ptr U K → String) (ttl : Int) : DedupState U K := ⟨dedup, ttl, fun _ => none⟩

/-- `seen_[key] = now`. -/
def record (key : String) (now : Int) (d : DedupState U K) : DedupState U K :=
  { d with seen := fun k => if k = key then some now else d.seen k }

/-- `Cleanup`. -/
def cleanup (now : Int) (d : DedupState U K) : DedupState U K :=
  { d with seen := fun key =>
      match d.seen key with
      | none => none
      | some last => if d.ttl ≤ milliseconds (now - last) then none else some last }

/-- The second critical section of `ShouldProcess`. -/
def shouldProcessKey (key : String) (now : Int) (d : DedupState U K) : Bool × DedupState U K :=
  match d.seen key with
  | some last =>
    if milliseconds (now - last) < d.ttl then (false, d.record key now)
    else (true, d.record key now)
  | none => (true, d.record key now)

def shouldProcess (envelope : Option (MessageEnvelope U K)) (now : Int) (d : DedupState U K) : Bool × DedupState U K :=
  match payload envelope with
  | none => (true, d)
  | some message =>
    let d := d.cleanup now
    let key := d.dedup message
    if key = "" then (true, d) else d.shouldProcessKey key now

/-- `ShouldProcess` without the `Cleanup`, to compare with. -/
def shouldProcessKeeping (envelope : Option (MessageEnvelope U K)) (now : Int) (d : DedupState U K) :
    Bool × DedupState U K :=
  match payload envelope with
  | none => (true, d)
  | some message =>
    let key := d.dedup message
    if key = "" then (true, d) else d.shouldProcessKey key now

/-! ## As a window -/

/-- Less than `ttl` ago. -/
def window (ttl : Int) : Window Int where
  inside now seen := milliseconds (now - seen) < ttl
  refresh := by
    intro now seen seen' later recent
    have less : milliseconds (now - seen') ≤ milliseconds (now - seen) := Int.tdiv_le_tdiv (by decide) (by omega)
    simp only [decide_eq_true_eq] at recent ⊢
    omega
  aging := by
    intro now now' seen later recent
    have less : milliseconds (now - seen) ≤ milliseconds (now' - seen) := Int.tdiv_le_tdiv (by decide) (by omega)
    simp only [decide_eq_true_eq] at recent ⊢
    omega

theorem window_inside (ttl now seen : Int) : (window ttl).inside now seen = true ↔ milliseconds (now - seen) < ttl :=
  decide_eq_true_iff

@[simp] theorem cleanup_ttl (now : Int) (d : DedupState U K) : (d.cleanup now).ttl = d.ttl := rfl

@[simp] theorem cleanup_dedup (now : Int) (d : DedupState U K) : (d.cleanup now).dedup = d.dedup := rfl

theorem cleanup_seen (now : Int) (d : DedupState U K) : (d.cleanup now).seen = (window d.ttl).forget now d.seen := by
  funext key
  simp only [cleanup, Window.forget]
  cases d.seen key with
  | none => rfl
  | some last =>
    by_cases old : d.ttl ≤ milliseconds (now - last)
    · have outside : (window d.ttl).inside now last = false := decide_eq_false (by omega)
      simp [old, Option.filter_some, outside]
    · have inside : (window d.ttl).inside now last = true := decide_eq_true (by omega)
      simp [old, Option.filter_some, inside]

/-- The key is passed where it has not been seen recently, and it has been seen now. -/
theorem shouldProcessKey_eq (key : String) (now : Int) (d : DedupState U K) :
    d.shouldProcessKey key now = (!(window d.ttl).recent now key d.seen, d.record key now) := by
  unfold shouldProcessKey Window.recent
  cases d.seen key with
  | none => rfl
  | some last =>
    by_cases recent : milliseconds (now - last) < d.ttl
    · simp [recent, window]
    · simp [recent, window]

theorem record_seen (key : String) (now : Int) (d : DedupState U K) : (d.record key now).seen = Window.sight key now d.seen := rfl

end DedupState

/-! ## The middleware -/

/-- A message that comes to the middleware, and what the clock reads then. -/
structure DedupCall (U K : Type) where
  envelope : Option (MessageEnvelope U K)
  now : Int
  deriving DecidableEq, Repr

/-- The function that `DeduplicationContext` makes of `next`, on a state of the world that `next` changes. -/
def deduplicationContext (next : Option (MessageEnvelope U K) → σ → σ) (call : DedupCall U K) (s : DedupState U K × σ) :
    DedupState U K × σ :=
  let (pass, state) := s.1.shouldProcess call.envelope call.now
  (state, if pass then next call.envelope s.2 else s.2)

/-- The same without the `Cleanup`. -/
def deduplicationKeeping (next : Option (MessageEnvelope U K) → σ → σ) (call : DedupCall U K) (s : DedupState U K × σ) :
    DedupState U K × σ :=
  let (pass, state) := s.1.shouldProcessKeeping call.envelope call.now
  (state, if pass then next call.envelope s.2 else s.2)

end Protoactor.Actor
