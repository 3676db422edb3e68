import Mathlib.Data.List.Induction
import Protoactor.Actor.Deduplication

/-!
# What deduplication is for

A message is due where no earlier message with its key was seen less than `ttl` before, passed
or dropped. `DedupState` keeps one reading for each key and drops those that are old enough; with
readings that do not go back this is enough to tell what is due, and dropping or keeping the
old ones makes no difference.
-/

namespace Protoactor.Actor.DedupState
set_option autoImplicit false
open Lib

variable {U K σ : Type} {fn : Ptr U K → String} {ttl now : Int} {calls : List (DedupCall U K)} {call : DedupCall U K}
  {d : DedupState U K}

/-- The key of a message, where it has a payload. -/
def keyOf (fn : Ptr U K → String) (call : DedupCall U K) : Option String := (payload call.envelope).map fn

/-- The message should be passed on, after the `earlier` ones. -/
def Due (fn : Ptr U K → String) (ttl : Int) (earlier : List (DedupCall U K)) (call : DedupCall U K) : Prop :=
  payload call.envelope = none ∨ keyOf fn call = some "" ∨
    ∀ c ∈ earlier, keyOf fn c = keyOf fn call → ¬ milliseconds (call.now - c.now) < ttl

/-- What is recorded of a message: its key and the reading of the clock. -/
def sighting (fn : Ptr U K → String) (call : DedupCall U K) : Option (String × Int) :=
  ((keyOf fn call).filter (· ≠ "")).map (·, call.now)

def sightings (fn : Ptr U K → String) (calls : List (DedupCall U K)) : List (String × Int) := calls.filterMap (sighting fn)

theorem mem_sightings {key : String} {t : Int} :
    (key, t) ∈ sightings fn calls ↔ ∃ c ∈ calls, (keyOf fn c = some key ∧ key ≠ "") ∧ c.now = t := by
  simp only [sightings, sighting, List.mem_filterMap, Option.map_eq_some_iff, Option.filter_eq_some_iff, Prod.mk.injEq,
    decide_eq_true_eq]
  constructor
  · rintro ⟨c, member, key', here, rfl, rfl⟩
    exact ⟨c, member, here, rfl⟩
  · rintro ⟨c, member, here, rfl⟩
    exact ⟨c, member, key, here, rfl, rfl⟩

theorem sightings_snoc : sightings fn (calls ++ [call]) = sightings fn calls ++ (sighting fn call).toList := by
  rw [sightings, List.filterMap_append]
  cases here : sighting fn call <;> simp [sightings, here]

/-- The map is enough to tell what is due at `now`. -/
structure Remembers (fn : Ptr U K → String) (ttl : Int) (calls : List (DedupCall U K)) (d : DedupState U K) (now : Int) :
    Prop where
  sameKeys : d.dedup = fn
  sameTtl : d.ttl = ttl
  latest : Window.Latest (sightings fn calls) d.seen
  spent : ∀ key, (window ttl).Spent now (sightings fn calls) d.seen key

theorem remembers_new (fn : Ptr U K → String) (ttl now : Int) : Remembers fn ttl [] (.new fn ttl) now where
  sameKeys := rfl
  sameTtl := rfl
  latest := Window.latest_nil
  spent := fun _ => Window.spent_nil

theorem Remembers.later {now' : Int} (remembers : Remembers fn ttl calls d now) (later : now ≤ now') :
    Remembers fn ttl calls d now' :=
  ⟨remembers.sameKeys, remembers.sameTtl, remembers.latest, fun key => Window.spent_aging later (remembers.spent key)⟩

/-- **`Cleanup` forgets nothing** that counts. -/
theorem Remembers.cleanup (remembers : Remembers fn ttl calls d now) : Remembers fn ttl calls (d.cleanup now) now where
  sameKeys := remembers.sameKeys
  sameTtl := remembers.sameTtl
  latest := by
    rw [cleanup_seen]
    exact Window.latest_forget remembers.latest
  spent := by
    intro key
    rw [cleanup_seen, remembers.sameTtl]
    exact Window.spent_forget remembers.latest (remembers.spent key)

/-! ## One message -/

/-- A message that is not recorded. -/
theorem Remembers.skip (remembers : Remembers fn ttl calls d now) (unkeyed : sighting fn call = none) :
    Remembers fn ttl (calls ++ [call]) d now := by
  have same : sightings fn (calls ++ [call]) = sightings fn calls := by
    rw [sightings_snoc, unkeyed, Option.toList_none, List.append_nil]
  exact ⟨remembers.sameKeys, remembers.sameTtl, same ▸ remembers.latest, fun key => same ▸ remembers.spent key⟩

/-- The second critical section, for a key that is recorded. -/
theorem Remembers.key {key : String} (remembers : Remembers fn ttl calls d call.now) (order : ∀ c ∈ calls, c.now ≤ call.now)
    (keyed : keyOf fn call = some key) (nonempty : key ≠ "") :
    ((d.shouldProcessKey key call.now).1 = true ↔ Due fn ttl calls call) ∧
      Remembers fn ttl (calls ++ [call]) (d.shouldProcessKey key call.now).2 call.now := by
  have last : sighting fn call = some (key, call.now) := by simp [sighting, keyed, nonempty]
  have ordered : ∀ t, (key, t) ∈ sightings fn calls → t ≤ call.now := by
    intro t seen
    obtain ⟨c, member, -, rfl⟩ := mem_sightings.1 seen
    exact order c member
  rw [shouldProcessKey_eq]
  refine ⟨?_, remembers.sameKeys, remembers.sameTtl, ?_, fun key' => ?_⟩
  · have answer := Window.recent_iff remembers.latest (remembers.spent key)
    rw [remembers.sameTtl, Bool.not_eq_true', ← Bool.not_eq_true, answer]
    have payload : payload call.envelope ≠ none := by
      intro null
      simp [keyOf, null] at keyed
    simp only [Due, payload, keyed, Option.some.injEq, nonempty, false_or, mem_sightings, window_inside]
    constructor
    · intro unseen c member same recent
      exact unseen ⟨c.now, ⟨c, member, ⟨same, nonempty⟩, rfl⟩, recent⟩
    · rintro unseen ⟨t, ⟨c, member, ⟨same, -⟩, rfl⟩, recent⟩
      exact unseen c member same recent
  · rw [sightings_snoc, last]
    exact Window.latest_sight remembers.latest ordered
  · rw [sightings_snoc, last]
    exact Window.spent_sight (remembers.spent key')

/-- **One message** without the `Cleanup`: it is passed on where it is due. -/
theorem Remembers.keeping (remembers : Remembers fn ttl calls d call.now) (order : ∀ c ∈ calls, c.now ≤ call.now) :
    ((d.shouldProcessKeeping call.envelope call.now).1 = true ↔ Due fn ttl calls call) ∧
      Remembers fn ttl (calls ++ [call]) (d.shouldProcessKeeping call.envelope call.now).2 call.now := by
  unfold shouldProcessKeeping
  cases here : payload call.envelope with
  | none => exact ⟨⟨fun _ => .inl here, fun _ => rfl⟩, remembers.skip (by simp [sighting, keyOf, here])⟩
  | some message =>
    have keyed : keyOf fn call = some (fn message) := by simp [keyOf, here]
    simp only [remembers.sameKeys]
    split
    · rename_i empty
      have unkeyed : keyOf fn call = some "" := by rw [keyed, empty]
      exact ⟨⟨fun _ => .inr (.inl unkeyed), fun _ => rfl⟩, remembers.skip (by simp [sighting, unkeyed])⟩
    · rename_i nonempty
      exact remembers.key order keyed nonempty

/-- **One message**: the same with it. -/
theorem Remembers.step (remembers : Remembers fn ttl calls d call.now) (order : ∀ c ∈ calls, c.now ≤ call.now) :
    ((d.shouldProcess call.envelope call.now).1 = true ↔ Due fn ttl calls call) ∧
      Remembers fn ttl (calls ++ [call]) (d.shouldProcess call.envelope call.now).2 call.now := by
  have unfolded : d.shouldProcess call.envelope call.now =
      if payload call.envelope = none then d.shouldProcessKeeping call.envelope call.now
      else (d.cleanup call.now).shouldProcessKeeping call.envelope call.now := by
    unfold shouldProcess shouldProcessKeeping
    cases payload call.envelope <;> rfl
  rw [unfolded]
  split
  · exact remembers.keeping order
  · exact remembers.cleanup.keeping order

/-! ## Whole sequences -/

/-- What a sequence of messages leaves. -/
def receive (fn : Ptr U K → String) (ttl : Int) (next : Option (MessageEnvelope U K) → σ → σ) (start : σ)
    (calls : List (DedupCall U K)) : DedupState U K × σ :=
  calls.foldl (fun s call => deduplicationContext next call s) (.new fn ttl, start)

/-- The same without the `Cleanup`. -/
def receiveKeeping (fn : Ptr U K → String) (ttl : Int) (next : Option (MessageEnvelope U K) → σ → σ) (start : σ)
    (calls : List (DedupCall U K)) : DedupState U K × σ :=
  calls.foldl (fun s call => deduplicationKeeping next call s) (.new fn ttl, start)

section Sequences

variable (next : Option (MessageEnvelope U K) → σ → σ) (start : σ)

theorem receive_snoc :
    receive fn ttl next start (calls ++ [call]) = deduplicationContext next call (receive fn ttl next start calls) := by
  simp [receive]

theorem deduplicationContext_passed {s : DedupState U K × σ} (pass : (s.1.shouldProcess call.envelope call.now).1 = true) :
    (deduplicationContext next call s).2 = next call.envelope s.2 := if_pos pass

theorem deduplicationContext_dropped {s : DedupState U K × σ} (drop : ¬ (s.1.shouldProcess call.envelope call.now).1 = true) :
    (deduplicationContext next call s).2 = s.2 := if_neg drop

theorem receiveKeeping_snoc :
    receiveKeeping fn ttl next start (calls ++ [call]) = deduplicationKeeping next call (receiveKeeping fn ttl next start calls) := by
  simp [receiveKeeping]

/-- With readings that do not go back, both maps are enough at any later moment. -/
theorem receive_remembers (fn : Ptr U K → String) (ttl : Int) (ordered : calls.Pairwise (·.now ≤ ·.now))
    (later : ∀ c ∈ calls, c.now ≤ now) :
    Remembers fn ttl calls (receive fn ttl next start calls).1 now ∧
      Remembers fn ttl calls (receiveKeeping fn ttl next start calls).1 now := by
  induction calls using List.reverseRecOn generalizing now with
  | nil => exact ⟨remembers_new fn ttl now, remembers_new fn ttl now⟩
  | append_singleton calls call ih =>
    obtain ⟨ordered, -, order⟩ := List.pairwise_append.1 ordered
    have order : ∀ c ∈ calls, c.now ≤ call.now := fun c member => order c member call (List.mem_singleton.2 rfl)
    have last : call.now ≤ now := later call (by simp)
    obtain ⟨remembers, remembers'⟩ := ih ordered order
    rw [receive_snoc, receiveKeeping_snoc]
    exact ⟨(remembers.step order).2.later last, (remembers'.keeping order).2.later last⟩

/-- The message `call`, after the `earlier` ones, is treated as it should be. -/
structure Refines (fn : Ptr U K → String) (ttl : Int) (next : Option (MessageEnvelope U K) → σ → σ) (start : σ)
    (earlier : List (DedupCall U K)) (call : DedupCall U K) : Prop where
  passed : Due fn ttl earlier call →
    (receive fn ttl next start (earlier ++ [call])).2 = next call.envelope (receive fn ttl next start earlier).2
  dropped : ¬ Due fn ttl earlier call →
    (receive fn ttl next start (earlier ++ [call])).2 = (receive fn ttl next start earlier).2
  /-- the decision does not depend on the cleaning up -/
  cleanup : ((receive fn ttl next start earlier).1.shouldProcess call.envelope call.now).1 =
    ((receiveKeeping fn ttl next start earlier).1.shouldProcessKeeping call.envelope call.now).1
  /-- a key inside its window is still there after it -/
  kept : ∀ c ∈ earlier, ∀ key, keyOf fn c = some key → key ≠ "" → milliseconds (call.now - c.now) < ttl →
    ∃ last, ((receive fn ttl next start earlier).1.cleanup call.now).seen key = some last ∧ c.now ≤ last

/-- **Deduplication refines its specification**. -/
theorem refines {earlier : List (DedupCall U K)} (ordered : (earlier ++ [call]).Pairwise (·.now ≤ ·.now)) :
    Refines fn ttl next start earlier call := by
  obtain ⟨ordered, -, order⟩ := List.pairwise_append.1 ordered
  have order : ∀ c ∈ earlier, c.now ≤ call.now := fun c member => order c member call (List.mem_singleton.2 rfl)
  obtain ⟨remembers, remembers'⟩ := receive_remembers next start fn ttl ordered order
  have decision := (remembers.step order).1
  constructor
  case passed =>
    intro due
    rw [receive_snoc, deduplicationContext_passed next (decision.2 due)]
  case dropped =>
    intro undue
    rw [receive_snoc, deduplicationContext_dropped next fun pass => undue (decision.1 pass)]
  case cleanup => rw [Bool.eq_iff_iff, decision, (remembers'.keeping order).1]
  case kept =>
    intro c member key keyed nonempty recent
    have seen : (key, c.now) ∈ sightings fn earlier := mem_sightings.2 ⟨c, member, ⟨keyed, nonempty⟩, rfl⟩
    obtain ⟨-, -, latest, spent⟩ := remembers.cleanup
    cases here : ((receive fn ttl next start earlier).1.cleanup call.now).seen key with
    | some last => exact ⟨last, rfl, (latest key last here).2 c.now seen⟩
    | none =>
      have outside := spent key here c.now seen
      rw [(window_inside ttl call.now c.now).2 recent] at outside
      cases outside

end Sequences

/-- A duplicate that is refreshed, and the same message after the window. -/
theorem refines_duplicate : Refines (fun _ : Ptr Unit Unit => "k") 2 (fun _ passed => passed + 1) 0
    [⟨some ⟨none, .user (), none⟩, 0⟩, ⟨some ⟨none, .user (), none⟩, 1999999⟩] ⟨some ⟨none, .user (), none⟩, 3999999⟩ :=
  refines _ _ (by decide)

end Protoactor.Actor.DedupState
