import Protoactor.Lib.Machine
import Protoactor.Actor.EventStream

/-!
# Who an event reaches

`Live` is what a subscriber is promised: from its `Subscribe` to its `Unsubscribe` it is called
for every event its predicate accepts. The stream keeps the promise as long as `Unsubscribe`
finds the entry of the subscription it is given. It looks for the first entry with
the same id, and an id is given again once the counter has gone down, so the entry it
finds can be that of an older subscription, which is then dropped for good.
-/

namespace Protoactor.Actor.EventStream
set_option autoImplicit false
open Lib

variable {Evt H : Type}

/-- A subscription that has not been unsubscribed. -/
structure Live (Evt H : Type) where
  subscription : Nat
  handler : H
  predicate : Option (Evt → Bool)

def Live.accepts (evt : Evt) (entry : Live Evt H) : Bool := entry.predicate.all (· evt)

/-- A stream and the subscriptions that are live, oldest first. -/
structure State (Evt H : Type) where
  stream : EventStream Evt H
  live : List (Live Evt H)

/-- The calls an event should lead to. -/
def State.expected (evt : Evt) (s : State Evt H) : List (Nat × H) :=
  (s.live.filter (Live.accepts evt)).map fun entry => (entry.subscription, entry.handler)

inductive Label (Evt H : Type) where
  | subscribe (handler : H)
  | subscribeWithPredicate (handler : H) (predicate : Evt → Bool)
  | unsubscribe (subscription : Option Nat)
  | publish (evt : Evt)

/-- Only subscriptions of this stream are unsubscribed. -/
def step : Machine (State Evt H) (Label Evt H) := fun s l =>
  match l with
  | .subscribe handler =>
    some ⟨s.stream.subscribe handler, s.live ++ [⟨s.stream.objects.length, handler, none⟩]⟩
  | .subscribeWithPredicate handler predicate =>
    some ⟨s.stream.subscribeWithPredicate handler predicate,
      s.live ++ [⟨s.stream.objects.length, handler, some predicate⟩]⟩
  | .unsubscribe none => some { s with stream := s.stream.unsubscribe none }
  | .unsubscribe (some subscription) =>
    if subscription < s.stream.objects.length then
      some ⟨s.stream.unsubscribe (some subscription), s.live.filter (·.subscription ≠ subscription)⟩
    else none
  | .publish _ => some s

def init : State Evt H := ⟨new, []⟩

/-- `Unsubscribe` finds the entry of the subscription it is given. -/
def finds (s : EventStream Evt H) (subscription : Nat) : Prop :=
  s.isActive subscription = true → s.subscriptions.find? (s.sameId subscription) = some subscription

structure Faithful (s : State Evt H) : Prop where
  entries : s.stream.subscriptions = s.live.map Live.subscription
  object : ∀ entry ∈ s.live, ∃ id, s.stream.objects[entry.subscription]? = some ⟨id, entry.handler, entry.predicate, true⟩
  gone : ∀ ref, s.stream.isActive ref = true → ref ∈ s.live.map Live.subscription
  distinct : (s.live.map Live.subscription).Nodup
  count : s.stream.counter = s.live.length
  room : (s.live.length : Int) < 2 ^ 31

theorem Faithful.bound {s : State Evt H} (inv : Faithful s) {entry : Live Evt H} (member : entry ∈ s.live) :
    entry.subscription < s.stream.objects.length := by
  obtain ⟨id, here⟩ := inv.object entry member
  exact (List.getElem?_eq_some_iff.1 here).1

theorem Faithful.active {s : State Evt H} (inv : Faithful s) {entry : Live Evt H} (member : entry ∈ s.live) :
    s.stream.isActive entry.subscription = true := by
  obtain ⟨id, here⟩ := inv.object entry member
  simp [isActive, here]

/-- An event reaches exactly the live subscriptions. -/
theorem Faithful.publish {s : State Evt H} (inv : Faithful s) (evt : Evt) : s.stream.publish evt = s.expected evt := by
  have all : s.stream.subscriptions.filter s.stream.isActive = s.live.map Live.subscription := by
    rw [inv.entries, List.filter_eq_self]
    intro ref member
    obtain ⟨entry, live, rfl⟩ := List.mem_map.1 member
    exact inv.active live
  have object := inv.object
  unfold EventStream.publish State.expected
  rw [all]
  generalize s.live = live at object
  induction live with
  | nil => rfl
  | cons entry rest ih =>
    obtain ⟨id, here⟩ := object entry List.mem_cons_self
    have rest := ih fun other member => object other (List.mem_cons_of_mem entry member)
    rw [List.map_cons, List.filterMap_cons, here, Option.bind_some, List.filter_cons]
    simp only [Live.accepts] at rest ⊢
    split <;> simp_all

/-- A new subscription, with or without a predicate. -/
theorem Faithful.subscribed {s : State Evt H} (inv : Faithful s) (room : s.stream.counter < 2 ^ 31 - 1) (handler : H)
    (predicate : Option (Evt → Bool)) {stream : EventStream Evt H}
    (made : stream = ⟨s.stream.objects ++ [⟨s.stream.counter, handler, predicate, true⟩],
      s.stream.subscriptions ++ [s.stream.objects.length], int32 (s.stream.counter + 1)⟩) :
    Faithful ⟨stream, s.live ++ [⟨s.stream.objects.length, handler, predicate⟩]⟩ := by
  subst made
  have count := inv.count
  constructor
  case entries =>
    simp [inv.entries]
  case object =>
    intro entry member
    rcases List.mem_append.1 member with old | new
    · obtain ⟨id, here⟩ := inv.object entry old
      exact ⟨id, by rw [List.getElem?_append_left (inv.bound old), here]⟩
    · rw [List.mem_singleton.1 new]
      exact ⟨s.stream.counter, by simp⟩
  case gone =>
    intro ref active
    rw [List.map_append, List.map_singleton, List.mem_append, List.mem_singleton]
    by_cases old : ref < s.stream.objects.length
    · left
      apply inv.gone
      simpa [isActive, List.getElem?_append_left old] using active
    · right
      have bound : ref < s.stream.objects.length + 1 := by
        obtain ⟨sub, here, -⟩ := Option.any_eq_true .. |>.1 active
        simpa using (List.getElem?_eq_some_iff.1 here).1
      show ref = s.stream.objects.length
      omega
  case distinct =>
    rw [List.map_append, List.map_singleton, List.nodup_append]
    refine ⟨inv.distinct, by simp, ?_⟩
    intro a old b new same
    obtain ⟨entry, member, rfl⟩ := List.mem_map.1 old
    have bound := inv.bound member
    have fresh : b = s.stream.objects.length := List.mem_singleton.1 new
    omega
  case count =>
    show int32 (s.stream.counter + 1) = ((s.live ++ [_]).length : Nat)
    rw [int32_of_range (by omega) (by omega), count, List.length_append, List.length_singleton]
    omega
  case room =>
    rw [List.length_append, List.length_singleton]
    omega

theorem isActive_modify {s : EventStream Evt H} {subscriptions : List Nat} {counter : Int} (subscription ref : Nat) :
    isActive ⟨s.objects.modify subscription fun sub => { sub with active := false }, subscriptions, counter⟩ ref =
      (s.isActive ref && ref != subscription) := by
  simp only [isActive, List.getElem?_modify]
  by_cases same : subscription = ref
  · subst same
    cases s.objects[subscription]? <;> simp
  · simp [same, Ne.symm same]

/-- What `Unsubscribe` leaves of a live subscription and of the entry it finds. -/
theorem unsubscribe_live {s : EventStream Evt H} {subscription found : Nat} (active : s.isActive subscription = true)
    (first : s.subscriptions.find? (s.sameId subscription) = some found) :
    s.unsubscribe (some subscription) =
      ⟨s.objects.modify subscription fun sub => { sub with active := false }, s.subscriptions.erase found,
        int32 (s.counter - 1)⟩ := by
  obtain ⟨same, before, after, split, others⟩ := List.find?_eq_some_iff_append.1 first
  have some_ : s.subscriptions.any (s.sameId subscription) = true := by
    rw [List.any_eq_true]
    exact ⟨found, by simp [split], same⟩
  have erased : s.subscriptions.eraseP (s.sameId subscription) = s.subscriptions.erase found := by
    have elsewhere : found ∉ before := fun member => by simpa [same] using others found member
    rw [split, List.erase_append_right _ elsewhere, List.erase_cons_head, List.eraseP_append_right _ fun b member => by
      simpa using others b member, List.eraseP_cons_of_pos same]
  simp only [unsubscribe, active, some_, if_true, erased]

/-- A subscription that is live has an entry with its id. -/
theorem Faithful.finds_some {s : State Evt H} (inv : Faithful s) {subscription : Nat}
    (active : s.stream.isActive subscription = true) :
    ∃ found, s.stream.subscriptions.find? (s.stream.sameId subscription) = some found ∧
      found ∈ s.live.map Live.subscription := by
  have member := inv.gone subscription active
  cases first : s.stream.subscriptions.find? (s.stream.sameId subscription) with
  | none =>
    rw [← inv.entries] at member
    have other := List.find?_eq_none.1 first subscription member
    simp [sameId] at other
  | some found => exact ⟨found, rfl, inv.entries ▸ List.mem_of_find?_eq_some first⟩

/-- The list of live subscriptions without one of them. -/
theorem Faithful.live_without {s : State Evt H} (inv : Faithful s) {subscription : Nat}
    (active : s.stream.isActive subscription = true) :
    (s.live.filter (·.subscription ≠ subscription)).map Live.subscription = (s.live.map Live.subscription).erase subscription ∧
    (s.live.filter (·.subscription ≠ subscription)).length + 1 = s.live.length := by
  have entries : (s.live.filter (·.subscription ≠ subscription)).map Live.subscription =
      (s.live.map Live.subscription).erase subscription := by
    rw [inv.distinct.erase_eq_filter, List.filter_map]
    congr 1
    apply List.filter_congr
    intro entry member
    exact Bool.eq_iff_iff.2 (by simp)
  have member := inv.gone subscription active
  have shorter := List.length_erase_of_mem member
  have some_ := List.length_pos_of_mem member
  rw [← entries, List.length_map, List.length_map] at shorter
  rw [List.length_map] at some_
  exact ⟨entries, by omega⟩

theorem Faithful.unsubscribed {s : State Evt H} (inv : Faithful s) {subscription : Nat} (found : finds s.stream subscription) :
    Faithful ⟨s.stream.unsubscribe (some subscription), s.live.filter (·.subscription ≠ subscription)⟩ := by
  have count := inv.count
  have room := inv.room
  cases active : s.stream.isActive subscription with
  | false =>
    have all : s.live.filter (·.subscription ≠ subscription) = s.live := by
      rw [List.filter_eq_self]
      intro entry member
      have here := inv.active member
      simp only [decide_eq_true_eq]
      rintro rfl
      simp [active] at here
    rw [all]
    simpa only [unsubscribe, active, Bool.false_eq_true, if_false] using inv
  | true =>
    obtain ⟨entries, length⟩ := inv.live_without active
    rw [unsubscribe_live active (found active)]
    constructor
    case entries =>
      rw [entries, inv.entries]
    case object =>
      intro entry member
      obtain ⟨old, different⟩ := List.mem_filter.1 member
      obtain ⟨id, here⟩ := inv.object entry old
      refine ⟨id, ?_⟩
      have other : entry.subscription ≠ subscription := by simpa using different
      rw [List.getElem?_modify, here]
      exact congrArg some (if_neg other.symm)
    case gone =>
      intro ref still
      rw [isActive_modify] at still
      rw [entries, List.mem_erase_of_ne (by simpa using (Bool.and_eq_true_iff.1 still).2)]
      exact inv.gone ref (Bool.and_eq_true_iff.1 still).1
    case distinct =>
      rw [entries]
      exact inv.distinct.erase subscription
    case count =>
      show int32 (s.stream.counter - 1) = _
      rw [int32_of_range (by omega) (by omega)]
      show s.stream.counter - 1 = ((s.live.filter (·.subscription ≠ subscription)).length : Int)
      omega
    case room =>
      show ((s.live.filter (·.subscription ≠ subscription)).length : Int) < 2 ^ 31
      omega

/-- An `Unsubscribe` that finds another entry drops a subscription that stays live: no
event reaches it any more. -/
theorem Faithful.drops {s : State Evt H} (inv : Faithful s) {subscription : Nat} (misses : ¬ finds s.stream subscription) :
    ∃ lost ∈ s.live, lost.subscription ≠ subscription ∧
      ∀ evt handler, (lost.subscription, handler) ∉ (s.stream.unsubscribe (some subscription)).publish evt := by
  obtain ⟨active, other⟩ := Classical.not_imp.1 misses
  obtain ⟨found, first, live⟩ := inv.finds_some active
  obtain ⟨lost, member, rfl⟩ := List.mem_map.1 live
  refine ⟨lost, member, fun same => other (by rw [first, same]), ?_⟩
  intro evt handler called
  rw [unsubscribe_live active first] at called
  obtain ⟨ref, entry, answer⟩ := List.mem_filterMap.1 called
  have kept := (List.mem_filter.1 entry).1
  have distinct := inv.distinct
  rw [← inv.entries] at distinct
  obtain ⟨sub, -, answer⟩ := Option.bind_eq_some_iff.1 answer
  split at answer
  · cases answer
    exact distinct.not_mem_erase kept
  · cases answer

end Protoactor.Actor.EventStream
