import Protoactor.Actor.EventStream.Concurrent.Predicates

/-!
# After `Unsubscribe`

`Publish` does not look at `active_` again once it has its copy, so a handler can be entered after
its subscription has gone, also on one thread, from a handler that comes before it. Where no copy
has the subscription ahead of it, the handler is left alone.
-/

namespace Protoactor.Actor.EventStream.Concurrent
set_option autoImplicit false
open Lib

variable {Evt H : Type} {s s' t : State Evt H} {i : Nat} {l : Label Evt H} {ls : List (Label Evt H)}
  {stream : EventStream Evt H} {r : Nat}

/-- No handler has been entered after `Unsubscribe` of its subscription has returned. -/
def Unentered (history : List (Happened Evt)) : Prop :=
  history.Pairwise fun before after => ∀ subscription evt, before = .returned subscription → after ≠ .entered subscription evt

/-- A `Publish` still has the subscription ahead of it, with an event that the predicate, as it is
now, lets through. -/
def Ahead (stream : EventStream Evt H) (r : Nat) : Frame Evt → Prop
  | .publish evt subs => r ∈ subs ∧ accepts stream evt r = true
  | .calling evt subscription subs => r = subscription ∨ r ∈ subs ∧ accepts stream evt r = true
  | _ => False

/-- When `Unsubscribe` returns, no `Publish` has the subscription ahead of it. -/
def noneAhead (s : State Evt H) : Label Evt H → Prop
  | .run i => ∀ r below, s.threads i = .leave r :: below → ∀ j frame, frame ∈ s.threads j → ¬ Ahead s.stream r frame
  | _ => True

/-! ## Subscriptions that have gone -/

/-- The subscription has been deactivated. -/
def Gone (stream : EventStream Evt H) (r : Nat) : Prop :=
  ∃ sub, stream.objects[r]? = some sub ∧ sub.active = false

theorem gone_of_inactive (bound : r < stream.objects.length) (inactive : stream.isActive r = false) : Gone stream r := by
  refine ⟨_, List.getElem?_eq_getElem bound, ?_⟩
  simpa [isActive, List.getElem?_eq_getElem bound] using inactive

theorem Gone.inactive (gone : Gone stream r) : stream.isActive r = false := by
  obtain ⟨sub, here, inactive⟩ := gone
  simp [isActive, here, inactive]

/-- The objects after `Unsubscribe`: its own is inactive, the others stay. -/
theorem unsubscribe_objects (stream : EventStream Evt H) (r r' : Nat) :
    (stream.unsubscribe (some r)).objects[r']? =
      stream.objects[r']?.map fun sub => if r = r' then { sub with active := false } else sub := by
  have modified : (stream.objects.modify r fun sub => { sub with active := false })[r']? =
      stream.objects[r']?.map fun sub => if r = r' then { sub with active := false } else sub := by
    rw [List.getElem?_modify]
    cases stream.objects[r']? with
    | none => rfl
    | some sub => by_cases same : r = r' <;> simp [same]
  unfold unsubscribe
  simp only
  split
  · split <;> exact modified
  · rename_i inactive
    cases here : stream.objects[r']? with
    | none => rfl
    | some sub =>
      by_cases same : r = r'
      · subst same
        have off : sub.active = false := by simpa [isActive, here] using inactive
        cases sub
        simp_all
      · simp [same]

theorem gone_unsubscribe (bound : r < stream.objects.length) : Gone (stream.unsubscribe (some r)) r := by
  rw [Gone, unsubscribe_objects, List.getElem?_eq_getElem bound]
  exact ⟨_, rfl, by simp⟩

/-- Nobody activates a subscription again. -/
theorem Gone.changed (gone : Gone s.stream r) (change : Changed s i stream) : Gone stream r := by
  obtain ⟨sub, here, inactive⟩ := gone
  cases change with
  | same => exact ⟨sub, here, inactive⟩
  | subscribe handler => exact ⟨sub, pool_grow here _, inactive⟩
  | @setPredicate r' predicate =>
    by_cases same : r' = r
    · exact ⟨{ sub with predicate := some predicate }, by simp [Concurrent.setPredicate, same, here], inactive⟩
    · exact ⟨sub, by simp [Concurrent.setPredicate, same, here], inactive⟩
  | unsubscribe r' =>
    rw [Gone, unsubscribe_objects, here]
    by_cases same : r' = r
    · exact ⟨{ sub with active := false }, by simp [same], rfl⟩
    · exact ⟨sub, by simp [same], inactive⟩

theorem Gone.bound (gone : Gone stream r) : r < stream.objects.length := by
  obtain ⟨sub, here, -⟩ := gone
  exact (List.getElem?_eq_some_iff.1 here).1

/-! ## Subscriptions that are ahead -/

/-- A predicate is stored once, where there was none, so less is let through later. -/
theorem Stored.accepted_before (inv : Stored s) (change : Changed s i stream) (bound : r < s.stream.objects.length)
    {evt : Evt} (accept : accepts stream evt r = true) : accepts s.stream evt r = true := by
  cases change with
  | same => exact accept
  | subscribe handler =>
    rw [accepts_iff, predicates_subscribe, List.getElem?_append_left (by rw [length_predicates]; exact bound)] at accept
    exact accepts_iff.2 accept
  | unsubscribe r' =>
    rw [accepts_iff, predicates_unsubscribe] at accept
    exact accepts_iff.2 accept
  | @setPredicate r' predicate before =>
    rw [accepts_iff, predicates_setPredicate, List.getElem?_modify] at accept
    by_cases same : r' = r
    · subst same
      rcases inv.stored r' with stored | ⟨unset, -⟩
      · have now := stored.trans (inv.waiting i r' predicate before)
        rw [now] at accept
        exact accepts_iff.2 ⟨some predicate, now, by simpa using accept⟩
      · exact accepts_iff.2 ⟨none, unset, rfl⟩
    · simp only [same, if_false, id_map'] at accept
      exact accepts_iff.2 accept

theorem Stored.ahead_before (inv : Stored s) (change : Changed s i stream) (bound : r < s.stream.objects.length)
    {frame : Frame Evt} (ahead : Ahead stream r frame) : Ahead s.stream r frame := by
  cases frame with
  | publish evt subs => exact ⟨ahead.1, inv.accepted_before change bound ahead.2⟩
  | calling evt subscription subs =>
    exact ahead.imp_right fun ⟨member, accept⟩ => ⟨member, inv.accepted_before change bound accept⟩
  | assign | remove | leave | handler => exact ahead.elim

/-- A copy holds active subscriptions only, and what is ahead of a loop was so before its last step. -/
theorem Fresh.ahead {frame : Frame Evt} (fresh : Fresh s i s' frame) (gone : Gone s.stream r)
    (ahead : Ahead s'.stream r frame) : ∃ old ∈ s.threads i, Ahead s.stream r old := by
  cases fresh with
  | assign | remove | missed | removed | handler => exact ahead.elim
  | copied evt same =>
    have active := (List.mem_filter.1 ahead.1).2
    rw [gone.inactive] at active
    cases active
  | rejected before same => exact ⟨_, before, List.mem_cons_of_mem _ ahead.1, same ▸ ahead.2⟩
  | accepted top accept same =>
    refine ⟨_, top ▸ List.mem_cons_self, ?_⟩
    rcases ahead with rfl | ⟨member, accept'⟩
    · exact ⟨List.mem_cons_self, accept⟩
    · exact ⟨List.mem_cons_of_mem _ member, same ▸ accept'⟩
  | resumed before same => exact ⟨_, before, .inr ⟨ahead.1, same ▸ ahead.2⟩⟩

/-! ## The invariant -/

structure Parted (s : State Evt H) : Prop where
  removing : ∀ j r, .remove r ∈ s.threads j → r < s.stream.objects.length
  leaving : ∀ j r, .leave r ∈ s.threads j → Gone s.stream r
  returned : ∀ r, .returned r ∈ s.history → Gone s.stream r
  behind : ∀ r, .returned r ∈ s.history → ∀ j frame, frame ∈ s.threads j → ¬ Ahead s.stream r frame
  unentered : Unentered s.history

theorem parted_init : Parted (init : State Evt H) where
  removing := fun j r member => by cases member
  leaving := fun j r member => by cases member
  returned := fun r member => by cases member
  behind := fun r member => by cases member
  unentered := .nil

/-- The stream makes new objects and never drops one. -/
theorem Changed.grows (change : Changed s i stream) : s.stream.objects.length ≤ stream.objects.length := by
  cases change with
  | same => exact Nat.le_refl _
  | subscribe handler => simp [EventStream.subscribe]
  | setPredicate => exact Nat.le_of_eq (List.length_modify _ _ _).symm
  | unsubscribe r =>
    have same := congrArg List.length (predicates_unsubscribe s.stream (some r))
    simp only [length_predicates] at same
    omega

/-- Of a subscription whose `Unsubscribe` has returned, or returns now. -/
theorem Parted.apart (inv : Parted s) (none : noneAhead s l) (act : step s l = some s') (member : .returned r ∈ s'.history) :
    Gone s.stream r ∧ ∀ j frame, frame ∈ s.threads j → ¬ Ahead s.stream r frame := by
  have old : .returned r ∈ s.history → Gone s.stream r ∧ ∀ j frame, frame ∈ s.threads j → ¬ Ahead s.stream r frame :=
    fun before => ⟨inv.returned r before, inv.behind r before⟩
  rcases (stepped act).history with same | ⟨r', below, top, now⟩ | ⟨evt, r', subs, -, now⟩
  · exact old (same ▸ member)
  · rw [now] at member
    rcases List.mem_append.1 member with before | this
    · exact old before
    · cases List.mem_singleton.1 this
      rw [eq_run act top (by simp)] at none
      exact ⟨inv.leaving l.thread r (top ▸ List.mem_cons_self), none r below top⟩
  · rw [now] at member
    exact old (by simpa using member)

theorem keeps_parted :
    Machine.Keeps (step : Machine (State Evt H) (Label Evt H)) noneAhead fun s => Stored s ∧ Parted s := by
  refine Machine.Keeps.with (keeps_stored.mono fun _ _ _ => trivial) fun s l s' stored inv none act => ?_
  have h := stepped act
  have change := h.changed
  constructor
  case removing =>
    intro j r member
    rcases h.fresh member with fresh | ⟨k, old⟩
    · cases fresh with
      | remove bound => exact Nat.lt_of_lt_of_le bound change.grows
    · exact Nat.lt_of_lt_of_le (inv.removing k r old) change.grows
  case leaving =>
    intro j r member
    rcases h.fresh member with fresh | ⟨k, old⟩
    · cases fresh with
      | missed bound inactive same => exact same ▸ gone_of_inactive bound inactive
      | removed before removed => exact removed ▸ gone_unsubscribe (inv.removing l.thread r before)
    · exact (inv.leaving k r old).changed change
  case returned => exact fun r member => (inv.apart none act member).1.changed change
  case behind =>
    intro r member j frame inside ahead
    obtain ⟨gone, clear⟩ := inv.apart none act member
    rcases h.fresh inside with fresh | ⟨k, old⟩
    · obtain ⟨before, there, ahead'⟩ := fresh.ahead gone ahead
      exact clear _ before there ahead'
    · exact clear k frame old (stored.ahead_before change gone.bound ahead)
  case unentered =>
    rcases h.history with same | ⟨r, below, top, now⟩ | ⟨evt, r, subs, before, now⟩
    · exact same ▸ inv.unentered
    · rw [now]
      refine List.pairwise_append.2 ⟨inv.unentered, List.pairwise_singleton _ _, fun a _ b last r' evt' _ => ?_⟩
      rw [List.mem_singleton.1 last]
      simp
    · rw [now]
      refine List.pairwise_append.2 ⟨inv.unentered, List.pairwise_singleton _ _, fun a member b last r' evt' here entered => ?_⟩
      rw [List.mem_singleton.1 last] at entered
      cases entered
      exact inv.behind r (here ▸ member) l.thread _ before (.inl rfl)

/-! ## Results -/

/-- **No handler is entered after `Unsubscribe` has returned**, where no copy still has the subscription ahead of it. -/
theorem unentered_of_noneAhead (h : Machine.Run step noneAhead (init : State Evt H) ls t) : Unentered t.history :=
  (h.keeps keeps_parted ⟨stored_init, parted_init⟩).2.unentered

/-- The handler returns, its subscription is dropped, and a second `Publish` copies nothing. -/
theorem unentered_unsubscribed : ∃ t : State Bool Unit,
    t.history = [.entered 0 true, .returned 0] ∧ Unentered t.history := by
  have run : ∃ t : State Bool Unit, Machine.Run step noneAhead init
      [.call 0 (.subscribe ()), .call 0 (.publish true), .run 0, .run 0, .call 0 (.unsubscribe (some 0)), .run 0, .run 0,
        .finish 0, .run 0, .call 0 (.publish false), .run 0] t ∧ t.history = [.entered 0 true, .returned 0] := by
    refine ⟨_, .cons rfl trivial (.cons rfl trivial (.cons rfl ?_ (.cons rfl ?_ (.cons rfl trivial (.cons rfl ?_
      (.cons rfl ?_ (.cons rfl trivial (.cons rfl ?_ (.cons rfl trivial (.cons rfl ?_ (.nil _))))))))))), rfl⟩
    all_goals
      intro r below top j frame member ahead
      cases top
    -- the handler is still running, above a loop that has nothing to come
    by_cases here : j = 0
    · subst here
      rcases List.mem_cons.1 member with rfl | member
      · exact ahead
      · rcases List.mem_cons.1 member with rfl | member
        · exact ahead
        · cases List.mem_singleton.1 member
          cases ahead.1
    · simp [State.put, State.record, init, here] at member
  obtain ⟨t, run, happened⟩ := run
  exact ⟨t, happened, unentered_of_noneAhead run⟩

/-- A handler of the same `Publish` unsubscribes the next one. -/
theorem entered_after_unsubscribe :
    ¬ ∀ ls (t : State Bool Unit), Machine.Run step Machine.free init ls t → Unentered t.history := by
  intro always
  have run : ∃ t : State Bool Unit, Machine.exec step [.call 0 (.subscribe ()), .call 0 (.subscribe ()),
      .call 0 (.publish true), .run 0, .run 0, .call 0 (.unsubscribe (some 1)), .run 0, .run 0, .finish 0, .run 0, .run 0]
        init = some t ∧ t.history = [.entered 0 true, .returned 1, .entered 1 true] := ⟨_, rfl, rfl⟩
  obtain ⟨t, exec, happened⟩ := run
  have unentered := always _ t (Machine.free_of_exec exec)
  rw [happened] at unentered
  have last := List.rel_of_pairwise_cons (List.pairwise_cons.1 unentered).2 List.mem_cons_self
  exact last 1 true rfl rfl

end Protoactor.Actor.EventStream.Concurrent
