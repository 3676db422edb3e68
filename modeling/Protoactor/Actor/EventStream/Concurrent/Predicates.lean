import Protoactor.Actor.EventStream.Concurrent

/-!
# What a predicate guards

A subscription can be found by `Publish` before its predicate has been stored, and as long as it
has none it takes every event.
-/

namespace Protoactor.Actor.EventStream.Concurrent
set_option autoImplicit false
open Lib

variable {Evt H : Type} {s s' t : State Evt H} {i : Nat} {l : Label Evt H} {ls : List (Label Evt H)}

/-- No handler has been called with an event that the predicate it was subscribed with rejects. -/
def Guarded (s : State Evt H) : Prop :=
  ∀ subscription evt, .entered subscription evt ∈ s.history →
    ∀ predicate, s.wanted[subscription]? = some (some predicate) → predicate evt = true

/-- A `Publish` that comes to a subscription whose predicate has still to be stored has an event
that the predicate accepts. -/
def storedFirst (s : State Evt H) : Label Evt H → Prop
  | .run i => ∀ evt subscription subs below, s.threads i = .publish evt (subscription :: subs) :: below →
      ∀ j predicate, .assign subscription predicate ∈ s.threads j → predicate evt = true
  | _ => True

/-! ## The invariant -/

/-- Each predicate is the wanted one, or waits to be stored. -/
structure Stored (s : State Evt H) : Prop where
  sizes : (predicates s.stream).length = s.wanted.length
  stored : ∀ r, (predicates s.stream)[r]? = s.wanted[r]? ∨
    (predicates s.stream)[r]? = some none ∧ ∃ j predicate, .assign r predicate ∈ s.threads j
  waiting : ∀ j r predicate, .assign r predicate ∈ s.threads j → s.wanted[r]? = some (some predicate)

theorem stored_init : Stored (init : State Evt H) where
  sizes := rfl
  stored := fun r => .inl rfl
  waiting := fun j r predicate member => by cases member

/-- A step that stores no predicate: other frames come and go. -/
theorem Stored.replaced (inv : Stored s) {stream : EventStream Evt H} {history : List (Happened Evt)}
    (gone : List (Frame Evt)) {below : List (Frame Evt)} (new : List (Frame Evt)) (same : predicates stream = predicates s.stream)
    (top : s.threads i = gone ++ below) (none : ∀ r predicate, Frame.assign r predicate ∉ gone)
    (none' : ∀ r predicate, Frame.assign r predicate ∉ new) :
    Stored ({ s with stream := stream, history := history }.put i (new ++ below)) := by
  have assigns : ∀ j r predicate, Frame.assign r predicate ∈ ({ s with stream := stream, history := history }.put i
      (new ++ below)).threads j ↔ .assign r predicate ∈ s.threads j := by
    intro j r predicate
    rw [put_threads]
    split
    · rename_i same
      rw [same, top, List.mem_append, List.mem_append]
      simp [none, none']
    · rfl
  constructor
  case sizes => exact same ▸ inv.sizes
  case stored =>
    intro r
    refine (inv.stored r).imp (fun equal => ?_) fun ⟨unset, j, predicate, member⟩ =>
      ⟨?_, j, predicate, (assigns j r predicate).2 member⟩
    · exact same ▸ equal
    · exact same ▸ unset
  case waiting => exact fun j r predicate member => inv.waiting j r predicate ((assigns j r predicate).1 member)

/-- A new subscription, whose predicate waits in a frame if it has one. -/
theorem Stored.subscribed (inv : Stored s) (handler : H) {wanted : Option (Evt → Bool)} {threads : Nat → List (Frame Evt)}
    (old : ∀ j frame, frame ∈ s.threads j → frame ∈ threads j)
    (new : ∀ j frame, frame ∈ threads j → frame ∈ s.threads j ∨
      ∃ predicate, wanted = some predicate ∧ frame = .assign s.stream.objects.length predicate)
    (waits : ∀ predicate, wanted = some predicate → ∃ j, .assign s.stream.objects.length predicate ∈ threads j) :
    Stored { s with stream := s.stream.subscribe handler, wanted := s.wanted ++ [wanted], threads := threads } := by
  have size : s.stream.objects.length = s.wanted.length := by rw [← length_predicates, inv.sizes]
  constructor
  case sizes => simp [inv.sizes]
  case stored =>
    intro r
    simp only [predicates_subscribe]
    by_cases last : r = s.wanted.length
    · subst last
      rw [← inv.sizes, List.getElem?_concat_length, inv.sizes, List.getElem?_concat_length]
      cases wanted with
      | none => exact .inl rfl
      | some predicate =>
        obtain ⟨j, member⟩ := waits predicate rfl
        exact .inr ⟨rfl, j, predicate, size ▸ member⟩
    · have apart : ∀ {w : Option (Evt → Bool)} {ws : List (Option (Evt → Bool))}, ws.length = s.wanted.length →
          (ws ++ [w])[r]? = ws[r]? := by
        intro w ws same
        rcases Nat.lt_or_ge r ws.length with inside | outside
        · rw [List.getElem?_append_left inside]
        · rw [List.getElem?_eq_none (by simp; omega), List.getElem?_eq_none outside]
      rw [apart inv.sizes, apart rfl]
      exact (inv.stored r).imp_right fun ⟨unset, j, predicate, member⟩ => ⟨unset, j, predicate, old j _ member⟩
  case waiting =>
    intro j r predicate member
    rcases new j _ member with before | ⟨predicate', want, here⟩
    · exact pool_grow (inv.waiting j r predicate before) _
    · cases here
      rw [size, want, List.getElem?_concat_length]

/-- The store. -/
theorem Stored.assigned (inv : Stored s) {r : Nat} {predicate : Evt → Bool} {below : List (Frame Evt)}
    (top : s.threads i = .assign r predicate :: below) :
    Stored ({ s with stream := setPredicate r predicate s.stream }.put i below) := by
  have here : .assign r predicate ∈ s.threads i := top ▸ List.mem_cons_self
  constructor
  case sizes =>
    show (predicates (setPredicate r predicate s.stream)).length = s.wanted.length
    rw [predicates_setPredicate, List.length_modify, inv.sizes]
  case waiting =>
    intro j r' predicate' member
    rw [put_threads] at member
    split at member
    · exact inv.waiting i r' predicate' (top ▸ List.mem_cons_of_mem _ member)
    · exact inv.waiting j r' predicate' member
  case stored =>
    intro r'
    show (predicates (setPredicate r predicate s.stream))[r']? = s.wanted[r']? ∨
      (predicates (setPredicate r predicate s.stream))[r']? = some none ∧ _
    rw [predicates_setPredicate, List.getElem?_modify]
    by_cases same : r = r'
    · subst same
      have want := inv.waiting i r predicate here
      obtain ⟨bound, -⟩ := List.getElem?_eq_some_iff.1 want
      rw [← inv.sizes] at bound
      refine .inl ?_
      rw [List.getElem?_eq_getElem bound, want]
      simp
    · simp only [same, if_false, id_map']
      refine (inv.stored r').imp_right fun ⟨unset, j, predicate', member⟩ => ⟨unset, j, predicate', ?_⟩
      -- what still waits for another subscription is below, or on another thread
      rw [put_threads]
      split
      · rename_i same'
        subst same'
        rw [top] at member
        rcases List.mem_cons.1 member with this | inside
        · cases this
          exact absurd rfl same
        · exact inside
      · exact member

theorem Stored.step (inv : Stored s) (h : Stepped s i s') : Stored s' := by
  cases h with
  | nothing => exact inv
  | subscribed handler =>
    exact inv.subscribed handler (fun _ _ member => member) (fun _ _ member => .inl member) (by simp)
  | subscribing handler predicate =>
    refine inv.subscribed handler (fun j frame member => ?_) (fun j frame member => ?_) fun predicate' want => ⟨i, ?_⟩
    · simp only
      split
      · rename_i same; exact List.mem_cons_of_mem _ (same ▸ member)
      · exact member
    · simp only at member
      split at member
      · rename_i same
        rcases List.mem_cons.1 member with here | old
        · exact .inr ⟨predicate, rfl, here⟩
        · exact .inl (same ▸ old)
      · exact .inl member
    · cases want
      simp
  | assigned top => exact inv.assigned top
  | @found r bound => exact inv.replaced [] [.remove r] rfl rfl (by simp) (by simp)
  | @missed r bound gone => exact inv.replaced [] [.leave r] rfl rfl (by simp) (by simp)
  | copied evt => exact inv.replaced [] [.publish evt _] rfl rfl (by simp) (by simp)
  | @removed r below top => exact inv.replaced [_] [.leave r] (predicates_unsubscribe _ _) top (by simp) (by simp)
  | @rejected evt r subs below top => exact inv.replaced [_] [.publish evt subs] rfl top (by simp) (by simp)
  | @accepted evt r subs below top => exact inv.replaced [_] [.calling evt r subs] rfl top (by simp) (by simp)
  | left top => exact inv.replaced [_] [] rfl top (by simp) (by simp)
  | @entered evt r subs below top =>
    exact inv.replaced [_] [.handler r evt, .publish evt subs] rfl top (by simp) (by simp)
  | ended gone top finished => exact inv.replaced gone [] rfl top finished (by simp)

theorem keeps_stored : Machine.Keeps (step : Machine (State Evt H) (Label Evt H)) Machine.free Stored :=
  fun _ _ _ inv _ act => inv.step (stepped act)

/-- The event passes the predicate that the subscription has been made for. -/
def Passes (s : State Evt H) (subscription : Nat) (evt : Evt) : Prop :=
  ∃ predicate, s.wanted[subscription]? = some predicate ∧ predicate.all (· evt) = true

/-- Every event that is let through passes. -/
structure Guarding (s : State Evt H) : Prop where
  calling : ∀ j evt r subs, .calling evt r subs ∈ s.threads j → Passes s r evt
  entered : ∀ r evt, .entered r evt ∈ s.history → Passes s r evt

theorem guarding_init : Guarding (init : State Evt H) where
  calling := fun j evt r subs member => by cases member
  entered := fun r evt member => by cases member

theorem Guarding.guarded (inv : Guarding s) : Guarded s := by
  intro r evt member predicate wanted
  obtain ⟨predicate', wanted', pass⟩ := inv.entered r evt member
  rw [wanted] at wanted'
  cases wanted'
  simpa using pass

/-- What is wanted stays wanted. -/
theorem Passes.step {r : Nat} {evt : Evt} (h : Stepped s i s') (pass : Passes s r evt) : Passes s' r evt := by
  obtain ⟨predicate, here, pass⟩ := pass
  cases h with
  | subscribed | subscribing => exact ⟨predicate, pool_grow here _, pass⟩
  | _ => exact ⟨predicate, here, pass⟩

/-- What the test of the predicate has let through is let through by the predicate that is
wanted, if that has been stored or would do so. -/
theorem Stored.passes (inv : Stored s) {r : Nat} {evt : Evt} (accept : accepts s.stream evt r = true)
    (first : ∀ j predicate, .assign r predicate ∈ s.threads j → predicate evt = true) : Passes s r evt := by
  obtain ⟨predicate, here, pass⟩ := accepts_iff.1 accept
  rcases inv.stored r with same | ⟨-, j, predicate', member⟩
  · exact ⟨predicate, same ▸ here, pass⟩
  · exact ⟨some predicate', inv.waiting j r predicate' member, by simp [first j predicate' member]⟩

theorem keeps_guarding :
    Machine.Keeps (step : Machine (State Evt H) (Label Evt H)) storedFirst fun s => Stored s ∧ Guarding s := by
  refine Machine.Keeps.with (keeps_stored.mono fun _ _ _ => trivial) fun s l s' stored inv first act => ?_
  have h := stepped act
  constructor
  case calling =>
    intro j evt r subs member
    rcases h.fresh member with fresh | ⟨k, old⟩
    · cases fresh with
      | accepted top accept =>
        rw [eq_run act top (by simp)] at first
        exact (stored.passes accept (first _ _ _ _ top)).step h
    · exact (inv.calling k evt r subs old).step h
  case entered =>
    intro r evt member
    rcases h.history with same | ⟨r', below, top, now⟩ | ⟨evt', r', subs, before, now⟩
    · exact (inv.entered r evt (same ▸ member)).step h
    · rw [now] at member
      exact (inv.entered r evt (by simpa using member)).step h
    · rw [now] at member
      rcases List.mem_append.1 member with old | this
      · exact (inv.entered r evt old).step h
      · cases List.mem_singleton.1 this
        exact (inv.calling l.thread evt r subs before).step h

/-! ## Results -/

/-- **Predicates guard** where no `Publish` comes between the two stores of `SubscribeWithPredicate`. -/
theorem guarded_of_storedFirst (h : Machine.Run step storedFirst (init : State Evt H) ls t) : Guarded t :=
  (h.keeps keeps_guarding ⟨stored_init, guarding_init⟩).2.guarded

/-- A `Publish` comes between the two stores with an event that the predicate accepts. -/
theorem guarded_accepted : ∃ t : State Bool Unit, t.history = [.entered 0 true] ∧ t.wanted = [some id] ∧ Guarded t := by
  have run : ∃ t : State Bool Unit, Machine.Run step storedFirst init
      [.call 0 (.subscribeWithPredicate () id), .call 1 (.publish true), .run 1, .run 1, .run 0] t ∧
        t.history = [.entered 0 true] ∧ t.wanted = [some id] := by
    refine ⟨_, .cons rfl trivial (.cons rfl trivial (.cons rfl ?_ (.cons rfl ?_ (.cons rfl ?_ (.nil _))))), rfl, rfl⟩
    · intro evt subscription subs below top j predicate member
      cases top
      by_cases first : j = 1
      · subst first; cases List.mem_singleton.1 member
      · by_cases second : j = 0
        · subst second; cases List.mem_singleton.1 member; rfl
        · simp [State.put, init, first, second] at member
    · intro evt subscription subs below top
      cases top
    · intro evt subscription subs below top
      cases top
  obtain ⟨t, run, entered, wanted⟩ := run
  exact ⟨t, entered, wanted, guarded_of_storedFirst run⟩

/-- A thread publishes while another one subscribes, and the handler has an event that its
predicate rejects. -/
theorem unguarded : ¬ ∀ ls (t : State Bool Unit), Machine.Run step Machine.free init ls t → Guarded t := by
  intro always
  have run : ∃ t : State Bool Unit, Machine.exec step [.call 0 (.subscribeWithPredicate () id), .call 1 (.publish false),
      .run 1, .run 1] init = some t ∧ t.history = [.entered 0 false] ∧ t.wanted = [some id] := ⟨_, rfl, rfl, rfl⟩
  obtain ⟨t, exec, entered, wanted⟩ := run
  have guarded := always _ t (Machine.free_of_exec exec) 0 false (by rw [entered]; exact List.mem_singleton_self _) id
    (by rw [wanted]; rfl)
  cases guarded

end Protoactor.Actor.EventStream.Concurrent
