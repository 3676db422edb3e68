import Protoactor.Actor.EventStream.Subscribers

/-!
# What an event is cast to

A publish goes well exactly when the event fits every subscriber, and then nobody but the
subscribers that it is for does anything. Subscribers get in each other's way: those of the
`DeadLetterProcess` have no predicate and take every event for a `DeadLetterEvent`, and the
predicates of the others take a `DeadLetterEvent` for a `SystemMessage`.
-/

namespace Protoactor.Actor.EventStream
set_option autoImplicit false
open Lib

variable {U K M : Type} {evt : Event U K M} {sub : Subscriber}

/-! ## One subscriber -/

/-- The subscriber does what it does without a wrong cast, and nothing for a foreign event. -/
def Quiet (evt : Event U K M) (sub : Subscriber) : Prop :=
  ∃ effects, notify evt sub = .ok effects ∧ (effects ≠ [] → own sub evt = true)

theorem quiet_none (none : notify evt sub = .ok []) : Quiet evt sub := ⟨[], none, fun some => absurd rfl some⟩

theorem quiet_own {effects : List (Effect U K M)} (some : notify evt sub = .ok effects) (mine : own sub evt = true) :
    Quiet evt sub := ⟨effects, some, fun _ => mine⟩

/-- A `GossipUpdate` with the key of the topology is cast further. -/
theorem handleGossipUpdate_topology {value : Event U K M} (fit : fitsTopology value = true) :
    ∃ effects, handleGossipUpdate (.gossipUpdate "topology" value) = .ok effects := by
  cases value with
  | null => exact ⟨[], rfl⟩
  | clusterTopology topology => exact ⟨updateTopology (some topology), rfl⟩
  | _ => cases fit

theorem handleGossipUpdate_other {key : String} (other : key ≠ "topology") (value : Event U K M) :
    handleGossipUpdate (.gossipUpdate key value) = .ok [] := by
  have stop : ¬ (key = "topology" ∧ value.isNull = false) := fun ⟨here, _⟩ => other here
  simp only [handleGossipUpdate, Event.asSystemMessage, Event.isSystem, Event.toGossipUpdate, bind, Except.bind, stop,
    if_true, if_false]
  rfl

/-- A `GossipUpdate` whose value is no topology although the key says so. -/
theorem handleGossipUpdate_miscast {value : Event U K M} (unfit : fitsTopology value = false) :
    ∃ miscast, handleGossipUpdate (.gossipUpdate "topology" value) = .error miscast := by
  cases value with
  | null => cases unfit
  | clusterTopology => cases unfit
  | deadLetter => exact ⟨.systemMessage, rfl⟩
  | object systemMessage =>
    cases systemMessage with
    | false => exact ⟨.systemMessage, rfl⟩
    | true => exact ⟨.clusterTopology, rfl⟩
  | _ => exact ⟨.clusterTopology, rfl⟩

/-- A predicate sends away what the subscriber is not for. -/
theorem notify_foreign {accepts : Event U K M → Except Miscast Bool} (filtered : predicate sub = some accepts)
    (system : evt.isSystem = true) (foreign : own sub evt = false) : notify evt sub = .ok [] := by
  have same : evt.asSystemMessage = .ok evt := if_pos system
  cases sub with
  | deadLetterResponse | deadLetterWatch => cases filtered
  | memberList =>
    have other : evt.toGossipUpdate = none := by cases evt <;> first | rfl | cases foreign
    simp only [notify, predicate, same, other, bind, Except.bind]
    rfl
  | cluster =>
    have other : evt.toClusterTopology = none := by cases evt <;> first | rfl | cases foreign
    simp only [notify, predicate, same, other, bind, Except.bind]
    rfl
  | endpointManager =>
    have other : evt.toEndpointTerminated = none := by cases evt <;> first | rfl | cases foreign
    have other' : evt.toEndpointConnected = none := by cases evt <;> first | rfl | cases foreign
    simp only [notify, predicate, same, other, other', bind, Except.bind]
    rfl

/-- Every predicate begins with a cast to `SystemMessage`. -/
theorem notify_unsystem {accepts : Event U K M → Except Miscast Bool} (filtered : predicate sub = some accepts)
    (other : evt.isSystem = false) : notify evt sub = .error .systemMessage := by
  have failed : evt.asSystemMessage = .error .systemMessage := if_neg (by simp [other])
  cases sub with
  | deadLetterResponse | deadLetterWatch => cases filtered
  | memberList | cluster | endpointManager => simp only [notify, predicate, failed, bind, Except.bind]

/-- What fits a subscriber with a predicate is a `SystemMessage`. -/
theorem system_of_fits {accepts : Event U K M → Except Miscast Bool} (filtered : predicate sub = some accepts)
    (fit : fits evt sub = true) : evt.isSystem = true := by
  cases sub with
  | deadLetterResponse | deadLetterWatch => cases filtered
  | cluster | endpointManager => exact fit
  | memberList =>
    cases evt with
    | gossipUpdate => rfl
    | _ => exact fit

theorem quiet_of_fits (fit : fits evt sub = true) : Quiet evt sub := by
  cases sub with
  | deadLetterResponse =>
    cases evt with
    | null => exact quiet_none rfl
    | deadLetter deadLetter => exact quiet_own rfl rfl
    | _ => cases fit
  | deadLetterWatch =>
    cases evt with
    | null => exact quiet_none rfl
    | deadLetter deadLetter =>
      have castable : ∃ watcher, asWatch deadLetter.message = .ok watcher := by
        cases message : deadLetter.message <;> first | exact ⟨_, rfl⟩ | simp [fits, message, fitsWatch] at fit
      obtain ⟨watcher, castable⟩ := castable
      have done : notify (M := M) (.deadLetter deadLetter) .deadLetterWatch =
          .ok ((watcher.toList.map (DeadLetterProcess.terminated deadLetter)).map .send) := by
        simp only [notify, predicate, handler, Event.asDeadLetterEvent, castable, bind, Except.bind]
        rfl
      exact quiet_own done rfl
    | _ => cases fit
  | memberList =>
    cases mine : own .memberList evt with
    | false => exact quiet_none (notify_foreign rfl (system_of_fits rfl fit) mine)
    | true =>
      cases evt with
      | gossipUpdate key value =>
        by_cases topology : key = "topology"
        · subst topology
          have castable : fitsTopology value = true := by simpa [fits] using fit
          obtain ⟨effects, done⟩ := handleGossipUpdate_topology castable
          exact quiet_own done mine
        · exact quiet_own (handleGossipUpdate_other topology value) mine
      | _ => cases mine
  | cluster =>
    cases mine : own .cluster evt with
    | false => exact quiet_none (notify_foreign rfl fit mine)
    | true =>
      cases evt with
      | clusterTopology topology => exact quiet_own rfl mine
      | _ => cases mine
  | endpointManager =>
    cases mine : own .endpointManager evt with
    | false => exact quiet_none (notify_foreign rfl fit mine)
    | true =>
      cases evt with
      | endpointTerminated address => exact quiet_own rfl mine
      | endpointConnected address => exact quiet_own rfl mine
      | _ => cases mine

theorem miscast_of_unfit (unfit : fits evt sub = false) : ∃ miscast, notify evt sub = .error miscast := by
  cases sub with
  | deadLetterResponse =>
    cases evt with
    | null | deadLetter => cases unfit
    | _ => exact ⟨.deadLetterEvent, rfl⟩
  | deadLetterWatch =>
    cases evt with
    | null => cases unfit
    | deadLetter deadLetter =>
      have wrong : asWatch deadLetter.message = .error .watch := by
        cases message : deadLetter.message <;> first | rfl | simp [fits, message, fitsWatch] at unfit
      refine ⟨.watch, ?_⟩
      simp only [notify, predicate, handler, Event.asDeadLetterEvent, wrong, bind, Except.bind]
    | _ => exact ⟨.deadLetterEvent, rfl⟩
  | memberList =>
    cases evt with
    | gossipUpdate key value =>
      obtain ⟨rfl, unfit⟩ : key = "topology" ∧ fitsTopology value = false := by simpa [fits] using unfit
      exact handleGossipUpdate_miscast unfit
    | _ => exact ⟨.systemMessage, notify_unsystem rfl unfit⟩
  | cluster | endpointManager => exact ⟨.systemMessage, notify_unsystem rfl unfit⟩

/-! ## A publish -/

theorem publishTo_cons {subs : List Subscriber} {effects : List (Effect U K M)} {rest : List (Subscriber × Effect U K M)}
    (first : notify evt sub = .ok effects) (others : publishTo evt subs = .ok rest) :
    publishTo evt (sub :: subs) = .ok (effects.map (sub, ·) ++ rest) := by
  simp only [publishTo, first, others, bind, Except.bind]
  rfl

theorem publishTo_miscast {subs : List Subscriber} (member : sub ∈ subs) {miscast : Miscast}
    (wrong : notify evt sub = .error miscast) : ∃ first, publishTo evt subs = .error first := by
  induction subs with
  | nil => cases member
  | cons other subs ih =>
    cases here : notify evt other with
    | error first => exact ⟨first, by simp only [publishTo, here, bind, Except.bind]⟩
    | ok effects =>
      rcases List.mem_cons.1 member with rfl | member
      · rw [wrong] at here
        cases here
      · obtain ⟨first, later⟩ := ih member
        exact ⟨first, by simp only [publishTo, here, later, bind, Except.bind]⟩

/-- **Subscribers touch only their own events** exactly where the event fits all of them. -/
theorem touches_own_iff {subs : List Subscriber} : TouchesOwn evt subs ↔ ∀ sub ∈ subs, fits evt sub = true := by
  constructor
  · rintro ⟨effects, done, -⟩ sub member
    cases fit : fits evt sub with
    | true => rfl
    | false =>
      obtain ⟨miscast, wrong⟩ := miscast_of_unfit fit
      obtain ⟨first, failed⟩ := publishTo_miscast member wrong
      rw [done] at failed
      cases failed
  · intro fit
    induction subs with
    | nil => exact ⟨[], rfl, nofun⟩
    | cons sub subs ih =>
      obtain ⟨rest, others, owned⟩ := ih fun sub member => fit sub (List.mem_cons_of_mem _ member)
      obtain ⟨effects, first, mine⟩ := quiet_of_fits (fit sub List.mem_cons_self)
      refine ⟨_, publishTo_cons first others, fun sub' effect member => ?_⟩
      rcases List.mem_append.1 member with here | later
      · obtain ⟨effect', listed, same⟩ := List.mem_map.1 here
        cases same
        exact mine (List.ne_nil_of_mem listed)
      · exact owned sub' effect later

/-- A dead `Watch`, in a system with a cluster. -/
theorem deadLetter_miscast : ¬ TouchesOwn (.deadLetter ⟨none, .watch none, none⟩ : Event Unit Unit Unit)
    [.deadLetterResponse, .deadLetterWatch, .memberList] := by
  intro good
  have fit := touches_own_iff.1 good .memberList (by decide)
  cases fit

/-! ## The stream -/

/-- The predicate as the stream knows it. -/
def verdict (sub : Subscriber) : Option (Event U K M → Bool) :=
  (predicate sub).map fun accepts evt => (accepts evt).toOption.getD false

/-- The `Subscribe` or `SubscribeWithPredicate` of a subscriber. -/
def subscribeAs (sub : Subscriber) (s : EventStream (Event U K M) Subscriber) : EventStream (Event U K M) Subscriber :=
  match verdict sub with
  | none => s.subscribe sub
  | some accepts => s.subscribeWithPredicate sub accepts

/-- The streams that only subscribers of the framework use. -/
inductive Framework : EventStream (Event U K M) Subscriber → Prop where
  | new : Framework .new
  | subscribed {s : EventStream (Event U K M) Subscriber} (sub : Subscriber) : Framework s → Framework (s.subscribeAs sub)
  | unsubscribed {s : EventStream (Event U K M) Subscriber} (subscription : Option Nat) :
      Framework s → Framework (s.unsubscribe subscription)

/-- Each subscription has the predicate of its subscriber. -/
theorem Framework.predicates {s : EventStream (Event U K M) Subscriber} (framework : Framework s) :
    ∀ object ∈ s.objects, object.predicate = verdict object.handler := by
  induction framework with
  | new => exact fun _ member => absurd member List.not_mem_nil
  | subscribed sub _ ih =>
    unfold subscribeAs
    cases filtered : verdict sub with
    | none => exact pool_all_new ih filtered.symm
    | some accepts =>
      simp only [subscribeWithPredicate, subscribe, modify_last]
      exact pool_all_new ih filtered.symm
  | unsubscribed subscription _ ih =>
    unfold unsubscribe
    split
    · exact ih
    · split
      · split <;> exact pool_modify _ ih fun _ own => own
      · exact ih

/-- What `notify` does where it goes well. -/
theorem notify_verdict {effects : List (Effect U K M)} (done : notify evt sub = .ok effects) :
    ((verdict sub).all (· evt) = true ∧ handler sub evt = .ok effects) ∨
      ((verdict sub).all (· evt) = false ∧ effects = []) := by
  unfold notify at done
  cases filtered : predicate (U := U) (K := K) (M := M) sub with
  | none =>
    rw [filtered] at done
    exact .inl ⟨by simp [verdict, filtered], done⟩
  | some accepts =>
    simp only [filtered] at done
    cases answer : accepts evt with
    | error miscast =>
      simp only [answer, bind, Except.bind] at done
      cases done
    | ok accepted =>
      cases accepted with
      | true =>
        simp only [answer, bind, Except.bind, if_true] at done
        exact .inl ⟨by simp [verdict, filtered, answer, Except.toOption], done⟩
      | false =>
        simp only [answer, bind, Except.bind] at done
        cases done
        exact .inr ⟨by simp [verdict, filtered, answer, Except.toOption], rfl⟩

/-- The subscribers that a stream has, oldest first. -/
def subscribers (s : EventStream (Event U K M) Subscriber) : List Subscriber :=
  (s.subscriptions.filter s.isActive).filterMap fun ref => s.objects[ref]?.map Subscription.handler

/-- What the handlers do that are called. -/
def effectsOf (evt : Event U K M) (calls : List (Nat × Subscriber)) : List (Subscriber × Effect U K M) :=
  calls.flatMap fun call => ((handler call.2 evt).toOption.getD []).map (call.2, ·)

/-- **A publish that goes well** is what the handlers do that the stream calls. -/
theorem publishTo_stream {s : EventStream (Event U K M) Subscriber}
    (framework : Framework s) {effects : List (Subscriber × Effect U K M)}
    (done : publishTo evt (subscribers s) = .ok effects) : effects = effectsOf evt (s.publish evt) := by
  have filters := framework.predicates
  unfold subscribers at done
  unfold publish
  generalize s.subscriptions.filter s.isActive = refs at done
  induction refs generalizing effects with
  | nil =>
    cases done
    rfl
  | cons ref refs ih =>
    cases here : s.objects[ref]? with
    | none =>
      simp only [List.filterMap_cons, here, Option.map_none, Option.bind_none] at done ⊢
      exact ih done
    | some object =>
      simp only [List.filterMap_cons, here, Option.map_some, Option.bind_some] at done ⊢
      cases first : notify evt object.handler with
      | error miscast =>
        simp only [publishTo, first, bind, Except.bind] at done
        cases done
      | ok own =>
        cases later : publishTo evt (refs.filterMap fun ref => s.objects[ref]?.map Subscription.handler) with
        | error miscast =>
          simp only [publishTo, first, later, bind, Except.bind] at done
          cases done
        | ok rest =>
          rw [publishTo_cons first later] at done
          cases done
          rw [ih later, filters object (List.mem_of_getElem? here)]
          rcases notify_verdict first with ⟨accepted, called⟩ | ⟨refused, rfl⟩
          · simp [accepted, effectsOf, called, Except.toOption]
          · simp [refused]

end Protoactor.Actor.EventStream
