import Protoactor.Actor.Reentry
import Protoactor.Actor.Mailbox.Posts
import Protoactor.Actor.Spawn.Calls.Records

/-!
# From the future to the mailbox

What a closure does to the actor is a post. `Booked` follows the closures: while a future is pending they are among its
completions, and once it has completed without a result and without an error a continuation message has been
posted for each of them.
-/

namespace Protoactor.Actor.Reentry
set_option autoImplicit false
open Lib

variable {P U K σ C : Type} {cfg : Spawn.Spawner U K σ C} {s s' : State P U K σ C} {h h' : Spawn.History P U K σ C}

/-- What `HandleContinuation` makes of a message. -/
def resumption (message : Ptr U K) : Option (Resumption U K) :=
  (ActorContext.continuing message).map fun (continuation, inner) => ⟨continuation, .null, .success, seen inner⟩

/-- The calls that have been posted. -/
def posted (h : Spawn.History P U K σ C) : List (Resumption U K) :=
  (h.state.mailbox.posts.filterMap (Interleaving.offered .system)).filterMap resumption

theorem filterMap_single {α β : Type} (f : α → Option β) (a : α) : [a].filterMap f = (f a).toList := by
  rw [List.filterMap_cons]
  cases f a <;> rfl

theorem resumption_of_other {message : Ptr U K} (other : isContinuation message = false) : resumption message = none := by
  unfold isContinuation at other
  unfold resumption ActorContext.continuing
  split
  · rename_i same
    rw [same] at other
    cases other
  · rfl

/-! ## The post of a closure -/

theorem history_step {l : Spawn.Label U K} (act : Spawn.History.step cfg h l = some h') :
    Spawn.step cfg h.state l = some h'.state := by
  obtain ⟨state, moved, rfl⟩ := Option.map_eq_some_iff.1 act
  rw [moved]
  dsimp only
  split <;> rfl

/-- A message that is posted to the system queue. -/
theorem posted_snoc {posts : List (PostCall (Ptr U K))} (k : Kind) (message : Ptr U K) :
    ((posts ++ [Spawn.postOf k message]).filterMap (Interleaving.offered .system)).filterMap resumption =
      (posts.filterMap (Interleaving.offered .system)).filterMap resumption ++ (if k = .system then resumption message else none).toList := by
  have own : ([Spawn.postOf k message].filterMap (Interleaving.offered .system)).filterMap resumption =
      (if k = .system then resumption message else none).toList := by
    cases k with
    | user => rfl
    | system =>
      cases null : message.isNull with
      | false =>
        simp only [Spawn.postOf, Spawn.item, null, Bool.false_eq_true, if_false, Interleaving.offered, if_true, filterMap_single,
          Option.toList_some]
      | true =>
        cases message with
        | null => rfl
        | _ => cases null
  rw [List.filterMap_append, List.filterMap_append, own]

/-- A step of the actor posts no call, if it is not the post of a continuation message. -/
theorem posted_step {l : Spawn.Label U K} (sound : Spawn.Sound h.state) (act : Spawn.History.step cfg h l = some h')
    (other : ∀ n k message, l = .send n k message → isContinuation message = false) : posted h' = posted h := by
  rcases Spawn.mailbox_step sound (history_step act) with same | ⟨m, brings, move⟩
  · rw [posted, same, posted]
  · cases brings with
    | mail own noPost => rw [posted, Interleaving.offered_posts move noPost, posted]
    | @send n k message own =>
      have posts : h'.state.mailbox.posts = h.state.mailbox.posts ++ [Spawn.postOf k message] := by
        rw [← Option.some.inj move]
        rfl
      rw [posted, posts, posted_snoc, resumption_of_other (other n k message own), ite_self]
      exact List.append_nil _
    | started own =>
      have posts : h'.state.mailbox.posts = h.state.mailbox.posts ++ [Spawn.postOf .system Spawn.startedEnvelope] := by
        rw [← Option.some.inj move]
        rfl
      rw [posted, posts, posted_snoc]
      exact List.append_nil _

/-- What the closures leave alone. -/
structure Sends (h h' : Spawn.History P U K σ C) : Prop where
  context : h'.state.context = h.state.context
  registry : h'.state.registry = h.state.registry
  box : h'.state.mailbox.box = h.state.mailbox.box
  calls : h'.state.mailbox.calls = h.state.mailbox.calls
  ended : h'.ended = h.ended
  running : h'.running = h.running

theorem Sends.refl (h : Spawn.History P U K σ C) : Sends h h := ⟨rfl, rfl, rfl, rfl, rfl, rfl⟩

theorem Sends.trans {h'' : Spawn.History P U K σ C} (first : Sends h h') (second : Sends h' h'') : Sends h h'' where
  context := second.context.trans first.context
  registry := second.registry.trans first.registry
  box := second.box.trans first.box
  calls := second.calls.trans first.calls
  ended := second.ended.trans first.ended
  running := second.running.trans first.running

/-- A step of the history in which nothing is heard, called or ended. -/
theorem history_aside {l : Spawn.Label U K} {state : Spawn.State P U K σ C} (act : Spawn.History.step cfg h l = some h')
    (moved : Spawn.step cfg h.state l = some state) (context : state.context = h.state.context) (handled : state.handled = h.state.handled)
    (other : ∀ n, l ≠ .mail (.worker n)) : h' = ⟨state, h.ended, h.running⟩ := by
  have heard : Spawn.received state = Spawn.received h.state := by rw [Spawn.received, Spawn.received, context]
  simp only [Spawn.History.step, moved, Option.map_some, Option.some.injEq, heard, handled, if_true, Spawn.making_none other,
    List.drop_length, Option.none_or, Spawn.Call.hear_nil, Option.map_id'] at act
  exact act.symm

theorem Alive.sends (alive : Alive h) (sends : Sends h h') : Alive h' := by
  rw [Alive, sends.context, sends.registry]
  exact alive

/-- `PID::Ref`. -/
theorem resolves {self : PID} (act : Spawn.History.step cfg h (.get (some self)) = some h') :
    h' = ⟨{ h.state with resolved := h.state.resolved ++ [(h.state.registry.get (some self)).1] }, h.ended, h.running⟩ := by
  have moved := history_step act
  unfold Spawn.step at moved
  split at moved
  · cases moved
  · rename_i alive
    refine history_aside act ?_ rfl rfl nofun
    rw [Spawn.step, if_neg alive]

/-- The message is posted if the PID is that of the actor. -/
theorem sendSelf_cases {message : Ptr U K} (sent : sendSelf cfg message h = some h') :
    Sends h h' ∧ (Alive h ∨ resumption message = none → posted h' = posted h ++ (resumption message).toList) := by
  unfold sendSelf at sent
  split at sent
  · cases sent
  rename_i self own
  obtain ⟨h₁, got, sent⟩ := Option.bind_eq_some_iff.1 sent
  obtain ⟨h₂, sent, last⟩ := Option.bind_eq_some_iff.1 sent
  cases last
  have resolved := resolves got
  subst resolved
  have here : (h.state.resolved ++ [(h.state.registry.get (some self)).1])[h.state.resolved.length]? =
      some (h.state.registry.get (some self)).1 := List.getElem?_concat_length
  have alive : ¬ h.state.crashed = true := by
    intro crashed
    have moved := history_step sent
    rw [Spawn.step, if_pos crashed] at moved
    cases moved
  cases target : (h.state.registry.get (some self)).1 with
  | spawned =>
    rw [target] at here sent
    have move : Spawn.step cfg { h.state with resolved := h.state.resolved ++ [.spawned] }
        (.send h.state.resolved.length .system message) =
        some (Spawn.State.post { h.state with resolved := h.state.resolved ++ [.spawned] } .system message) := by
      rw [Spawn.step, if_neg alive]
      simp only [here]
    have after := history_aside sent move rfl rfl fun n same => by cases same
    subst after
    exact ⟨⟨rfl, rfl, rfl, rfl, rfl, rfl⟩, fun _ => posted_snoc .system message⟩
  | other process =>
    rw [target] at here sent
    have move : Spawn.step cfg { h.state with resolved := h.state.resolved ++ [.other process] }
        (.send h.state.resolved.length .system message) =
        some { h.state with resolved := h.state.resolved ++ [.other process] } := by
      rw [Spawn.step, if_neg alive]
      simp only [here]
    have after := history_aside sent move rfl rfl fun n same => by cases same
    subst after
    refine ⟨⟨rfl, rfl, rfl, rfl, rfl, rfl⟩, fun reaches => ?_⟩
    rcases reaches with found | none
    · rw [Alive, own, Option.map_some, target] at found
      cases found
    · rw [none]
      exact (List.append_nil _).symm

/-- What the closures post, if the actor is alive or they are of no continuation. -/
theorem runClosures_cases {closures : List (Closure U K)} (ran : runClosures cfg closures h = some h') :
    Sends h h' ∧ (Alive h ∨ (∀ closure ∈ closures, resumption closure.contMsg = none) →
      posted h' = posted h ++ closures.filterMap fun closure => resumption closure.contMsg) := by
  induction closures generalizing h with
  | nil =>
    cases ran
    exact ⟨.refl _, fun _ => (List.append_nil _).symm⟩
  | cons closure closures ih =>
    obtain ⟨h₁, first, rest⟩ := Option.bind_eq_some_iff.1 ran
    obtain ⟨sends, own⟩ := sendSelf_cases first
    obtain ⟨later, others⟩ := ih rest
    refine ⟨sends.trans later, fun reaches => ?_⟩
    rw [others (reaches.imp (·.sends sends) fun none other member => none other (List.mem_cons_of_mem closure member)),
      own (reaches.imp_right fun none => none closure List.mem_cons_self), List.append_assoc, List.filterMap_cons]
    cases resumption closure.contMsg <;> rfl

/-- No closures, no posts. -/
theorem runClosures_idle {closures : List (Closure U K)} (ran : runClosures cfg closures h = some h') (none : closures = []) :
    posted h' = posted h := by
  subst none
  cases ran
  rfl

/-! ## The books -/

section Books

variable {futures : Nat → FutureImpl U K (Option (Closure U K))} {registered : List (Closure U K)} {posts : List (Resumption U K)} {f : Nat}
  {future : FutureImpl U K (Option (Closure U K))} {closure : Closure U K}

/-- The futures and the closures given to them, with the calls that have been posted. -/
structure Booked (futures : Nat → FutureImpl U K (Option (Closure U K))) (registered : List (Closure U K))
    (posts : List (Resumption U K)) : Prop where
  fresh : ∀ f, (futures f).done = false → ((futures f).result, (futures f).err) = (.null, .success)
  waiting : ∀ f, (futures f).done = false → (futures f).completions.filterMap id = registered.filter (·.future = f)
  empty : ∀ closure ∈ registered, closure.continuation.isSome → (futures closure.future).done = true →
    (futures closure.future).answer = some (.null, .success)
  posted : (registered.filterMap fun closure => closure.due (futures closure.future)).Perm posts

theorem answer_pending (pending : future.done = false) : future.answer = none := by
  rw [FutureImpl.answer, pending]
  rfl

theorem due_pending (pending : future.done = false) : closure.due future = none := by
  rw [Closure.due, answer_pending pending]
  cases closure.continuation <;> rfl

/-- Without a result and an error the call that is due is the one that `HandleContinuation` makes. -/
theorem due_empty (answer : closure.continuation.isSome → future.answer = some (.null, .success)) :
    closure.due future = resumption closure.contMsg := by
  obtain ⟨f, continuation, message⟩ := closure
  cases continuation with
  | none => rfl
  | some k =>
    rw [Closure.due, answer rfl]
    rfl

theorem put_self (futures : Nat → FutureImpl U K (Option (Closure U K))) (f : Nat) (future : FutureImpl U K (Option (Closure U K))) :
    put futures f future f = future := if_pos rfl

theorem put_other {i : Nat} (other : i ≠ f) : put futures f future i = futures i := if_neg other

/-- What the change of a future does not show. -/
theorem put_same {β : Type} (g : FutureImpl U K (Option (Closure U K)) → β) (same : g future = g (futures f)) (i : Nat) :
    g (put futures f future i) = g (futures i) := by
  by_cases here : i = f
  · rw [here, put_self, same]
  · rw [put_other here]

/-- Entries that yielded nothing now yield something. -/
theorem filterMap_late {α β : Type} {xs : List α} {late : α → Bool} {before after : α → Option β}
    (none : ∀ x, late x = true → before x = none) (same : ∀ x, late x = false → after x = before x) :
    (xs.filterMap after).Perm (xs.filterMap before ++ (xs.filter late).filterMap after) := by
  induction xs with
  | nil => exact .refl []
  | cons x xs ih =>
    cases own : late x with
    | false =>
      rw [List.filterMap_cons, List.filterMap_cons, List.filter_cons_of_neg (by simp [own]), same x own]
      cases before x with
      | none => exact ih
      | some y => exact ih.cons y
    | true =>
      rw [List.filterMap_cons, List.filterMap_cons, List.filter_cons_of_pos own, List.filterMap_cons, none x own]
      cases after x with
      | none => exact ih
      | some y => exact (ih.cons y).trans List.perm_middle.symm

theorem Booked.start (pids : Nat → PID) :
    Booked (fun f => (FutureImpl.created (pids f) [] : FutureImpl U K (Option (Closure U K)))) [] [] where
  fresh := fun _ _ => rfl
  waiting := fun _ _ => rfl
  empty := fun _ member => absurd member List.not_mem_nil
  posted := .refl []

/-- A call that completes nothing and registers nothing. -/
theorem Booked.quiet (booked : Booked futures registered posts) (done : future.done = (futures f).done)
    (pair : (future.result, future.err) = ((futures f).result, (futures f).err))
    (own : (futures f).done = false → future.completions.filterMap id = (futures f).completions.filterMap id) :
    Booked (put futures f future) registered posts := by
  have answer : future.answer = (futures f).answer := by rw [FutureImpl.answer, done, pair, FutureImpl.answer]
  have dones := put_same FutureImpl.done done
  have answers := put_same FutureImpl.answer answer
  obtain ⟨fresh, waiting, empty, posted⟩ := booked
  refine ⟨fun i pending => ?_, fun i pending => ?_, fun closure member some ended => ?_, ?_⟩
  · rw [put_same (fun g => (g.result, g.err)) pair]
    exact fresh i (dones i ▸ pending)
  · rw [dones] at pending
    rw [← waiting i pending]
    by_cases here : i = f
    · subst here
      rw [put_self, own pending]
    · rw [put_other here]
  · rw [answers]
    exact empty closure member some (dones _ ▸ ended)
  · simp only [Closure.due, answers] at posted ⊢
    exact posted

/-- A call that completes the future. -/
theorem Booked.complete (booked : Booked futures registered posts) (pending : (futures f).done = false) (done : future.done = true)
    (empty : (∃ closure ∈ registered, closure.future = f ∧ closure.continuation.isSome) → future.answer = some (.null, .success)) :
    Booked (put futures f future) registered
      (posts ++ (registered.filter (·.future = f)).filterMap fun closure => resumption closure.contMsg) := by
  have elsewhere : ∀ {i : Nat}, (put futures f future i).done = false → i ≠ f := by
    rintro i waits rfl
    rw [put_self, done] at waits
    cases waits
  obtain ⟨fresh, waiting, before, posted⟩ := booked
  refine ⟨fun i waits => ?_, fun i waits => ?_, fun closure member some ended => ?_, ?_⟩
  · have other := elsewhere waits
    rw [put_other other] at waits ⊢
    exact fresh i waits
  · have other := elsewhere waits
    rw [put_other other] at waits ⊢
    exact waiting i waits
  · by_cases here : closure.future = f
    · rw [here, put_self]
      exact empty ⟨closure, member, here, some⟩
    · rw [put_other here] at ended ⊢
      exact before closure member some ended
  · have late : (registered.filterMap fun closure => closure.due (put futures f future closure.future)).Perm
        ((registered.filterMap fun closure => closure.due (futures closure.future)) ++
          (registered.filter (·.future = f)).filterMap fun closure => closure.due (put futures f future closure.future)) := by
      refine filterMap_late (fun closure here => ?_) fun closure other => ?_
      · rw [of_decide_eq_true here]
        exact due_pending pending
      · rw [put_other (of_decide_eq_false other)]
    have made : (registered.filter (·.future = f)).filterMap (fun closure => closure.due (put futures f future closure.future)) =
        (registered.filter (·.future = f)).filterMap fun closure => resumption closure.contMsg := by
      refine List.filterMap_congr fun closure member => ?_
      obtain ⟨inside, here⟩ := List.mem_filter.1 member
      have here : closure.future = f := of_decide_eq_true here
      rw [here, put_self]
      exact due_empty fun some => empty ⟨closure, inside, here, some⟩
    rw [made] at late
    exact late.trans (posted.append_right _)

/-- `ReenterAfter` on a future that is pending. -/
theorem Booked.wait (booked : Booked futures registered posts) (own : closure.future = f) (pending : (futures f).done = false) :
    Booked (put futures f ((futures f).apply (.continueWith (some closure)))) (registered ++ [closure]) posts := by
  have after : (futures f).apply (.continueWith (some closure)) =
      { futures f with completions := (futures f).completions ++ [some closure] } := by
    rw [FutureImpl.apply_pending pending rfl]
    simp [FutureImpl.Op.targets, FutureImpl.Op.continuations]
  have dones : ∀ i, (put futures f ((futures f).apply (.continueWith (some closure))) i).done = (futures i).done :=
    put_same FutureImpl.done (by rw [after])
  have answers : ∀ i, (put futures f ((futures f).apply (.continueWith (some closure))) i).answer = (futures i).answer :=
    put_same FutureImpl.answer (by rw [after]; rfl)
  obtain ⟨fresh, waiting, empty, posted⟩ := booked
  refine ⟨fun i waits => ?_, fun i waits => ?_, fun other member some ended => ?_, ?_⟩
  · rw [put_same (fun g => (g.result, g.err)) (by rw [after])]
    exact fresh i (dones i ▸ waits)
  · rw [dones] at waits
    rw [List.filter_append, ← waiting i waits]
    by_cases here : i = f
    · subst here
      rw [put_self, after, List.filterMap_append]
      simp [own]
    · have elsewhere : ¬ closure.future = i := fun there => here (there.symm.trans own)
      rw [put_other here]
      simp [elsewhere]
  · rw [dones] at ended
    rw [answers]
    rcases List.mem_append.1 member with old | new
    · exact empty other old some ended
    · rw [List.mem_singleton.1 new, own, pending] at ended
      cases ended
  · have none : closure.due (futures closure.future) = none := by rw [own, due_pending pending]
    simp only [Closure.due, answers] at posted none ⊢
    rw [List.filterMap_append, List.filterMap_cons, none]
    simpa using posted

/-- `ReenterAfter` on a future that has completed. -/
theorem Booked.enter (booked : Booked futures registered posts) (done : (futures closure.future).done = true)
    (answer : closure.continuation.isSome → (futures closure.future).answer = some (.null, .success)) :
    Booked futures (registered ++ [closure]) (posts ++ (resumption closure.contMsg).toList) := by
  obtain ⟨fresh, waiting, empty, posted⟩ := booked
  refine ⟨fresh, fun i waits => ?_, fun other member some ended => ?_, ?_⟩
  · have elsewhere : ¬ closure.future = i := by
      rintro rfl
      rw [done] at waits
      cases waits
    rw [List.filter_append, waiting i waits]
    simp [elsewhere]
  · rcases List.mem_append.1 member with old | new
    · exact empty other old some ended
    · rw [List.mem_singleton.1 new] at some ⊢
      exact answer some
  · have own : [closure].filterMap (fun closure => closure.due (futures closure.future)) = (resumption closure.contMsg).toList := by
      rw [filterMap_single, due_empty answer]
    rw [List.filterMap_append, own]
    exact posted.append_right _

/-! ## Calls of futures -/

theorem called_append {F : Type} {old : List (Option F × Ptr U K × ErrorCode)} {new : List (Option F)} {pair : Ptr U K × ErrorCode} :
    ((old ++ new.map (·, pair)).drop old.length).filterMap Prod.fst = new.filterMap id := by
  rw [List.drop_left, List.filterMap_map]
  rfl

/-- A future that has completed calls what is registered now. -/
theorem called_done (done : future.done = true) (op : FutureImpl.Op U K (Option (Closure U K))) :
    ((future.apply op).called.drop future.called.length).filterMap Prod.fst = (FutureImpl.Op.continuations [op]).filterMap id := by
  rw [(FutureImpl.frozen_apply done op).called]
  exact called_append

theorem continuations_other {op : FutureImpl.Op U K (Option (Closure U K))} (other : ∀ closure, op ≠ .continueWith (some closure)) :
    (FutureImpl.Op.continuations [op]).filterMap id = [] := by
  cases op with
  | continueWith completion =>
    cases completion with
    | none => rfl
    | some closure => exact absurd rfl (other closure)
  | pipeTo _ | sendUserMessage _ _ | sendSystemMessage _ _ | stop _ | timeout => rfl

/-- A call that leaves the list of calls as it was calls nothing. -/
theorem called_idle {future' : FutureImpl U K (Option (Closure U K))} (same : future'.called = future.called) :
    (future'.called.drop future.called.length).filterMap Prod.fst = [] := by
  rw [same, List.drop_length]
  rfl

/-- A call of a method of a future that has completed. -/
theorem Booked.frozen (booked : Booked futures registered posts) (done : (futures f).done = true)
    (op : FutureImpl.Op U K (Option (Closure U K))) : Booked (put futures f ((futures f).apply op)) registered posts := by
  have frozen := FutureImpl.frozen_apply done op
  refine booked.quiet (frozen.done.trans done.symm) (by rw [frozen.result, frozen.err]) fun pending => ?_
  cases done.symm.trans pending

/-- What a completing call but the timeout does. -/
theorem Booked.notifies {op : FutureImpl.Op U K (Option (Closure U K))} (booked : Booked futures registered posts)
    (pending : (futures f).done = false) (completing : op.completes = true) (early : op ≠ .timeout) :
    ((futures f).apply op).done = true ∧ ((futures f).apply op).answer = some (FutureImpl.completed op) ∧
      (((futures f).apply op).called.drop (futures f).called.length).filterMap Prod.fst = registered.filter (·.future = f) := by
  have notified := FutureImpl.notified_apply pending (booked.fresh f pending) completing early
  refine ⟨notified.done, ?_, ?_⟩
  · rw [FutureImpl.answer, if_pos notified.done, notified.answer]
  · rw [notified.called, called_append, booked.waiting f pending]

/-- The closures of a future that no continuation waits for. -/
theorem resumption_unawaited (unawaited : ¬ ∃ closure ∈ registered, closure.future = f ∧ closure.continuation.isSome) :
    ∀ closure ∈ registered.filter (·.future = f), resumption closure.contMsg = none := by
  intro closure member
  obtain ⟨inside, here⟩ := List.mem_filter.1 member
  obtain ⟨i, continuation, message⟩ := closure
  cases continuation with
  | none => rfl
  | some k => exact absurd ⟨_, inside, of_decide_eq_true here, rfl⟩ unawaited

end Books

/-- Somebody calls a method of a future. -/
theorem booked_future {f : Nat} {op : FutureImpl.Op U K (Option (Closure U K))} (booked : Booked s.futures s.registered (posted s.history))
    (other : ∀ closure, op ≠ .continueWith (some closure)) (allowed : resumable cfg s (.future f op)) (acted : s.act cfg f op = some s') :
    Booked s'.futures s'.registered (posted s'.history) ∧ Sends s.history s'.history := by
  obtain ⟨h, ran, rfl⟩ := Option.map_eq_some_iff.1 acted
  obtain ⟨sends, posts⟩ := runClosures_cases ran
  refine ⟨?_, sends⟩
  show Booked (put s.futures f ((s.futures f).apply op)) s.registered (posted h)
  cases done : (s.futures f).done with
  | true =>
    rw [runClosures_idle ran ((called_done done op).trans (continuations_other other))]
    exact booked.frozen done op
  | false =>
    cases completing : op.completes with
    | false =>
      have after := FutureImpl.apply_pending done completing
      rw [runClosures_idle ran (called_idle (by rw [after]))]
      refine booked.quiet (by rw [after]) (by rw [after]) fun _ => ?_
      rw [after, List.filterMap_append, continuations_other other, List.append_nil]
    | true =>
      by_cases awaited : s.Awaited f
      · obtain ⟨alive, empty⟩ := allowed done completing awaited
        have early : op ≠ .timeout := by
          rintro rfl
          cases empty
        obtain ⟨ended, answer, calls⟩ := booked.notifies done completing early
        rw [posts (.inl alive), calls]
        exact booked.complete done ended fun _ => answer.trans (congrArg some empty)
      · -- the closures there are do nothing, whatever the future answers
        have nulls := resumption_unawaited awaited
        have completed : ((s.futures f).apply op).done = true → Booked (put s.futures f ((s.futures f).apply op)) s.registered
            (posted s.history ++ (s.registered.filter (·.future = f)).filterMap fun closure => resumption closure.contMsg) :=
          fun ended => booked.complete done ended fun some => absurd some awaited
        rw [List.filterMap_eq_nil_iff.2 nulls, List.append_nil] at completed
        by_cases early : op = .timeout
        · subst early
          have after := FutureImpl.apply_timeout (f := s.futures f) done
          rw [runClosures_idle ran (called_idle (by rw [after]))]
          exact completed (by rw [after])
        · obtain ⟨ended, -, calls⟩ := booked.notifies done completing early
          rw [calls] at posts
          rw [posts (.inr nulls), List.filterMap_eq_nil_iff.2 nulls, List.append_nil]
          exact completed ended

theorem observe_same (s : State P U K σ C) (h : Spawn.History P U K σ C) :
    (s.observe h).history = h ∧ (s.observe h).futures = s.futures ∧ (s.observe h).registered = s.registered := by
  unfold State.observe
  split <;> exact ⟨rfl, rfl, rfl⟩

/-- What a call of `ReenterAfter` is: a step of the actor, and then the call of the future. -/
theorem reenter_cases {f : Nat} (next : step cfg s (.reenter f) = some s') :
    ∃ c continuation completed h, s.context = some c ∧ entering cfg.beh c = some (continuation, completed) ∧
      completed = (s.futures f).done ∧ Spawn.History.step cfg s.history .run = some h ∧
      State.act cfg f (.continueWith (some ⟨f, continuation, c.messageOrEnvelope⟩))
        { s.observe h with registered := s.registered ++ [⟨f, continuation, c.messageOrEnvelope⟩] } = some s' := by
  simp only [step] at next
  split at next
  · cases next
  rename_i c context
  split at next
  · cases next
  rename_i continuation completed entered
  split at next
  · cases next
  rename_i same
  obtain ⟨h, act, acted⟩ := Option.bind_eq_some_iff.1 next
  exact ⟨c, continuation, completed, h, context, entered, Classical.not_not.1 same, act, acted⟩

/-- The step of the context is the call alone. -/
theorem self_entering {props : Props U K C} {beh : Behaviour U K σ C} {c c' : ActorContext U K σ C} {entered : Option K × Bool}
    (enters : entering beh c = some entered) (act : ActorContext.step props beh c .run = some c') : c'.self = c.self := by
  unfold entering at enters
  split at enters
  · rename_i rest below stack
    simp only [ActorContext.step, stack, Option.some.injEq] at act
    subst act
    unfold ActorContext.runFrame
    dsimp only
    rw [show ({ c with stack := below } : ActorContext U K σ C).view = c.view from rfl]
    cases resumed : beh.resume rest c.view c.memory with
    | mk memory next =>
      rw [resumed] at enters
      split at enters
      · rename_i continuation completed rest' performs
        cases performs
        show (ActorContext.reenterAfter continuation completed _).self = _
        unfold ActorContext.reenterAfter
        split <;> rfl
      · cases enters
  · cases enters

/-- The call leaves an actor that is alive alive. -/
theorem alive_entering {c : ActorContext U K σ C} {entered : Option K × Bool} (context : s.context = some c)
    (enters : entering cfg.beh c = some entered) (act : Spawn.History.step cfg s.history .run = some h) (alive : Alive s.history) :
    Alive h := by
  have moved := history_step act
  unfold Spawn.step at moved
  split at moved
  · cases moved
  obtain ⟨c₁, context₁, moved⟩ := Option.bind_eq_some_iff.1 moved
  cases context.symm.trans context₁
  obtain ⟨c', run, after⟩ := Option.map_eq_some_iff.1 moved
  rw [Alive, show s.history.state.context = some c from context, Option.bind_some] at alive
  rw [Alive, ← after]
  show Option.map _ (ActorContext.self c') = _
  rw [self_entering enters run]
  exact alive

/-- The actor calls `ReenterAfter`. -/
theorem booked_reenter {f : Nat} (sound : Spawn.Sound s.history.state) (booked : Booked s.futures s.registered (posted s.history))
    (allowed : resumable cfg s (.reenter f)) (next : step cfg s (.reenter f) = some s') :
    Booked s'.futures s'.registered (posted s'.history) := by
  obtain ⟨c, continuation, completed, h, context, entered, same, act, acted⟩ := reenter_cases next
  obtain ⟨h', ran, rfl⟩ := Option.map_eq_some_iff.1 acted
  obtain ⟨history, futures, -⟩ := observe_same s h
  obtain ⟨-, posts⟩ := runClosures_cases ran
  dsimp only at posts ran ⊢
  rw [history] at ran posts
  rw [posted_step sound act nofun] at posts
  rw [futures] at ran posts ⊢
  cases done : (s.futures f).done with
  | false =>
    rw [runClosures_idle ran (called_idle (by rw [FutureImpl.apply_pending done rfl])), posted_step sound act nofun]
    exact booked.wait rfl done
  | true =>
    rw [called_done done] at posts
    have frozen := FutureImpl.frozen_apply done (.continueWith (some (⟨f, continuation, c.messageOrEnvelope⟩ : Closure U K)))
    have answer : ((s.futures f).apply (.continueWith (some ⟨f, continuation, c.messageOrEnvelope⟩))).answer = (s.futures f).answer := by
      rw [FutureImpl.answer, FutureImpl.answer, frozen.done, done, frozen.result, frozen.err]
    have reaches : continuation.isSome → Alive h ∧ (s.futures f).answer = some (.null, .success) := by
      intro some
      obtain ⟨alive, empty⟩ := allowed done (by rw [context, Option.bind_some, entered]; exact some)
      exact ⟨alive_entering context entered act alive, empty⟩
    have after : posted h' = posted s.history ++ (resumption (Closure.contMsg ⟨f, continuation, c.messageOrEnvelope⟩)).toList := by
      have made := posts ?_
      · rw [made]
        exact congrArg _ (filterMap_single _ _)
      · cases continuation with
        | none => exact .inr fun closure member => by rw [List.mem_singleton.1 member]; rfl
        | some k => exact .inl (reaches rfl).1
    rw [after]
    refine (booked.frozen done _).enter ?_ fun some => ?_
    · rw [put_self]
      exact frozen.done
    · rw [put_self, answer]
      exact (reaches some).2

end Protoactor.Actor.Reentry
