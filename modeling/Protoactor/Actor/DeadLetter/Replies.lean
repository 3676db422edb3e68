import Protoactor.Actor.DeadLetter
import Protoactor.Lib.Machine

/-!
# Replies to dead letters

Where the sender and the watcher can be reached, and the message is a `Watch` or shows a
null in the place of the watcher, the chain ends after its one event with the right answers.
Otherwise a reply becomes a dead letter that is read as a `Watch` itself, or the
message already was no `Watch`.
-/

namespace Protoactor.Actor.DeadLetterProcess
set_option autoImplicit false
open Lib

variable {U K P : Type} {d : Directory P} {fields : U → Slot} {c c' : Chain U K P} {s : Send U K} {e : Event U K}

/-- The chain that starts with `s` comes to an end, reads nothing as what it is not, and
answers each of its events as it should. -/
def Exact (d : Directory P) (fields : U → Slot) (s : Send U K) : Prop :=
  ∃ k c, Steps (step d fields) k (start s) c ∧ step d fields c = none ∧ c.undefined = false ∧
    ∀ n e, c.events[n]? = some e → (c.sent.filter (·.1 = n)).map Prod.snd = replies e

/-- The PID leads to the `DeadLetterProcess`. -/
def Dead (d : Directory P) (pid : PID) : Prop := (d.registry.get (some pid)).1 = .deadLetter

/-- A PID that is not registered does. -/
theorem dead_of_unregistered {pid : PID} (unknown : (d.registry.get (some pid)).2 = false) : Dead d pid :=
  (ProcessRegistry.get_unknown unknown).trans d.home

/-- The answers to the event reach somebody, and its message is not mistaken. -/
structure Answerable (d : Directory P) (fields : U → Slot) (e : Event U K) : Prop where
  sender : ∀ sender, e.sender = some sender → ¬ Dead d sender
  message : e.message = .null ∨ watcher fields e.message = .pid none ∨ ∃ w, e.message = .watch (some w) ∧ ¬ Dead d w

/-! ## One event -/

section Steps

variable (d : Directory P) (fields : U → Slot) {n : Nat} {rest : List (Frame U K)} (sound : c.undefined = false)

include sound

/-- The two handlers are called one after the other. -/
theorem step_dead (stack : c.stack = .send s :: rest) (dead : Dead d s.pid) : step d fields c = some { c with
    stack := .respond c.events.length s.event :: .terminate c.events.length s.event :: rest
    events := c.events ++ [s.event] } := by
  unfold Dead at dead
  simp only [step, sound, stack, dead, Bool.false_eq_true, if_false]

/-- A send that reaches somebody else ends there. -/
theorem step_delivered (stack : c.stack = .send s :: rest) (alive : ¬ Dead d s.pid) :
    ∃ delivered, step d fields c = some { c with stack := rest, delivered := delivered } := by
  unfold Dead at alive
  cases recipient : (d.registry.get (some s.pid)).1 with
  | deadLetter => exact absurd recipient alive
  | process p =>
    refine ⟨c.delivered ++ [(p, s)], ?_⟩
    simp only [step, sound, stack, recipient, Bool.false_eq_true, if_false]

theorem step_silent (stack : c.stack = .respond n e :: rest) (nobody : e.sender = none) :
    step d fields c = some { c with stack := rest } := by
  simp only [step, sound, stack, nobody, Bool.false_eq_true, if_false]

theorem step_responds {sender : PID} (stack : c.stack = .respond n e :: rest) (here : e.sender = some sender) :
    step d fields c = some { c with stack := .send (response e sender) :: rest, sent := c.sent ++ [(n, response e sender)] } := by
  simp only [step, sound, stack, here, Bool.false_eq_true, if_false]

/-- The second subscriber, where it finds nobody. -/
theorem step_nobody (stack : c.stack = .terminate n e :: rest)
    (shown : e.message = .null ∨ watcher fields e.message = .pid none) : step d fields c = some { c with stack := rest } := by
  simp only [step, sound, stack, Bool.false_eq_true, if_false]
  rcases shown with null | slot
  · rw [null]
    rfl
  · split
    · rfl
    · simp only [slot]

/-- The second subscriber, where it finds a PID. -/
theorem step_found {w : PID} (stack : c.stack = .terminate n e :: rest) (full : e.message.isNull = false)
    (slot : watcher fields e.message = .pid (some w)) :
    step d fields c = some { c with stack := .send (terminated e w) :: rest, sent := c.sent ++ [(n, terminated e w)] } := by
  simp only [step, sound, stack, full, slot, Bool.false_eq_true, if_false]

/-- The second subscriber, where there is no PID to find. -/
theorem step_wild (stack : c.stack = .terminate n e :: rest) (full : e.message.isNull = false)
    (slot : watcher fields e.message = .wild) : step d fields c = some { c with stack := rest, undefined := true } := by
  simp only [step, sound, stack, full, slot, Bool.false_eq_true, if_false]

end Steps

/-- The innermost call comes back, having made these sends on behalf of the `n`-th event. -/
def Returns (d : Directory P) (fields : U → Slot) (c : Chain U K P) (rest : List (Frame U K)) (n : Nat)
    (sends : List (Send U K)) : Prop :=
  ∃ k delivered, Steps (step d fields) k c { c with
    stack := rest
    sent := c.sent ++ sends.map (n, ·)
    delivered := delivered }

/-- A send to somebody who can be reached. -/
theorem returns_send {n : Nat} {rest : List (Frame U K)} (sound : c.undefined = false) (alive : ¬ Dead d s.pid)
    (first : step d fields c = some { c with stack := .send s :: rest, sent := c.sent ++ [(n, s)] }) :
    Returns d fields c rest n [s] := by
  have sound' : ({ c with stack := .send s :: rest, sent := c.sent ++ [(n, s)] } : Chain U K P).undefined = false := sound
  obtain ⟨delivered, second⟩ := step_delivered d fields sound' rfl alive
  exact ⟨2, delivered, ((Steps.zero c).snoc first).snoc second⟩

theorem returns_silent {n : Nat} {rest : List (Frame U K)} (first : step d fields c = some { c with stack := rest }) :
    Returns d fields c rest n [] := ⟨1, c.delivered, by simpa using (Steps.zero c).snoc first⟩

/-- The first subscriber, where its response reaches the sender. -/
theorem responds {n : Nat} {rest : List (Frame U K)} (sound : c.undefined = false) (stack : c.stack = .respond n e :: rest)
    (alive : ∀ sender, e.sender = some sender → ¬ Dead d sender) :
    Returns d fields c rest n (e.sender.toList.map (response e)) := by
  cases sender : e.sender with
  | none => exact returns_silent (step_silent d fields sound stack sender)
  | some sender' => exact returns_send sound (alive sender' sender) (step_responds d fields sound stack sender)

/-- A message that shows a null is nobody's `Watch`. -/
theorem watched_none (shown : e.message = .null ∨ watcher fields e.message = .pid none) : watched e = none := by
  unfold watched
  split
  · rename_i w message
    rcases shown with null | slot
    · rw [message] at null
      cases null
    · rw [message] at slot
      exact Slot.pid.inj slot
  · rfl

/-- The second subscriber, where the event is one it can answer. -/
theorem terminates {n : Nat} {rest : List (Frame U K)} (sound : c.undefined = false) (stack : c.stack = .terminate n e :: rest)
    (message : e.message = .null ∨ watcher fields e.message = .pid none ∨ ∃ w, e.message = .watch (some w) ∧ ¬ Dead d w) :
    Returns d fields c rest n ((watched e).toList.map (terminated e)) := by
  rw [← or_assoc] at message
  rcases message with shown | ⟨w, message, alive⟩
  · rw [watched_none shown]
    exact returns_silent (step_nobody d fields sound stack shown)
  · have one : watched e = some w := by rw [watched, message]
    rw [one]
    exact returns_send sound alive (step_found d fields sound stack (by rw [message]; rfl) (by rw [message]; rfl))

/-! ## The whole chain -/

/-- The chain once the first event is published. -/
def published (s : Send U K) : Chain U K P := ⟨[.respond 0 s.event, .terminate 0 s.event], false, [s.event], [], []⟩

theorem start_dead (fields : U → Slot) (unknown : Dead d s.pid) : step d fields (start s) = some (published s) :=
  step_dead d fields rfl rfl unknown

theorem filter_own (n : Nat) (sends : List (Send U K)) : ((sends.map (n, ·)).filter (·.1 = n)).map Prod.snd = sends := by
  induction sends with
  | nil => rfl
  | cons s sends ih => simpa using ih

/-- The chain of an answerable event: both answers are sent and nothing else happens. -/
theorem exact_of_answerable (unknown : Dead d s.pid) (answerable : Answerable d fields s.event) : Exact d fields s := by
  have first := start_dead fields unknown
  obtain ⟨k, delivered, second⟩ := responds (c := (published s : Chain U K P)) rfl rfl answerable.sender
  obtain ⟨k', delivered', third⟩ := terminates (c := (⟨[.terminate 0 s.event], false, [s.event],
    [] ++ (s.event.sender.toList.map (response s.event)).map (0, ·), delivered⟩ : Chain U K P)) rfl rfl answerable.message
  refine ⟨_, _, (second.cons first).append third, rfl, rfl, ?_⟩
  intro n e here
  cases n with
  | zero =>
    cases here
    simp only [List.nil_append, List.filter_append, List.map_append, filter_own, replies]
  | succ n => cases here

/-! ## Chains that go wrong -/

/-- What has been sent and published stays on record. -/
structure Extends (c c' : Chain U K P) : Prop where
  events : ∃ more, c'.events = c.events ++ more
  sent : ∃ more, c'.sent = c.sent ++ more

theorem Extends.trans {c'' : Chain U K P} (first : Extends c c') (second : Extends c' c'') : Extends c c'' := by
  obtain ⟨⟨e, events⟩, ⟨x, sent⟩⟩ := first
  obtain ⟨⟨e', events'⟩, ⟨x', sent'⟩⟩ := second
  exact ⟨⟨e ++ e', by rw [events', events, List.append_assoc]⟩, ⟨x ++ x', by rw [sent', sent, List.append_assoc]⟩⟩

theorem extends_step (moved : step d fields c = some c') : Extends c c' := by
  have same : ∀ {α : Type} (l : List α), ∃ more, l = l ++ more := fun l => ⟨[], (List.append_nil l).symm⟩
  unfold step at moved
  split at moved
  · cases moved
  · split at moved
    · cases moved
    · split at moved
      · cases moved
        exact ⟨same _, same _⟩
      · cases moved
        exact ⟨⟨_, rfl⟩, same _⟩
    · split at moved
      · cases moved
        exact ⟨same _, same _⟩
      · cases moved
        exact ⟨same _, _, rfl⟩
    · split at moved
      · cases moved
        exact ⟨same _, same _⟩
      · split at moved
        · cases moved
          exact ⟨same _, same _⟩
        · cases moved
          exact ⟨same _, same _⟩
        · cases moved
          exact ⟨same _, _, rfl⟩

theorem extends_steps {k : Nat} (run : Steps (step d fields) k c c') : Extends c c' := by
  induction run with
  | zero => exact ⟨⟨[], by simp⟩, ⟨[], by simp⟩⟩
  | snoc _ last ih => exact ih.trans (extends_step last)

/-- A chain that reads something as what it is not has not done well. -/
theorem not_exact_of_undefined {k : Nat} (run : Steps (step d fields) k (start s) c) (bad : c.undefined = true) :
    ¬ Exact d fields s := by
  rintro ⟨j, c', run', stopped, sound, -⟩
  have stopped' : step d fields c = none := by simp [step, bad]
  rw [run'.stop_unique run stopped stopped', bad] at sound
  cases sound

/-- Nor has one with a send that its event does not call for. -/
theorem not_exact_of_sent {k n : Nat} {x : Send U K} (run : Steps (step d fields) k (start s) c)
    (event : c.events[n]? = some e) (sent : (n, x) ∈ c.sent) (uncalled : x ∉ replies e) : ¬ Exact d fields s := by
  rintro ⟨j, c', run', stopped, -, answers⟩
  obtain ⟨i, rest⟩ := run.reach_stop run' stopped
  obtain ⟨⟨events, published⟩, ⟨more, recorded⟩⟩ := extends_steps rest
  have known : c'.events[n]? = some e := by
    rw [published, List.getElem?_append_left (List.getElem?_eq_some_iff.1 event).1, event]
  refine uncalled (answers n e known ▸ List.mem_map.2 ⟨(n, x), List.mem_filter.2 ⟨?_, by simp⟩, rfl⟩)
  rw [recorded]
  exact List.mem_append_left _ sent

/-- A `Terminated` is called for by a `Watch` only. -/
theorem terminated_uncalled {w : PID} (other : watched e ≠ some w) : terminated e w ∉ replies e := by
  intro member
  rcases List.mem_append.1 member with left | right
  · obtain ⟨sender, -, same⟩ := List.mem_map.1 left
    cases same
  · obtain ⟨w', here, same⟩ := List.mem_map.1 right
    cases same
    exact other (Option.mem_toList.1 here)

theorem event_pid (s : Send U K) : s.event.pid = some s.pid := by
  cases s <;> rfl

/-- A reply that is a dead letter itself comes to the second subscriber. -/
theorem nested (d : Directory P) (fields : U → Slot) {rest : List (Frame U K)} (sound : c.undefined = false)
    (stack : c.stack = .send s :: rest) (dead : Dead d s.pid) (nobody : s.event.sender = none) :
    ∃ c', Steps (step d fields) 2 c c' ∧ c'.undefined = false ∧ c'.stack = .terminate c.events.length s.event :: rest ∧
      c'.events = c.events ++ [s.event] ∧ c'.sent = c.sent := by
  have first := step_dead d fields sound stack dead
  have sound' : ({ c with
    stack := .respond c.events.length s.event :: .terminate c.events.length s.event :: rest
    events := c.events ++ [s.event] } : Chain U K P).undefined = false := sound
  have second := step_silent d fields sound' rfl nobody
  exact ⟨_, ((Steps.zero c).snoc first).snoc second, sound, rfl, rfl, rfl⟩

/-- A sender that cannot be reached: the response to it is read as a `Watch`. -/
theorem not_exact_of_sender (unknown : Dead d s.pid) {sender : PID} (here : s.event.sender = some sender) (dead : Dead d sender) :
    ¬ Exact d fields s := by
  have first := start_dead fields unknown
  have second := step_responds d fields (c := (published s : Chain U K P)) rfl rfl here
  obtain ⟨c, third, sound, stack, -⟩ := nested d fields (c := { (published s : Chain U K P) with
    stack := [.send (response s.event sender), .terminate 0 s.event], sent := [(0, response s.event sender)] }) rfl rfl dead rfl
  have wild : watcher fields (response s.event sender).event.message = .wild := by
    show watcher fields (.deadLetterResponse s.event.pid) = .wild
    rw [event_pid]
    rfl
  have fourth := step_wild d fields sound stack rfl wild
  exact not_exact_of_undefined (((((Steps.zero _).snoc first).snoc second).append third).snoc fourth) rfl

/-- The second subscriber is reached with the first event. -/
theorem reach_terminate (fields : U → Slot) (unknown : Dead d s.pid)
    (alive : ∀ sender, s.event.sender = some sender → ¬ Dead d sender) : ∃ k, ∃ c : Chain U K P,
      Steps (step d fields) k (start s) c ∧ c.undefined = false ∧ c.stack = [.terminate 0 s.event] ∧ c.events = [s.event] := by
  have first := start_dead fields unknown
  obtain ⟨k, delivered, second⟩ := responds (c := (published s : Chain U K P)) rfl rfl alive
  exact ⟨_, _, second.cons first, rfl, rfl, rfl⟩

/-- A watcher that cannot be reached: the `Terminated` for it is read as a `Watch` by the dead PID. -/
theorem not_exact_of_watcher (unknown : Dead d s.pid) (alive : ∀ sender, s.event.sender = some sender → ¬ Dead d sender)
    {w : PID} (watch : s.event.message = .watch (some w)) (dead : Dead d w) : ¬ Exact d fields s := by
  obtain ⟨k, c, first, sound, stack, events⟩ := reach_terminate fields unknown alive
  have second := step_found d fields (w := w) sound stack (by rw [watch]; rfl) (by rw [watch]; rfl)
  have sound' : ({ c with
    stack := [.send (terminated s.event w)]
    sent := c.sent ++ [(0, terminated s.event w)] } : Chain U K P).undefined = false := sound
  obtain ⟨c', third, sound'', stack', events', -⟩ := nested d fields sound' rfl dead rfl
  have found : watcher fields (terminated s.event w).event.message = .pid (some s.pid) := by
    show Slot.pid s.event.pid = _
    rw [event_pid]
  have fourth := step_found d fields sound'' stack' rfl found
  refine not_exact_of_sent (n := 1) (e := (terminated s.event w).event) (((first.snoc second).append third).snoc fourth) ?_ ?_
    (terminated_uncalled (w := s.pid) nofun)
  · simp [events', events]
  · simp [events]

/-- **Dead-letter replies are exact and bounded** for exactly the answerable events. -/
theorem exact_iff (unregistered : (d.registry.get (some s.pid)).2 = false) :
    Exact d fields s ↔ Answerable d fields s.event := by
  have unknown := dead_of_unregistered unregistered
  refine ⟨fun exact_ => ?_, exact_of_answerable unknown⟩
  have alive : ∀ sender, s.event.sender = some sender → ¬ Dead d sender := fun sender here dead =>
    not_exact_of_sender unknown here dead exact_
  refine ⟨alive, ?_⟩
  obtain ⟨k, c, run, sound, stack, events⟩ := reach_terminate fields unknown alive
  cases full : s.event.message.isNull with
  | true =>
    left
    cases message : s.event.message <;> first | rfl | simp [message, Ptr.isNull] at full
  | false =>
    right
    cases slot : watcher fields s.event.message with
    | wild => exact absurd exact_ (not_exact_of_undefined (run.snoc (step_wild d fields sound stack full slot)) rfl)
    | pid found =>
      cases found with
      | none => exact .inl rfl
      | some w =>
        right
        have sent := run.snoc (step_found d fields sound stack full slot)
        have watch : watched s.event = some w := by
          refine Decidable.byContradiction fun other => ?_
          exact not_exact_of_sent (n := 0) sent (by simp [events]) (by simp) (terminated_uncalled other) exact_
        have message : s.event.message = .watch (some w) := by
          unfold watched at watch
          split at watch
          · rename_i here
            rw [here, watch]
          · cases watch
        exact ⟨w, message, fun dead => not_exact_of_watcher unknown alive message dead exact_⟩

/-- A system in which one process is registered. -/
def oneProcess : Directory String := ⟨((ProcessRegistry.new .deadLetter).add (.process "watcher") "w").2, rfl⟩

/-- Its watcher is told that the unregistered PID has terminated. -/
theorem exact_watch : Exact oneProcess (fun _ : Unit => .wild)
    (.system ⟨0, "nonhost", "gone"⟩ (.watch (some ⟨1, "nonhost", "w"⟩)) : Send Unit Unit) := by
  refine (exact_iff rfl).2 ⟨nofun, .inr (.inr ⟨_, rfl, fun dead => ?_⟩)⟩
  have alive : (Recipient.process "watcher") = .deadLetter := dead
  cases alive

/-- An `Unwatch` is answered like a `Watch`. -/
theorem unwatch_answered : ¬ Exact oneProcess (fun _ : Unit => .wild)
    (.system ⟨0, "nonhost", "gone"⟩ (.unwatch (some ⟨1, "nonhost", "w"⟩)) : Send Unit Unit) := by
  have unknown : Dead oneProcess ⟨0, "nonhost", "gone"⟩ := dead_of_unregistered rfl
  obtain ⟨k, c, run, sound, stack, events⟩ := reach_terminate (d := oneProcess) (fun _ : Unit => .wild)
    (s := (.system ⟨0, "nonhost", "gone"⟩ (.unwatch (some ⟨1, "nonhost", "w"⟩)) : Send Unit Unit)) unknown nofun
  have found := step_found oneProcess (fun _ : Unit => .wild) sound stack rfl (w := ⟨1, "nonhost", "w"⟩) rfl
  have first : c.events[0]? =
      some (⟨some ⟨0, "nonhost", "gone"⟩, .unwatch (some ⟨1, "nonhost", "w"⟩), none⟩ : Event Unit Unit) := by
    rw [events]
    rfl
  have other : watched (⟨some ⟨0, "nonhost", "gone"⟩, .unwatch (some ⟨1, "nonhost", "w"⟩), none⟩ : Event Unit Unit) ≠
      some ⟨1, "nonhost", "w"⟩ := by decide
  exact not_exact_of_sent (run.snoc found) first (List.mem_append_right _ (List.mem_singleton.2 rfl)) (terminated_uncalled other)

/-! ## The endless chain -/

/-- A `Terminated` about one dead PID is on its way to another. -/
structure Looping (d : Directory P) (c : Chain U K P) : Prop where
  sound : c.undefined = false
  here : ∃ a b rest, Dead d a ∧ Dead d b ∧ (c.stack = .send (.system a (.terminated (some b) .stopped)) :: rest ∨
    (∃ n n', c.stack = .respond n ⟨some a, .terminated (some b) .stopped, none⟩ ::
      .terminate n' ⟨some a, .terminated (some b) .stopped, none⟩ :: rest) ∨
    ∃ n, c.stack = .terminate n ⟨some a, .terminated (some b) .stopped, none⟩ :: rest)

theorem looping_step (fields : U → Slot) (looping : Looping d c) : ∃ c', step d fields c = some c' ∧ Looping d c' := by
  obtain ⟨sound, a, b, rest, dead, dead', stack | ⟨n, n', stack⟩ | ⟨n, stack⟩⟩ := looping
  · exact ⟨_, step_dead d fields sound stack dead, sound, a, b, rest, dead, dead', .inr (.inl ⟨_, _, rfl⟩)⟩
  · exact ⟨_, step_silent d fields sound stack rfl, sound, a, b, rest, dead, dead', .inr (.inr ⟨n', rfl⟩)⟩
  · exact ⟨_, step_found d fields sound stack rfl rfl, sound, b, a, rest, dead', dead, .inl rfl⟩

/-- **The chain has no end** where neither the PID nor the watcher of a `Watch` is registered. -/
theorem endless (fields : U → Slot) {w : PID} (unknown : Dead d s.pid) (dead : Dead d w)
    (alive : ∀ sender, s.event.sender = some sender → ¬ Dead d sender) (watch : s.event.message = .watch (some w)) :
    ∀ k c, Steps (step d fields) k (start s) c → step d fields c ≠ none := by
  obtain ⟨j, c, first, sound, stack, -⟩ := reach_terminate fields unknown alive
  have second := step_found d fields (w := w) sound stack (by rw [watch]; rfl) (by rw [watch]; rfl)
  intro k last run stopped
  obtain ⟨i, later⟩ := (first.snoc second).reach_stop run stopped
  have keep : ∀ c c' : Chain U K P, Looping d c → step d fields c = some c' → Looping d c' := by
    intro c c' looping moved
    obtain ⟨next, moved', looping'⟩ := looping_step fields looping
    rw [moved] at moved'
    cases moved'
    exact looping'
  have looping : Looping d last := by
    refine later.keeps keep ⟨sound, w, s.pid, [], dead, unknown, .inl ?_⟩
    rw [terminated, event_pid]
  obtain ⟨next, moved, -⟩ := looping_step fields looping
  rw [stopped] at moved
  cases moved

end Protoactor.Actor.DeadLetterProcess
