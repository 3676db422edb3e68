import Protoactor.Actor.Mailbox.Synchronized
import Protoactor.Actor.Mailbox.Steps

/-!
# Posting anything to one mailbox

A sequence of posts on one mailbox with the synchronous dispatcher and an invoker that
posts nothing back. `Pop` answers null for an empty queue and for a null item alike, so
the counter of a null item is never taken back: `ProcessMessages` then finds a positive
counter after every round, re-acquires each time and ends at `max_rounds` with the flag
`RUNNING`. The same happens when `max_iterations` is not positive, since no message is
popped at all.
-/

namespace Protoactor.Actor
set_option autoImplicit false
open Lib

variable {M σ K : Type}

theorem Lane.pop_empty {l : Lane M} (empty : l.queue = []) : l.pop = (none, l) := by
  obtain ⟨queue, messages, pushed, invoked⟩ := l
  cases empty
  rfl

theorem DefaultMailbox.setLane_lane (b : DefaultMailbox M) (k : Kind) : b.setLane k (b.lane k) = b := by
  cases k <;> rfl

namespace Synchronized

/-- A call of `PostUserMessage` or `PostSystemMessage`, before it has begun. -/
structure Post (M : Type) where
  kind : Kind
  message : Option M
  deriving DecidableEq, Repr

namespace Post

def call (p : Post M) : PostCall M := ⟨p.kind, p.message, .push⟩

/-- The messages of kind `k` that are not null. -/
def messages (k : Kind) (ps : List (Post M)) : List M :=
  ps.filterMap fun p => if p.kind = k then p.message else none

theorem messages_snoc (k : Kind) (ps : List (Post M)) (p : Post M) :
    messages k (ps ++ [p]) = messages k ps ++ (if p.kind = k then p.message else none).toList := by
  simp only [messages, List.filterMap_append, List.filterMap_cons, List.filterMap_nil]
  split <;> simp [*]

end Post

/-- No handler of the invoker sends. -/
def Behaviour.Silent (beh : Behaviour Unit M σ K) : Prop := ∀ rest memory, (beh.resume () rest memory).2 = none

/-- The stack of one thread over one mailbox. -/
def alone (b : DefaultMailbox M) (memory : σ) (stack : List (Frame Unit M K)) : Config Unit M σ K :=
  ⟨fun _ => b, memory, stack, []⟩

/-- The post `p` on the mailbox of `s` returns, with the mailbox of `s'`. -/
def Returns (h : Handlers) (beh : Behaviour Unit M σ K) (s : DefaultMailbox M × σ) (p : Post M)
    (s' : DefaultMailbox M × σ) : Prop :=
  ∃ n, Steps (step (fun _ => h) beh) n (alone s.1 s.2 [.post () p.call]) (alone s'.1 s'.2 [])

/-- One post after the other. -/
inductive Posts (h : Handlers) (beh : Behaviour Unit M σ K) (s : DefaultMailbox M × σ) :
    List (Post M) → DefaultMailbox M × σ → Prop where
  | nil : Posts h beh s [] s
  | snoc {ps : List (Post M)} {p : Post M} {t u : DefaultMailbox M × σ} :
      Posts h beh s ps t → Returns h beh t p u → Posts h beh s (ps ++ [p]) u

/-- The mailbox accounts for the posts so far. -/
structure Matches (ps : List (Post M)) (b : DefaultMailbox M) : Prop where
  counted : ∀ k, (b.lane k).messages = (b.lane k).queue.length
  idle : b.schedulerStatus = .idle
  invoked : ∀ k, (b.lane k).invoked.Perm (Post.messages k ps)

/-! ## The steps on one mailbox -/

section Steps

variable {h : Handlers} {beh : Behaviour Unit M σ K} {b b' : DefaultMailbox M} {memory : σ}
  {below : List (Frame Unit M K)}

/-- Some run of the machine leads from `c` to `c'`. -/
def Leads (h : Handlers) (beh : Behaviour Unit M σ K) (c c' : Config Unit M σ K) : Prop :=
  ∃ n, Steps (step (fun _ => h) beh) n c c'

theorem Leads.step {c c' c'' : Config Unit M σ K} (first : step (fun _ => h) beh c = some c')
    (rest : Leads h beh c' c'') : Leads h beh c c'' := by
  obtain ⟨n, run⟩ := rest
  exact ⟨n + 1, run.cons first⟩

theorem update_alone (b b' : DefaultMailbox M) : Function.update (fun _ : Unit => b) () b' = fun _ => b' := by
  funext u
  cases u
  simp

theorem step_post {call call' : PostCall M} (act : call.step b = some (b', call')) :
    step (fun _ => h) beh (alone b memory (.post () call :: below)) = some (alone b' memory (.post () call' :: below)) := by
  cases pc : call.pc with
  | dispatch | returned => simp [PostCall.step, pc] at act
  | push | fetchAdd | schedule => simp [step, alone, pc, act, update_alone]

theorem step_work {w w' : Worker M} (quiet : ∀ k m, w.pc ≠ .invoke k m) (act : w.step h b = some (b', w')) :
    step (fun _ => h) beh (alone b memory (.process () w :: below)) =
      some (alone b' memory (.process () w' :: below)) := by
  cases pc : w.pc with
  | returned => simp [Worker.step, pc] at act
  | invoke k m => exact absurd pc (quiet k m)
  | pop _ | fetchSub _ _ | invoking _ _ | checkSuspended | storeIdle | loadSys | loadUser _ | loadSuspended _ _
  | reacquire | threw => simp [step, alone, pc, act, update_alone]

end Steps

/-! ## A mailbox at rest and a real message -/

section Drained

variable {h : Handlers} {beh : Behaviour Unit M σ K} {b : DefaultMailbox M} {memory : σ}

/-- Nothing is queued or counted, and the flag may be in any state. -/
structure Drained (b : DefaultMailbox M) : Prop where
  active : b.suspended = 0
  queue : ∀ k, (b.lane k).queue = []
  messages : ∀ k, (b.lane k).messages = 0

/-- What the machine is left with once the `ProcessMessages` call has returned. -/
def Ends (h : Handlers) (beh : Behaviour Unit M σ K) (b : DefaultMailbox M) (memory : σ) (w : Worker M)
    (call : PostCall M) : Prop :=
  Leads h beh (alone b memory [.process () w, .post () call])
    (alone { b with schedulerStatus := .idle } memory [])

/-- `Pop` on an empty queue. -/
theorem step_miss {w : Worker M} {k : Kind} (pc : w.pc = .pop k) (empty : (b.lane k).queue = []) :
    ∃ w', w.step h b = some (b, w') ∧ w'.pc = (w.popped k none).pc := by
  simp only [Worker.step, pc, Lane.pop_empty empty, b.setLane_lane]
  refine ⟨_, rfl, ?_⟩
  cases k <;> rfl

/-- `Pop` of a message. -/
theorem step_take {w : Worker M} {k : Kind} {m : M} (pc : w.pc = .pop k) (answer : (b.lane k).pop.1 = some m) :
    ∃ w', w.step h b = some (b.setLane k (b.lane k).pop.2, w') ∧ w'.pc = .fetchSub k m := by
  simp only [Worker.step, pc, answer]
  exact ⟨_, rfl, rfl⟩

/-- After the store of `IDLE` both counters are 0, and the call returns. -/
theorem ends_of_storeIdle {w : Worker M} {call : PostCall M} (drained : Drained b) (posted : call.pc = .returned)
    (pc : w.pc = .storeIdle) : Ends h beh b memory w call := by
  obtain ⟨active, -, messages⟩ := drained
  have sys : b.system.messages = 0 := messages .system
  have user : b.user.messages = 0 := messages .user
  refine .step (step_work (by simp [pc]) (by simp only [Worker.step, pc]; rfl)) ?_
  refine .step (step_work (by simp) rfl) ?_
  refine .step (step_work (by simp) rfl) ?_
  refine .step (step_work (by simp) rfl) ?_
  simp only [sys, user, Int.lt_irrefl, and_false, or_false, if_false]
  refine ⟨2, ((Steps.zero _).cons ?_).cons rfl⟩
  simp [step, alone, posted]

/-- An iteration that finds both queues empty ends the call. -/
theorem ends_of_pop {w : Worker M} {call : PostCall M} (drained : Drained b) (posted : call.pc = .returned)
    (pc : w.pc = .pop .system) : Ends h beh b memory w call := by
  obtain ⟨w₁, missed, pc₁⟩ := step_miss (h := h) pc (drained.queue .system)
  refine .step (step_work (by simp [pc]) missed) ?_
  have active : Worker.step h b w₁ = some (b, { w₁ with pc := .pop .user }) := by
    simp [Worker.step, pc₁, Worker.popped, drained.active]
  refine .step (step_work (by simp [pc₁, Worker.popped]) active) ?_
  obtain ⟨w₂, missed, pc₂⟩ := step_miss (h := h) (w := { w₁ with pc := .pop .user }) rfl (drained.queue .user)
  refine .step (step_work (by simp) missed) ?_
  exact ends_of_storeIdle drained posted pc₂

/-- A message popped from a mailbox that has nothing else is processed and counted back,
and the call ends. -/
theorem ends_of_fetchSub {w : Worker M} {call : PostCall M} {k : Kind} {m : M} (silent : beh.Silent)
    (active : b.suspended = 0) (queue : ∀ j, (b.lane j).queue = [])
    (messages : ∀ j, (b.lane j).messages = if j = k then 1 else 0)
    (posted : call.pc = .returned) (pc : w.pc = .fetchSub k m) :
    ∃ memory', Leads h beh (alone b memory [.process () w, .post () call])
      (alone { b.setLane k ((b.lane k).fetchSub.invoke m) with schedulerStatus := .idle } memory' []) := by
  have drained : Drained (b.setLane k ((b.lane k).fetchSub.invoke m)) := by
    refine ⟨by simpa using active, fun j => ?_, fun j => ?_⟩
    · rcases b.lane_setLane_cases k j ((b.lane k).fetchSub.invoke m) with ⟨rfl, own⟩ | ⟨-, other⟩
      · rw [own]
        exact queue j
      · rw [other]
        exact queue j
    · rcases b.lane_setLane_cases k j ((b.lane k).fetchSub.invoke m) with ⟨rfl, own⟩ | ⟨different, other⟩
      · rw [own]
        simp [Lane.invoke, Lane.fetchSub, messages]
      · rw [other, messages, if_neg different]
  have twice : (b.setLane k (b.lane k).fetchSub).setLane k (((b.setLane k (b.lane k).fetchSub).lane k).invoke m) =
      b.setLane k ((b.lane k).fetchSub.invoke m) := by
    cases k <;> rfl
  have returns : beh.resume () (beh.receive () k m) memory = ((beh.resume () (beh.receive () k m) memory).1, none) :=
    Prod.ext rfl (silent _ _)
  let b' := b.setLane k ((b.lane k).fetchSub.invoke m)
  let memory' := (beh.resume () (beh.receive () k m) memory).1
  let w' : Worker M := { w with pc := .invoking k m, processedAny := true }
  have called : step (fun _ => h) beh (alone (b.setLane k (b.lane k).fetchSub) memory
      [.process () { w with pc := .invoke k m, processedAny := true }, .post () call]) =
      some (alone b' memory [.handler () (beh.receive () k m), .process () w', .post () call]) := by
    simp only [step, alone, Worker.step, Option.map_some, update_alone, twice, b', w']
  have returned : step (fun _ => h) beh (alone b' memory [.handler () (beh.receive () k m), .process () w', .post () call]) =
      some (alone b' memory' [.process () w', .post () call]) := by
    simp only [step, alone]
    rw [returns]
  refine ⟨memory', .step (step_work (by simp [pc]) (by simp only [Worker.step, pc]; rfl)) ?_⟩
  refine .step called (.step returned (.step (step_work (by simp) rfl) ?_))
  by_cases more : w.i < maxIterations h
  · apply ends_of_pop drained posted
    simp [w', Worker.iterate, more]
  · apply ends_of_storeIdle drained posted
    simp [w', Worker.iterate, more]

/-- The mailbox when a post on one that was `IDLE` has won the flag. -/
def afterPost (b : DefaultMailbox M) (p : Post M) : DefaultMailbox M :=
  { b.setLane p.kind ((b.lane p.kind).push p.message).fetchAdd with schedulerStatus := .running }

theorem lane_afterPost (p : Post M) (j : Kind) : (afterPost b p).lane j =
    if j = p.kind then ((b.lane j).push p.message).fetchAdd else b.lane j := by
  rw [afterPost, DefaultMailbox.lane_status]
  rcases b.lane_setLane_cases p.kind j ((b.lane p.kind).push p.message).fetchAdd with ⟨rfl, own⟩ | ⟨different, other⟩
  · rw [own, if_pos rfl]
  · rw [other, if_neg different]

/-- Such a post starts `ProcessMessages`. -/
theorem leads_of_post {p : Post M} {c : Config Unit M σ K} (idle : b.schedulerStatus = .idle)
    (rest : Leads h beh (alone (afterPost b p) memory
      [.process () (.processMessages h), .post () { p.call with pc := .returned }]) c) :
    Leads h beh (alone b memory [.post () p.call]) c := by
  have won : PostCall.step (b.setLane p.kind ((b.lane p.kind).push p.message).fetchAdd) { p.call with pc := .schedule } =
      some (afterPost b p, { p.call with pc := .dispatch }) := by
    simp [PostCall.step, afterPost, idle]
  have counted : PostCall.step (b.setLane p.kind ((b.lane p.kind).push p.message)) { p.call with pc := .fetchAdd } =
      some (b.setLane p.kind ((b.lane p.kind).push p.message).fetchAdd, { p.call with pc := .schedule }) := by
    cases kind : p.kind <;> simp [PostCall.step, Post.call, kind, DefaultMailbox.setLane, DefaultMailbox.lane]
  exact .step (step_post rfl) (.step (step_post counted) (.step (step_post won) (.step rfl rest)))

theorem processMessages_pop (positive : 0 < maxIterations h) :
    (Worker.processMessages h : Worker M).pc = .pop .system := by
  simp [Worker.processMessages, Worker.nextRound, Worker.processLoop, Worker.iterate, maxRounds, positive]

theorem afterPost_pop {k : Kind} (m : M) (lanes : ∀ j, (b.lane j).Resting) :
    ((afterPost b ⟨k, some m⟩).lane k).pop =
      (some m, ⟨[], 1, (b.lane k).pushed ++ [some m], (b.lane k).invoked⟩) := by
  rw [lane_afterPost, if_pos rfl]
  simp only [Lane.pop, Lane.push, Lane.fetchAdd, Queue.push, (lanes k).queue, (lanes k).messages]
  rfl

/-- Once its message has been popped the call comes to rest. -/
theorem rests_of_fetchSub {k : Kind} {m : M} {w : Worker M} (silent : beh.Silent) (active : b.suspended = 0)
    (lanes : ∀ j, (b.lane j).Resting) (pc : w.pc = .fetchSub k m) :
    ∃ b' memory', Leads h beh (alone ((afterPost b ⟨k, some m⟩).setLane k
        ((afterPost b ⟨k, some m⟩).lane k).pop.2) memory [.process () w, .post () ⟨k, some m, .returned⟩])
        (alone b' memory' []) ∧
      Quiet b' ∧ ∀ j, (b'.lane j).invoked = (b.lane j).invoked ++ if k = j then [m] else [] := by
  rw [afterPost_pop m lanes]
  let taken := (afterPost b ⟨k, some m⟩).setLane k ⟨[], 1, (b.lane k).pushed ++ [some m], (b.lane k).invoked⟩
  have own : taken.lane k = ⟨[], 1, (b.lane k).pushed ++ [some m], (b.lane k).invoked⟩ := DefaultMailbox.lane_setLane ..
  have other : ∀ j, j ≠ k → taken.lane j = b.lane j := by
    intro j different
    rw [DefaultMailbox.lane_setLane_of_ne _ _ different, lane_afterPost, if_neg different]
  have calm : taken.suspended = 0 := by simpa [taken, afterPost] using active
  have empty : ∀ j, (taken.lane j).queue = [] := by
    intro j
    by_cases same : j = k <;> simp [same, own, other, (lanes j).queue]
  have counted : ∀ j, (taken.lane j).messages = if j = k then 1 else 0 := by
    intro j
    by_cases same : j = k <;> simp [same, own, other, (lanes j).messages]
  have returned : (⟨k, some m, .returned⟩ : PostCall M).pc = .returned := rfl
  obtain ⟨memory', leads⟩ := ends_of_fetchSub silent calm empty counted returned pc
  refine ⟨_, memory', leads, ⟨rfl, by simpa using calm, fun j => ?_⟩, fun j => ?_⟩
  · rw [DefaultMailbox.lane_status]
    by_cases same : j = k
    · subst same
      rw [DefaultMailbox.lane_setLane, own]
      exact ⟨rfl, rfl, by simp [Lane.invoke, Lane.fetchSub, (lanes j).history]⟩
    · rw [DefaultMailbox.lane_setLane_of_ne _ _ same, other j same]
      exact lanes j
  · rw [DefaultMailbox.lane_status]
    by_cases same : j = k
    · subst same
      rw [DefaultMailbox.lane_setLane, own, if_pos rfl]
      rfl
    · rw [DefaultMailbox.lane_setLane_of_ne _ _ same, other j same, if_neg (Ne.symm same), List.append_nil]

/-- **One real message.** From a mailbox at rest its post returns, and the mailbox is at
rest again with the message invoked. -/
theorem returns_of_real {k : Kind} {m : M} (silent : beh.Silent) (positive : 0 < maxIterations h) (quiet : Quiet b) :
    ∃ b' memory', Returns h beh (b, memory) ⟨k, some m⟩ (b', memory') ∧ Quiet b' ∧
      ∀ j, (b'.lane j).invoked = (b.lane j).invoked ++ if k = j then [m] else [] := by
  obtain ⟨idle, active, lanes⟩ := quiet
  have took : ((afterPost b ⟨k, some m⟩).lane k).pop.1 = some m := by rw [afterPost_pop m lanes]
  have first := processMessages_pop (M := M) positive
  cases k with
  | system =>
    obtain ⟨w, act, pc⟩ := step_take (h := h) first took
    obtain ⟨b', memory', leads, rests⟩ := rests_of_fetchSub silent active lanes pc
    exact ⟨b', memory', leads_of_post idle (.step (step_work (by simp [first]) act) leads), rests⟩
  | user =>
    have nothing : ((afterPost b ⟨.user, some m⟩).lane .system).queue = [] := by
      rw [lane_afterPost, if_neg (by simp)]
      exact (lanes .system).queue
    have calm : (afterPost b ⟨.user, some m⟩).suspended = 0 := by simpa [afterPost] using active
    obtain ⟨w, missed, pc⟩ := step_miss (h := h) first nothing
    have checked : Worker.step h (afterPost b ⟨.user, some m⟩) w =
        some (afterPost b ⟨.user, some m⟩, { w with pc := .pop .user }) := by
      simp [Worker.step, pc, Worker.popped, calm]
    obtain ⟨w', act, pc'⟩ := step_take (h := h) (w := { w with pc := .pop .user }) rfl took
    obtain ⟨b', memory', leads, rests⟩ := rests_of_fetchSub silent active lanes pc'
    refine ⟨b', memory', leads_of_post idle ?_, rests⟩
    refine .step (step_work (by simp [first]) missed) (.step (step_work ?_ checked) (.step (step_work (by simp) act) leads))
    simp [pc, Worker.popped]

end Drained

/-! ## A post that leaves a count behind -/

section Wedged

variable {h : Handlers} {beh : Behaviour Unit M σ K} {k : Kind} {b b' : DefaultMailbox M}

/-- `ProcessLoop` pops nothing that it could process. -/
def Barren (h : Handlers) (b : DefaultMailbox M) : Prop :=
  0 < maxIterations h → ∀ j, ∀ item ∈ (b.lane j).queue, item = none

/-- The counter is positive, and nothing is there to take it back. -/
structure Owing (h : Handlers) (k : Kind) (b : DefaultMailbox M) : Prop where
  active : b.suspended = 0
  count : (b.lane k).messages = 1
  barren : Barren h b

/-- Where the post stands, and what it finds. -/
def PostPhase (h : Handlers) (k : Kind) (b : DefaultMailbox M) (call : PostCall M) : Prop :=
  match call.pc with
  | .push => call.kind = k ∧ (call.message = none ∨ maxIterations h ≤ 0) ∧ Quiet b
  | .fetchAdd => call.kind = k ∧ b.suspended = 0 ∧ (b.lane k).messages = 0 ∧ Barren h b ∧ b.schedulerStatus = .idle
  | .schedule => Owing h k b ∧ b.schedulerStatus = .idle
  | .dispatch => Owing h k b ∧ b.schedulerStatus = .running
  | .returned => b.schedulerStatus = .running

/-- Where `ProcessMessages` stands: it holds no message, and the values it has loaded
make it re-acquire. -/
def WorkPhase (h : Handlers) (k : Kind) (b : DefaultMailbox M) (w : Worker M) : Prop :=
  match w.pc with
  | .pop _ | .checkSuspended => b.schedulerStatus = .running ∧ 0 < maxIterations h
  | .storeIdle | .returned => b.schedulerStatus = .running
  | .loadSys | .reacquire => b.schedulerStatus = .idle
  | .loadUser sys => b.schedulerStatus = .idle ∧ (k = .system → 0 < sys)
  | .loadSuspended sys user => b.schedulerStatus = .idle ∧ (k = .system → 0 < sys) ∧ (k = .user → 0 < user)
  | .fetchSub _ _ | .invoke _ _ | .invoking _ _ | .threw => False

/-- The post has wedged the mailbox or is about to. -/
inductive Wedged (h : Handlers) (k : Kind) : Config Unit M σ K → Prop where
  | posting {boxes : Unit → DefaultMailbox M} {memory : σ} {call : PostCall M} {sent : List (Send Unit M)}
      (phase : PostPhase h k (boxes ()) call) : Wedged h k ⟨boxes, memory, [.post () call], sent⟩
  | working {boxes : Unit → DefaultMailbox M} {memory : σ} {w : Worker M} {call : PostCall M} {sent : List (Send Unit M)}
      (owing : Owing h k (boxes ())) (phase : WorkPhase h k (boxes ()) w) (posted : call.pc = .returned) :
      Wedged h k ⟨boxes, memory, [.process () w, .post () call], sent⟩
  | ended {boxes : Unit → DefaultMailbox M} {memory : σ} {sent : List (Send Unit M)}
      (running : (boxes ()).schedulerStatus = .running) : Wedged h k ⟨boxes, memory, [], sent⟩

theorem Owing.status (owing : Owing h k b) (status : SchedulerStatus) :
    Owing h k { b with schedulerStatus := status } := by
  refine ⟨owing.active, ?_, fun positive j => ?_⟩
  · rw [DefaultMailbox.lane_status]
    exact owing.count
  · rw [DefaultMailbox.lane_status]
    exact owing.barren positive j

theorem postPhase_step {call call' : PostCall M} (phase : PostPhase h k b call) (act : call.step b = some (b', call')) :
    PostPhase h k b' call' := by
  cases PostCall.act act with
  | push pc =>
    simp only [PostPhase, pc] at phase ⊢
    obtain ⟨rfl, nothing, quiet⟩ := phase
    refine ⟨rfl, by simpa using quiet.active, ?_, ?_, by simpa using quiet.idle⟩
    · rw [DefaultMailbox.lane_setLane]
      exact (quiet.lanes call.kind).messages
    · intro positive j item member
      have null : call.message = none := nothing.resolve_right (by omega)
      rcases b.lane_setLane_cases call.kind j ((b.lane call.kind).push call.message) with ⟨rfl, own⟩ | ⟨-, other⟩
      · rw [own] at member
        simpa [Lane.push, Queue.push, (quiet.lanes call.kind).queue, null] using member
      · rw [other, (quiet.lanes j).queue] at member
        cases member
  | fetchAdd pc =>
    simp only [PostPhase, pc] at phase ⊢
    obtain ⟨rfl, active, count, barren, idle⟩ := phase
    refine ⟨⟨by simpa using active, ?_, fun positive j item member => ?_⟩, by simpa using idle⟩
    · rw [DefaultMailbox.lane_setLane, Lane.fetchAdd, count]
      rfl
    · rcases b.lane_setLane_cases call.kind j (b.lane call.kind).fetchAdd with ⟨rfl, own⟩ | ⟨-, other⟩
      · rw [own] at member
        exact barren positive call.kind item member
      · rw [other] at member
        exact barren positive j item member
  | win pc idle =>
    simp only [PostPhase, pc] at phase ⊢
    exact ⟨phase.1.status .running, trivial⟩
  | lose pc running =>
    simp only [PostPhase, pc] at phase ⊢
    exact running

theorem Owing.pop (owing : Owing h k b) (j : Kind) : Owing h k (b.setLane j (b.lane j).pop.2) := by
  refine ⟨by simpa using owing.active, ?_, fun positive i item member => ?_⟩
  · rcases b.lane_setLane_cases j k (b.lane j).pop.2 with ⟨rfl, own⟩ | ⟨-, other⟩
    · rw [own]
      exact owing.count
    · rw [other]
      exact owing.count
  · rcases b.lane_setLane_cases j i (b.lane j).pop.2 with ⟨rfl, own⟩ | ⟨-, other⟩
    · rw [own] at member
      apply owing.barren positive i item
      unfold Lane.pop Queue.pop at member
      split at member
      · cases member
      · rename_i queue
        rw [queue]
        exact List.mem_cons_of_mem _ member
    · rw [other] at member
      exact owing.barren positive i item member

theorem Owing.pop_none (owing : Owing h k b) (positive : 0 < maxIterations h) (j : Kind) : (b.lane j).pop.1 = none := by
  cases answer : (b.lane j).pop.1 with
  | none => rfl
  | some m =>
    have queue := Queue.pop_some (Prod.ext answer rfl : (b.lane j).queue.pop = (some m, (b.lane j).queue.pop.2))
    have member : some m ∈ (b.lane j).queue := by
      rw [queue]
      exact List.mem_cons_self
    cases owing.barren positive j (some m) member

/-- A round begins, or the 1000th has ended, with the flag `RUNNING`. -/
theorem workPhase_nextRound (w : Worker M) (running : b.schedulerStatus = .running) : WorkPhase h k b (w.nextRound h) := by
  unfold Worker.nextRound
  split
  · unfold Worker.processLoop Worker.iterate
    split
    · rename_i positive
      exact ⟨running, positive⟩
    · exact running
  · exact running

theorem workPhase_step {w w' : Worker M} (owing : Owing h k b) (phase : WorkPhase h k b w)
    (act : w.step h b = some (b', w')) : Owing h k b' ∧ WorkPhase h k b' w' := by
  cases Worker.act act with
  | take pc answer looked =>
    simp only [WorkPhase, pc] at phase
    rw [owing.pop_none phase.2] at answer
    cases answer
  | @miss j seen pc answer looked =>
    simp only [WorkPhase, pc] at phase
    refine ⟨owing.pop j, ?_⟩
    cases j with
    | system => simpa [Worker.popped, WorkPhase] using phase
    | user => simpa [Worker.popped, WorkPhase] using phase.1
  | fetchSub pc | invoke pc | handled pc => simp only [WorkPhase, pc] at phase
  | suspended pc yes =>
    simp only [WorkPhase, pc] at phase ⊢
    exact ⟨owing, phase.1⟩
  | active pc no =>
    simp only [WorkPhase, pc] at phase ⊢
    exact ⟨owing, phase⟩
  | storeIdle pc => exact ⟨owing.status .idle, rfl⟩
  | loadSys pc =>
    simp only [WorkPhase, pc] at phase ⊢
    refine ⟨owing, phase, fun system => ?_⟩
    have count := owing.count
    rw [system] at count
    exact lt_of_lt_of_eq Int.one_pos count.symm
  | loadUser pc =>
    simp only [WorkPhase, pc] at phase ⊢
    refine ⟨owing, phase.1, phase.2, fun user => ?_⟩
    have count := owing.count
    rw [user] at count
    exact lt_of_lt_of_eq Int.one_pos count.symm
  | again pc more =>
    simp only [WorkPhase, pc] at phase ⊢
    exact ⟨owing, phase.1⟩
  | drained pc nothing =>
    simp only [WorkPhase, pc] at phase
    refine absurd ?_ nothing
    cases k with
    | system => exact .inl (phase.2.1 rfl)
    | user => exact .inr ⟨owing.active, phase.2.2 rfl⟩
  | reacquire pc idle => exact ⟨owing.status .running, workPhase_nextRound _ rfl⟩
  | overtaken pc running =>
    simp only [WorkPhase, pc] at phase
    rw [running] at phase
    cases phase

theorem wedged_step {c c' : Config Unit M σ K} (wedged : Wedged h k c) (next : step (fun _ => h) beh c = some c') :
    Wedged h k c' := by
  have move := move_of_step next
  cases wedged with
  | ended running => cases move
  | posting phase =>
    cases move with
    | post act =>
      refine .posting ?_
      rw [Function.update_self]
      exact postPhase_step phase act
    | dispatch pc =>
      simp only [PostPhase, pc] at phase
      exact .working phase.1 (workPhase_nextRound _ phase.2) rfl
    | posted pc =>
      simp only [PostPhase, pc] at phase
      exact .ended phase
  | working owing phase posted =>
    cases move with
    | work quiet act =>
      obtain ⟨owing, phase⟩ := workPhase_step owing phase act
      refine .working ?_ ?_ posted <;> rwa [Function.update_self]
    | invoke pc act => simp only [WorkPhase, pc] at phase
    | processed pc =>
      simp only [WorkPhase, pc] at phase
      refine .posting ?_
      simpa only [PostPhase, posted] using phase

/-- **A null, or no iterations.** A post that leaves a count behind never brings the mailbox
back to `IDLE`. -/
theorem wedged_of_returns {s s' : DefaultMailbox M × σ} {p : Post M} (quiet : Quiet s.1)
    (nothing : p.message = none ∨ maxIterations h ≤ 0) (returns : Returns h beh s p s') :
    s'.1.schedulerStatus = .running := by
  obtain ⟨n, run⟩ := returns
  have wedged : Wedged h p.kind (alone s.1 s.2 [.post () p.call] : Config Unit M σ K) := .posting ⟨rfl, nothing, quiet⟩
  cases run.keeps (fun _ _ => wedged_step) wedged with
  | ended running => exact running

end Wedged

/-! ## All posts -/

section Counters

variable {h : Handlers} {beh : Behaviour Unit M σ K} {s t u : DefaultMailbox M × σ} {ps : List (Post M)}

theorem Returns.unique {p : Post M} (done : Returns h beh s p t) (done' : Returns h beh s p u) : t = u := by
  obtain ⟨n, run⟩ := done
  obtain ⟨n', run'⟩ := done'
  have same := run.stop_unique run' rfl rfl
  injection same with boxes memory
  exact Prod.ext (congrFun boxes ()) memory

/-- The machine is deterministic, and so are the posts. -/
theorem Posts.unique (done : Posts h beh s ps t) (done' : Posts h beh s ps u) : t = u := by
  induction done generalizing u with
  | nil =>
    generalize none : ([] : List (Post M)) = qs at done'
    cases done' with
    | nil => rfl
    | snoc before last => simp at none
  | snoc before last ih =>
    rename_i ps p t' u'
    generalize split : ps ++ [p] = qs at done'
    cases done' with
    | nil => simp at split
    | snoc before' last' =>
      obtain ⟨rfl, single⟩ := List.append_inj' split rfl
      cases single
      cases ih before'
      exact last.unique last'

theorem Posts.last {p : Post M} (done : Posts h beh s (ps ++ [p]) u) : ∃ t, Posts h beh s ps t ∧ Returns h beh t p u := by
  generalize split : ps ++ [p] = qs at done
  cases done with
  | nil => simp at split
  | snoc before last =>
    obtain ⟨rfl, single⟩ := List.append_inj' split rfl
    cases single
    exact ⟨_, before, last⟩

theorem quiet_new : Quiet (DefaultMailbox.new : DefaultMailbox M) :=
  ⟨rfl, rfl, fun k => by cases k <;> exact ⟨rfl, rfl, rfl⟩⟩

/-- Real messages are processed one by one. -/
theorem posts_real (silent : beh.Silent) (memory : σ) (real : ∀ p ∈ ps, p.message ≠ none ∧ 0 < maxIterations h) :
    ∃ b memory', Posts h beh (DefaultMailbox.new, memory) ps (b, memory') ∧ Quiet b ∧
      ∀ k, (b.lane k).invoked = Post.messages k ps := by
  induction ps using List.reverseRecOn with
  | nil => exact ⟨DefaultMailbox.new, memory, .nil, quiet_new, fun k => by cases k <;> rfl⟩
  | append_singleton ps p ih =>
    obtain ⟨b, memory', before, quiet, invoked⟩ := ih fun q member => real q (List.mem_append_left _ member)
    obtain ⟨some, positive⟩ := real p (by simp)
    obtain ⟨k, message⟩ := p
    obtain ⟨m, rfl⟩ := Option.ne_none_iff_exists'.1 some
    obtain ⟨b', memory'', returns, quiet', invoked'⟩ := returns_of_real silent positive quiet
    refine ⟨b', memory'', before.snoc returns, quiet', fun j => ?_⟩
    rw [invoked', invoked, Post.messages_snoc]
    by_cases same : k = j <;> simp [same]

/-- **The counters match the queues exactly when every post is a real one**, `max_iterations`
being positive: no null message is posted. -/
theorem counters_match_iff (silent : beh.Silent) (memory : σ) (ps : List (Post M)) :
    (∀ qs, qs <+: ps → ∃ b memory', Posts h beh (DefaultMailbox.new, memory) qs (b, memory') ∧ Matches qs b) ↔
      ∀ p ∈ ps, p.message ≠ none ∧ 0 < maxIterations h := by
  constructor
  · intro all
    induction ps using List.reverseRecOn with
    | nil => nofun
    | append_singleton ps p ih =>
      have before := ih fun qs initial => all qs (initial.trans (List.prefix_append ps [p]))
      obtain ⟨b, memory', done, matched⟩ := all (ps ++ [p]) (List.prefix_refl _)
      obtain ⟨t, done, returns⟩ := done.last
      obtain ⟨b₀, memory₀, real, quiet, -⟩ := posts_real silent memory before
      cases done.unique real
      have fine : p.message ≠ none ∧ 0 < maxIterations h := by
        by_contra bad
        have nothing : p.message = none ∨ maxIterations h ≤ 0 := by
          rw [not_and_or, not_not, not_lt] at bad
          exact bad
        have running := wedged_of_returns quiet nothing returns
        rw [matched.idle] at running
        cases running
      intro q member
      rcases List.mem_append.1 member with earlier | last
      · exact before q earlier
      · rw [List.mem_singleton.1 last]
        exact fine
  · intro real qs initial
    obtain ⟨b, memory', done, quiet, invoked⟩ := posts_real silent memory fun p member => real p (initial.subset member)
    refine ⟨b, memory', done, ⟨fun k => ?_, quiet.idle, fun k => invoked k ▸ .refl _⟩⟩
    simp [(quiet.lanes k).messages, (quiet.lanes k).queue]

/-- An invoker that only takes note of its messages. -/
def counting : Behaviour Unit Nat Nat Nat where
  receive _ _ m := m
  resume _ m total := (total + m, none)

theorem counters_match_iff_two :
    (∀ qs, qs <+: [⟨.user, some 1⟩, ⟨.system, some 2⟩] → ∃ b total,
      Posts ⟨300⟩ counting (DefaultMailbox.new, 0) qs (b, total) ∧ Matches qs b) ↔
      ∀ p ∈ ([⟨.user, some 1⟩, ⟨.system, some 2⟩] : List (Post Nat)), p.message ≠ none ∧ 0 < maxIterations ⟨300⟩ :=
  counters_match_iff (fun _ _ => rfl) 0 _

/-- One null user message: the flag never becomes `IDLE` again. -/
theorem null_wedges : ¬ ∀ ps : List (Post Nat), ∀ qs, qs <+: ps → ∃ b total,
    Posts ⟨300⟩ counting (DefaultMailbox.new, 0) qs (b, total) ∧ Matches qs b := by
  intro all
  obtain ⟨b, total, done, matched⟩ := all [⟨.user, none⟩] [⟨.user, none⟩] (List.prefix_refl _)
  have one : [⟨.user, none⟩] = ([] : List (Post Nat)) ++ [⟨.user, none⟩] := rfl
  obtain ⟨t, done, returns⟩ := (one ▸ done).last
  cases done.unique .nil
  have running := wedged_of_returns quiet_new (.inl rfl) returns
  rw [matched.idle] at running
  cases running

end Counters

end Synchronized

end Protoactor.Actor
