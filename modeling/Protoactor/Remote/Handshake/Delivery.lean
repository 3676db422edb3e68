import Mathlib.Data.List.Infix
import Protoactor.Remote.Handshake.Steps

/-!
# What arrives on the other node (`endpoint_writer.cpp`, `grpc_service.cpp`, `endpoint_reader.cpp`)

From the messages that a writer is given to the deliveries on the node that it calls, with a
connection that may break at any time. Once `connected_` is false the writer drops the batches that
it would send, and it never connects again; an exception that leaves `Receive` takes its batch along,
and nothing is received after it. So what was dropped is always behind what was written, and what
arrives has no gaps (`arrived_run`).
-/

namespace Protoactor.Remote
set_option autoImplicit false
open Lib
open Actor (Ptr)

variable {P M : Type} {env : Surroundings P M} {ends : Ends}

namespace Session

/-- An entry that is not skipped. -/
def through (env : Surroundings P M) (r : DeliverPtr P M) : Bool := goesThrough env.registry r.deliver

/-- What the writer has been given, by the labels of a run. -/
def given (labels : List (SessionLabel P M)) : List (DeliverPtr P M) :=
  labels.filterMap fun
    | .deliver deliver => some deliver
    | _ => none

/-- Before the writer receives messages. -/
def handshaking : Place → Bool
  | .connecting | .opened | .requested | .accepted => true
  | .receiving | .closing | .thrown => false

variable [DecidableEq P]

/-- An entry of the wire: a batch with the entries of it that go through. -/
def Built (env : Surroundings P M) (entry : List (DeliverPtr P M) × MessageBatch) : Prop :=
  ∃ batch : List (DeliverPtr P M), entry.1 = batch.filter (through env) ∧
    messageBatch env.registry env.pids (batch.map fun r => some r.deliver) = .ok entry.2

/-- What was written comes first of what was given; while the writer is connected and has not thrown, it is all that was
passed on. -/
structure Gapless (env : Surroundings P M) (given : List (DeliverPtr P M)) (place : Place) (w : EndpointWriter P M) : Prop where
  built : ∀ entry ∈ w.wire, Built env entry
  written : w.wire.flatMap Prod.fst <+: given.filter (through env)
  early : handshaking place = true → given = [] ∧ w.passed = [] ∧ w.messageQueue = [] ∧ w.wire = []
  stream : place = .opened ∨ place = .requested ∨ place = .accepted ∨ w.connected = true → w.stream = true
  calm : place ≠ .thrown → w.thrown = false
  whole : w.connected = true → w.thrown = false →
    w.wire.flatMap Prod.fst = w.passed.filter (through env) ∧ w.passed ++ w.messageQueue = given

/-- Nothing of a batch without an envelope goes through. -/
theorem filter_of_unsent {batch : List (DeliverPtr P M)} {message : MessageBatch}
    (made : messageBatch env.registry env.pids (batch.map fun r => some r.deliver) = .ok message) (none : message.envelopes = []) :
    batch.filter (through env) = [] := by
  have entries := (batchOf_entries env.registry env.pids (batch.map fun r => some r.deliver)).length_eq
  rw [← messageBatch_ok made, none, List.length_nil, List.filterMap_map] at entries
  refine List.filter_eq_nil_iff.2 fun r member goes => ?_
  have there : r.deliver ∈ batch.filterMap ((fun d => d.filter (goesThrough env.registry)) ∘ fun r => some r.deliver) :=
    List.mem_filterMap.2 ⟨r, member, by simp only [Function.comp_apply, Option.filter_some]; exact if_pos goes⟩
  rw [List.length_eq_zero_iff.1 entries] at there
  cases there

/-- What becomes of a batch that a connected writer passes on. -/
structure Passes (env : Surroundings P M) (batch : List (DeliverPtr P M)) (w w' : EndpointWriter P M) : Prop where
  built : ∀ entry ∈ w'.wire, entry ∈ w.wire ∨ Built env entry
  stream : w'.connected = true → w'.stream = true
  whole : w'.connected = true → w'.thrown = false → w'.messageQueue = w.messageQueue ∧ w'.passed = w.passed ++ batch ∧
    w'.wire.flatMap Prod.fst = w.wire.flatMap Prod.fst ++ batch.filter (through env)
  lost : w'.connected = false ∨ w'.thrown = true → w'.wire = w.wire

theorem sendMessageBatch_passes (env : Surroundings P M) (write : Bool) {batch : List (DeliverPtr P M)} {w : EndpointWriter P M}
    (streamed : w.stream = true) (connected : w.connected = true) (calm : w.thrown = false) (some_ : batch ≠ []) :
    Passes env batch w (w.sendMessageBatch env write batch) := by
  have off : ¬(w.connected = false ∨ batch = []) := by simp [connected, some_]
  simp only [EndpointWriter.sendMessageBatch]
  rw [if_neg off, if_neg (by simp [streamed])]
  split
  · exact ⟨fun entry member => .inl member, fun _ => streamed, fun _ none_ => (by cases none_), fun _ => rfl⟩
  · rename_i message made
    split
    · cases write with
      | true =>
        refine ⟨fun entry member => ?_, fun _ => streamed, fun _ _ => ⟨rfl, rfl, ?_⟩, fun lost => ?_⟩
        · rcases List.mem_append.1 member with old | new
          · exact .inl old
          · rw [List.mem_singleton.1 new]
            exact .inr ⟨batch, rfl, made⟩
        · simp only [if_true, List.flatMap_append, List.flatMap_cons, List.flatMap_nil, List.append_nil]
          rfl
        · exact absurd lost (by simp [connected, calm])
      | false => exact ⟨fun entry member => .inl member, fun on => (by cases on), fun on => (by cases on), fun _ => rfl⟩
    · rename_i unsent
      refine ⟨fun entry member => .inl member, fun _ => streamed, fun _ _ => ⟨rfl, rfl, ?_⟩, fun _ => rfl⟩
      dsimp only
      rw [filter_of_unsent made (List.length_eq_zero_iff.1 (by omega)), List.append_nil]

/-- **A message for a connected writer.** -/
theorem receiveDeliver_whole (env : Surroundings P M) (write : Bool) (deliver : DeliverPtr P M) {w : EndpointWriter P M}
    (streamed : w.stream = true) (connected : w.connected = true) (calm : w.thrown = false) :
    let w' := w.receiveDeliver env write deliver
    (∀ entry ∈ w'.wire, entry ∈ w.wire ∨ Built env entry) ∧ (w'.connected = true → w'.stream = true) ∧
      (w'.connected = true → w'.thrown = false → w'.passed ++ w'.messageQueue = w.passed ++ w.messageQueue ++ [deliver] ∧
        (w.wire.flatMap Prod.fst = w.passed.filter (through env) → w'.wire.flatMap Prod.fst = w'.passed.filter (through env))) ∧
      (w'.connected = false ∨ w'.thrown = true → w'.wire = w.wire) := by
  intro w'
  simp only [w', EndpointWriter.receiveDeliver, EndpointWriter.sendBatch]
  split
  · split
    · rename_i _ none
      refine ⟨fun entry member => .inl member, fun _ => streamed, fun _ _ => ⟨?_, id⟩, fun _ => rfl⟩
      dsimp only
      have all := List.take_append_drop (min (w.messageQueue ++ [deliver]).length env.batchSize) (w.messageQueue ++ [deliver])
      rw [none, List.nil_append] at all
      rw [all, List.append_assoc]
    · rename_i _ some_
      obtain ⟨built, stream, whole, lost⟩ := sendMessageBatch_passes env write
        (w := { w with messageQueue := (w.messageQueue ++ [deliver]).drop (min (w.messageQueue ++ [deliver]).length env.batchSize) })
        streamed connected calm some_
      refine ⟨built, stream, fun on quiet => ?_, lost⟩
      obtain ⟨queue, passed, wire⟩ := whole on quiet
      refine ⟨?_, fun same => ?_⟩
      · rw [queue, passed, List.append_assoc, List.take_append_drop, List.append_assoc]
      · rw [wire, passed, List.filter_append]
        exact congrArg (· ++ _) same
  · exact ⟨fun entry member => .inl member, fun _ => streamed, fun _ _ => ⟨(List.append_assoc ..).symm, id⟩, fun _ => rfl⟩

theorem gapless_start (env : Surroundings P M) : Gapless env [] .connecting (EndpointWriter.new : EndpointWriter P M) where
  built := nofun
  written := List.prefix_refl _
  early := fun _ => ⟨rfl, rfl, rfl, rfl⟩
  stream := fun h => by rcases h with h | h | h | h <;> cases h
  calm := fun _ => rfl
  whole := nofun

variable {before : List (DeliverPtr P M)} {place place' : Place} {w w' : EndpointWriter P M}

/-- The writer goes on to another place; what it gains there it has had. -/
theorem Gapless.move (gapless : Gapless env before place w) (early : handshaking place' = true → handshaking place = true)
    (stream : place' = .opened ∨ place' = .requested ∨ place' = .accepted → w.stream = true) (calm : place ≠ .thrown) :
    Gapless env before place' w where
  built := gapless.built
  written := gapless.written
  early := fun h => gapless.early (early h)
  stream := by
    rintro (h | h | h | on)
    · exact stream (.inl h)
    · exact stream (.inr (.inl h))
    · exact stream (.inr (.inr h))
    · exact gapless.stream (.inr (.inr (.inr on)))
  calm := fun _ => gapless.calm calm
  whole := gapless.whole

/-- A writer that has written the same, and is not connected any more or has thrown. -/
theorem Gapless.lose (gapless : Gapless env before place w) (wire : w'.wire = w.wire) (late : handshaking place' = false)
    (stream : w'.connected = true → w'.stream = true) (calm : place' ≠ .thrown → w'.thrown = false)
    (gone : w'.connected = false ∨ w'.thrown = true) (more : List (DeliverPtr P M)) : Gapless env (before ++ more) place' w' where
  built := wire ▸ gapless.built
  written := by
    rw [wire, List.filter_append]
    exact gapless.written.trans (List.prefix_append ..)
  early := fun h => by
    rw [late] at h
    cases h
  stream := by
    rintro (rfl | rfl | rfl | on)
    · cases late
    · cases late
    · cases late
    · exact stream on
  calm := calm
  whole := fun on quiet => by
    rw [on, quiet] at gone
    rcases gone with gone | gone <;> cases gone

/-- A message: a writer that is still connected and has not thrown has written or kept it. -/
theorem Gapless.deliver (gapless : Gapless env before .receiving w) (write : Bool) (deliver : DeliverPtr P M)
    (late : handshaking place' = false) (calm : place' ≠ .thrown → (w.receiveDeliver env write deliver).thrown = false) :
    Gapless env (before ++ [deliver]) place' (w.receiveDeliver env write deliver) := by
  cases here : w.connected with
  | false =>
    cases receiveDeliver_sent env write deliver w with
    | nothing wire connected _ =>
      have off := connected.trans here
      exact gapless.lose wire late (fun on => absurd on (by simp [off])) calm (.inl off) _
    | batch _ was => exact absurd was (by simp [here])
    | refused was => exact absurd was (by simp [here])
  | true =>
    have streamed := gapless.stream (.inr (.inr (.inr here)))
    have quiet := gapless.calm nofun
    obtain ⟨all, kept⟩ := gapless.whole here quiet
    obtain ⟨built, stream, still, lost⟩ := receiveDeliver_whole env write deliver streamed here quiet
    by_cases gone : (w.receiveDeliver env write deliver).connected = false ∨ (w.receiveDeliver env write deliver).thrown = true
    · exact gapless.lose (lost gone) late stream calm gone _
    · rw [not_or, Bool.not_eq_false, Bool.not_eq_true] at gone
      obtain ⟨kept', same⟩ := still gone.1 gone.2
      rw [kept] at kept'
      refine ⟨fun entry member => (built entry member).elim (gapless.built entry) id, ?_, fun h => ?_, ?_, calm,
        fun _ _ => ⟨same all, kept'⟩⟩
      · rw [same all, ← kept', List.filter_append]
        exact List.prefix_append ..
      · rw [late] at h
        cases h
      · exact fun _ => stream gone.1

omit [DecidableEq P] in
theorem given_other {label : SessionLabel P M} (other : ∀ d, label ≠ .deliver d) : given [label] = [] := by
  cases label with
  | deliver d => exact absurd rfl (other d)
  | _ => rfl

theorem gapless_step {s s' : Session P M} {label : SessionLabel P M} (gapless : Gapless env before s.place s.writer)
    (h : step env ends s label = some s') : Gapless env (before ++ given [label]) s'.place s'.writer := by
  -- nothing was given to the writer
  have stays (other : ∀ d, label ≠ .deliver d) (still : Gapless env before s'.place s'.writer) :
      Gapless env (before ++ given [label]) s'.place s'.writer := by
    rw [given_other other, List.append_nil]
    exact still
  cases step_turn h with
  | stay other there writer => exact stays other (there ▸ writer ▸ gapless)
  | lost there writer =>
    refine stays nofun ?_
    rw [there, writer]
    refine ⟨gapless.built, gapless.written, gapless.early, ?_, gapless.calm, nofun⟩
    rintro (h | h | h | on)
    · exact gapless.stream (.inl h)
    · exact gapless.stream (.inr (.inl h))
    · exact gapless.stream (.inr (.inr (.inl h)))
    · cases on
  | opened here there writer =>
    refine stays nofun ?_
    rw [there, writer]
    rw [here] at gapless
    exact ⟨gapless.built, gapless.written, fun _ => gapless.early rfl, fun _ => rfl, fun _ => gapless.calm nofun, gapless.whole⟩
  | failed other here there writer =>
    refine stays other ?_
    rw [there, writer]
    refine gapless.move (fun _ => ?_) (by rintro (h | h | h) <;> cases h) ?_
    · rcases here with here | here | here <;> rw [here] <;> rfl
    · rcases here with here | here | here <;> rw [here] <;> exact nofun
  | requested here there writer =>
    refine stays nofun ?_
    rw [there, writer]
    rw [here] at gapless
    exact gapless.move (fun _ => rfl) (fun _ => gapless.stream (.inl rfl)) nofun
  | accepted here there writer =>
    refine stays nofun ?_
    rw [there, writer]
    rw [here] at gapless
    exact gapless.move (fun _ => rfl) (fun _ => gapless.stream (.inr (.inl rfl))) nofun
  | connected here there writer =>
    refine stays nofun ?_
    rw [there, writer]
    rw [here] at gapless
    obtain ⟨rfl, passed, queue, wire⟩ := gapless.early rfl
    refine ⟨gapless.built, gapless.written, nofun, fun _ => gapless.stream (.inr (.inr (.inl rfl))), fun _ => gapless.calm nofun,
      fun _ _ => ?_⟩
    simp only [passed, queue, wire]
    exact ⟨rfl, rfl⟩
  | gaveUp here there writer =>
    refine stays nofun ?_
    rw [there, writer]
    rw [here] at gapless
    exact gapless.move nofun (by rintro (h | h | h) <;> cases h) nofun
  | delivered d here delivered =>
    rw [here] at gapless
    rw [delivered.writer]
    have place := delivered.place
    rw [here, delivered.writer] at place
    refine gapless.deliver _ d ?_ fun elsewhere => ?_
    · rw [place]
      repeat' split
      all_goals rfl
    · rw [place] at elsewhere
      split at elsewhere
      · exact absurd rfl elsewhere
      · rename_i quiet
        rwa [Bool.not_eq_true] at quiet
  | closed here there writer =>
    rw [there, writer]
    rw [here] at gapless
    have wire : s.writer.handleDisconnect.wire = s.writer.wire := rfl
    exact gapless.lose wire rfl nofun (fun _ => gapless.calm nofun) (.inl rfl) []
  | joined here there writer =>
    refine stays nofun ?_
    rw [there, writer]
    rw [here] at gapless
    exact gapless.move nofun (by rintro (h | h | h) <;> cases h) nofun

theorem gapless_run {s t : Session P M} {labels : List (SessionLabel P M)} (gapless : Gapless env before s.place s.writer)
    (h : Machine.Run (step env ends) Machine.free s labels t) : Gapless env (before ++ given labels) t.place t.writer := by
  induction h generalizing before with
  | nil => exact (List.append_nil before).symm ▸ gapless
  | @cons _ _ _ label labels taken _ _ ih =>
    have more : given (label :: labels) = given [label] ++ given labels := by
      unfold given
      rw [← List.filterMap_append]
      rfl
    rw [more, ← List.append_assoc]
    exact ih (gapless_step gapless taken)

end Session

/-! ## Batches that were handled to their ends -/

namespace Session

/-- All batches of a call but the last were handled to their ends, and the last one too unless the handler is gone. -/
structure Complete (registry : SerializerRegistry M) (c : Call) : Prop where
  most : ∀ batch ∈ c.handled.dropLast, escapes registry batch = false
  all : c.handler ≠ .returned → ∀ batch ∈ c.handled, escapes registry batch = false

theorem complete_opened (registry : SerializerRegistry M) : Complete registry .opened := ⟨nofun, fun _ => nofun⟩

/-- A step of the handler that handles nothing. -/
theorem Complete.of_same {registry : SerializerRegistry M} {c c' : Call} (complete : Complete registry c) (handled : c'.handled = c.handled)
    (handler : c'.handler ≠ .returned → c.handler ≠ .returned) : Complete registry c' :=
  ⟨handled ▸ complete.most, fun on => handled ▸ complete.all (handler on)⟩

theorem Complete.serve {registry : SerializerRegistry M} {c c' : Call} (complete : Complete registry c) {blockList : BlockList}
    (h : Remote.serve registry ends blockList c = some c') : Complete registry c' := by
  unfold Remote.serve at h
  cases here : c.handler with
  | returned =>
    rw [here] at h
    cases h
  | answering response =>
    simp only [here, Option.some.injEq] at h
    subst h
    exact complete.of_same rfl fun _ => by rw [here]; nofun
  | reading =>
    have calm := complete.all (by rw [here]; nofun)
    simp only [here] at h
    split at h
    · split at h
      · rename_i batch
        cases h
        refine ⟨?_, fun on b member => ?_⟩
        · simp only [List.dropLast_concat]
          exact calm
        · rcases List.mem_append.1 member with old | new
          · exact calm b old
          · rw [List.mem_singleton.1 new]
            by_contra wild
            exact on (if_pos (Bool.not_eq_false _ ▸ wild))
      all_goals
        cases h
        exact complete.of_same rfl fun _ => by rw [here]; nofun
    · split at h
      · cases h
        exact complete.of_same rfl fun on => absurd rfl on
      · cases h

end Session

/-- Where all but the last element give the whole, and the last the begin. -/
theorem prefix_flatMap_last {α β : Type} {part whole : α → List β} {l : List α} (most : ∀ a ∈ l.dropLast, part a = whole a)
    (each : ∀ a ∈ l, part a <+: whole a) : l.flatMap part <+: l.flatMap whole := by
  rcases List.eq_nil_or_concat' l with rfl | ⟨first, last, rfl⟩
  · exact List.prefix_refl _
  · rw [List.dropLast_concat] at most
    rw [List.flatMap_append, List.flatMap_append, List.flatMap_congr most]
    refine (List.prefix_append_right_inj _).2 ?_
    simpa using each last (by simp)

/-! ## The deliveries -/

section
variable {Q U K : Type}

/-- An entry that is skipped has no arrivals. -/
theorem flatMap_through {env : Surroundings P (Ptr U K)} {host : Host Q} (batch : List (DeliverPtr P (Ptr U K))) :
    (batch.filter (Session.through env)).flatMap (fun r => arrivals env.registry host env.pids r.deliver) =
      batch.flatMap fun r => arrivals env.registry host env.pids r.deliver := by
  induction batch with
  | nil => rfl
  | cons r batch ih =>
    rw [List.flatMap_cons, ← ih, List.filter_cons]
    split
    · rw [List.flatMap_cons]
    · rename_i skipped
      have unencoded : encoded env.registry (some r.deliver) = none := by
        have as_filter := map_deliver_encoded env.registry (some r.deliver)
        rw [Option.filter_some, if_neg (show ¬goesThrough env.registry r.deliver = true from skipped)] at as_filter
        exact Option.map_eq_none_iff.1 as_filter
      unfold arrivals
      rw [unencoded, List.nil_append]

/-- What the envelopes of a batch give is what arrives for the entries that go through. -/
theorem eachEnvelope_built [DecidableEq P] {env : Surroundings P (Ptr U K)} (host : Host Q)
    {entry : List (DeliverPtr P (Ptr U K)) × MessageBatch} (built : Session.Built env entry) :
    eachEnvelope env.registry entry.2 host = entry.1.flatMap fun r => arrivals env.registry host env.pids r.deliver := by
  obtain ⟨batch, entries, made⟩ := built
  have pointers : (batch.map fun r => some r.deliver) = (batch.map DeliverPtr.deliver).map some := by
    rw [List.map_map]
    rfl
  rw [entries, messageBatch_ok made, eachEnvelope_batchOf, pointers, flatMap_outcome, List.flatMap_map, flatMap_through]

namespace Session

/-- What arrived on the node that is called, over all calls, where the node is the same to all of them. -/
def arrived (env : Surroundings P (Ptr U K)) (host : Host Q) (s : Session P (Ptr U K)) : List (Delivery U K) :=
  (s.earlier ++ s.current.toList).flatMap fun c =>
    c.handled.flatMap fun batch => (handleMessageBatch env.registry batch host).deliveries

/-- The handled batches of the current call. -/
def handled (s : Session P (Ptr U K)) : List MessageBatch := (s.current.map Call.handled).getD []

/-- What arrived came with the current call: the calls that came to nothing carried no batch. -/
theorem Inv.arrived_eq {env : Surroundings P (Ptr U K)} {blocked : BlockList} {s : Session P (Ptr U K)} (inv : Inv ends blocked s)
    (host : Host Q) :
    s.arrived env host = s.handled.flatMap fun batch => (handleMessageBatch env.registry batch host).deliveries := by
  have quiet : s.earlier.flatMap (fun c => c.handled.flatMap fun batch =>
      (handleMessageBatch env.registry batch host).deliveries) = [] := by
    refine List.flatMap_eq_nil_iff.2 fun c member => ?_
    obtain ⟨sound, none⟩ := inv.earlier c member
    have short := sound.handled_short
    rw [none, List.prefix_nil] at short
    rw [short, List.flatMap_nil]
  unfold arrived handled
  rw [List.flatMap_append, quiet, List.nil_append]
  cases s.current with
  | none => rfl
  | some c => simp

section
variable [DecidableEq P] {env : Surroundings P (Ptr U K)} {ownBlockList blockList : BlockList} {labels : List (SessionLabel P (Ptr U K))}
  {s : Session P (Ptr U K)}

/-- No handler goes on behind a batch that it has not handled to its end. -/
theorem Reached.complete (h : Reached env ends ownBlockList blockList labels s) {c : Call} (is : s.current = some c) :
    Complete env.registry c :=
  (Machine.Run.keeps (calls_keep (complete_opened env.registry)
    (fun _ _ handled handler complete => complete.of_same handled fun on => handler ▸ on)
    fun _ _ _ served complete => complete.serve served) h ⟨nofun, nofun⟩).2 c is

/-- What arrived comes first of what the batches give that were handled. -/
theorem Reached.arrived_prefix (h : Reached env ends ownBlockList blockList labels s) (host : Host Q) :
    s.arrived env host <+: s.handled.flatMap fun batch => eachEnvelope env.registry batch host := by
  rw [h.inv.arrived_eq]
  refine prefix_flatMap_last (fun batch member => ?_) fun batch _ => handleMessageBatch_prefix env.registry batch host
  unfold handled at member
  cases is : s.current with
  | none =>
    rw [is] at member
    cases member
  | some c =>
    rw [is] at member
    exact handleMessageBatch_whole ((h.complete is).most batch member) host

/-- What was written, as the service reads it, comes first of what the messages give that the writer was given. -/
theorem wire_given (h : Reached env ends ownBlockList blockList labels s) (host : Host Q) :
    ((s.writer.wire.map Prod.snd).flatMap fun batch => eachEnvelope env.registry batch host) <+:
      (given labels).flatMap fun r => arrivals env.registry host env.pids r.deliver := by
  have gapless := gapless_run (gapless_start env) h
  rw [List.nil_append] at gapless
  have first := gapless.written.flatMap fun r => arrivals env.registry host env.pids r.deliver
  rw [flatMap_through, List.flatMap_assoc] at first
  rw [List.flatMap_map]
  rwa [List.flatMap_congr fun entry member => eachEnvelope_built host (gapless.built entry member)]

end

/-- What was handled was written first. -/
theorem Inv.handled_wire {blocked : BlockList} {s : Session P (Ptr U K)} (inv : Inv ends blocked s) :
    s.handled <+: s.writer.wire.map Prod.snd := by
  unfold handled
  cases is : s.current with
  | none => exact List.nil_prefix
  | some c => exact (inv.current c is).handled_short.trans (inv.batches_prefix is)

/-- **What arrives has no gaps**: over all calls, and wherever the connection breaks, it is in order
and once each what the first of the messages give that the writer was given. -/
theorem arrived_run [DecidableEq P] {env : Surroundings P (Ptr U K)} {ownBlockList blockList : BlockList}
    {labels : List (SessionLabel P (Ptr U K))} {s : Session P (Ptr U K)} (h : Reached env ends ownBlockList blockList labels s)
    (host : Host Q) :
    s.arrived env host <+: (given labels).flatMap fun r => arrivals env.registry host env.pids r.deliver :=
  ((h.arrived_prefix host).trans (h.inv.handled_wire.flatMap _)).trans (wire_given h host)

/-- Two nodes, and a writer that tries once with batches of one message. -/
def pair : Ends := ⟨"a", "a:8080", "b"⟩

def onceEach : Surroundings Nat (Actor.Ptr UInt8 Unit) :=
  ⟨{ Config.new with endpointWriterBatchSize := 1, maxRetryCount := 1 }, byteRegistry, fun _ => ⟨"b:8080", "1$", 0⟩⟩

/-- A call up to its answer. -/
def answered : List (SessionLabel P M) := [.opening true, .request, .serve none, .serve none, .response]

/-- A message of one byte. -/
def oneByte : DeliverPtr Nat (Actor.Ptr UInt8 Unit) := ⟨0, none, .user 7, some 0, none, 0⟩

/-- One message in a batch of one. -/
theorem arrived_byte :
    ∃ s, Reached onceEach pair .new .new (answered ++ [.connect, .deliver oneByte, .serve none]) s ∧
      s.arrived onceEach byteHost = [rootSend ⟨"nonhost", "1$", 0⟩ (.message (.user 7))] ∧
      s.arrived onceEach byteHost <+: [oneByte].flatMap fun r => arrivals onceEach.registry byteHost onceEach.pids r.deliver := by
  have arrives : (Machine.exec (step onceEach pair) (answered ++ [SessionLabel.connect, .deliver oneByte, .serve none])
      (start .new .new)).any (fun s =>
        decide (s.arrived onceEach byteHost = [rootSend ⟨"nonhost", "1$", 0⟩ (.message (.user 7))])) = true := by
    decide
  obtain ⟨s, run, there⟩ := Machine.run_of_any arrives
  exact ⟨s, run, of_decide_eq_true there, arrived_run run byteHost⟩

end Session

end

end Protoactor.Remote
