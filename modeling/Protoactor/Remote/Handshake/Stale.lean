import Protoactor.Remote.Handshake.Progress

/-!
# A connection that is lost during the handshake (`src/remote/endpoint_writer.cpp`)

`InitializeInternal` starts the receive thread, and `Initialize` sets `connected_` after it has
returned. When the connection is lost in between, the thread takes the flag back before it is set,
and the writer takes itself for connected after its `EndpointTerminatedEvent` was published.
`stale_iff` says that this is the only way to such a writer.
-/

namespace Protoactor.Remote
set_option autoImplicit false
open Lib

variable {P M : Type} {env : Surroundings P M} {ends : Ends}

namespace Session

/-- The receive thread has taken back `connected_`. -/
def Past (s : Session P M) : Prop := ∃ place, s.loop = some place ∧ place.past = true

/-- The writer takes itself for connected although its receive thread has ended. -/
def Stale (s : Session P M) : Prop := s.writer.connected = true ∧ s.Past

variable [DecidableEq P] {s s' : Session P M} {ownBlockList blocked : BlockList} {labels : List (SessionLabel P M)}

omit [DecidableEq P] in
/-- The thread does not come back, and its only step that touches the flag clears it. -/
theorem loopStep_past (h : s.loopStep = some s') :
    (s.Past → s'.Past ∧ s'.writer = s.writer) ∧ (¬s.Past → s'.Past → s'.writer.connected = false) := by
  unfold loopStep at h
  split at h
  · rename_i here
    cases h
    refine ⟨fun ⟨_, is, past⟩ => ?_, fun _ ⟨_, is, past⟩ => ?_⟩
    · rw [here] at is
      cases is
      cases past
    · cases is
      split at past <;> cases past
  · rename_i here
    have not_ : ¬s.Past := fun ⟨_, is, past⟩ => by
      rw [here] at is
      cases is
      cases past
    repeat' split at h
    all_goals cases h
    all_goals exact ⟨fun past => absurd past not_, fun _ ⟨_, is, past⟩ => by cases is; cases past⟩
  · rename_i here
    cases h
    refine ⟨fun ⟨_, is, past⟩ => ?_, fun _ _ => rfl⟩
    rw [here] at is
    cases is
    cases past
  · rename_i here
    cases h
    exact ⟨fun _ => ⟨⟨_, rfl, rfl⟩, rfl⟩, fun not_ => absurd ⟨_, here, rfl⟩ not_⟩
  · cases h
  · cases h

omit [DecidableEq P] in
theorem onCall_loop {call : Option Nat} {f : Call → Option Call} (h : s.onCall call f = some s') : s'.loop = s.loop := by
  rcases onCall_cases h with ⟨_, _, _, _, rfl⟩ | ⟨_, _, _, _, _, rfl⟩
  · rfl
  · rfl

/-- The flag and the thread after a message. -/
theorem deliverStep_flag (env : Surroundings P M) (s : Session P M) (deliver : DeliverPtr P M) :
    (s.deliverStep env deliver).loop = s.loop ∧
      ((s.deliverStep env deliver).writer.connected = true → s.writer.connected = true) ∧
      ((s.deliverStep env deliver).writer.stream = true → s.writer.stream = true ∧
        (s.writer.connected = true → (s.deliverStep env deliver).writer.connected = true)) := by
  have delivered := deliverStep_delivered env s deliver
  rw [delivered.writer]
  refine ⟨delivered.loop, ?_⟩
  cases receiveDeliver_sent env (s.current.any Call.canWrite) deliver s.writer with
  | nothing _ connected stream => exact ⟨fun on => connected ▸ on, fun on => ⟨stream ▸ on, fun was => connected.trans was⟩⟩
  | batch _ was _ _ connected stream => exact ⟨fun _ => was, fun on => ⟨stream ▸ on, fun _ => connected⟩⟩
  | refused _ _ _ _ connected stream =>
    exact ⟨fun on => (by rw [connected] at on; cases on), fun on => (by rw [stream] at on; cases on)⟩

/-- **How a writer becomes stale**: it sets the flag after its thread has cleared it. -/
theorem stale_step {label : SessionLabel P M} (h : step env ends s label = some s') (fresh : ¬s.Stale) (stale : s'.Stale) :
    label = .connect ∧ s.Past := by
  obtain ⟨on, past⟩ := stale
  -- a step that leaves the thread alone and does not set the flag
  have same (thread : s'.loop = s.loop) (flag : s'.writer.connected = true → s.writer.connected = true) : False :=
    fresh ⟨flag on, by unfold Past at *; rw [thread] at past; exact past⟩
  cases label with
  | connect =>
    simp only [step] at h
    split at h
    · cases h
      exact ⟨rfl, past⟩
    · cases h
  | opening succeeds =>
    simp only [step] at h
    split at h
    · cases succeeds <;> cases h <;> exact (same rfl id).elim
    · cases h
  | request =>
    simp only [step] at h
    split at h
    · split at h <;> cases h <;> exact (same rfl id).elim
    · cases h
  | response =>
    simp only [step] at h
    split at h
    · split at h
      · cases h
        exact (same rfl id).elim
      · cases h
        obtain ⟨_, is, past⟩ := past
        cases is
        cases past
    · cases h
      exact (same rfl id).elim
    · cases h
  | giveUp | disconnect | join =>
    simp only [step] at h
    split at h
    · cases h
      exact (same rfl fun on => by first | exact on | cases on).elim
    · cases h
  | deliver d =>
    simp only [step] at h
    split at h
    · cases h
      obtain ⟨thread, flag, _⟩ := deliverStep_flag env s d
      exact (same thread flag).elim
    · cases h
  | loop =>
    obtain ⟨kept, cleared⟩ := loopStep_past h
    by_cases already : s.Past
    · exact (fresh ⟨(kept already).2 ▸ on, already⟩).elim
    · rw [cleared already past] at on
      cases on
  | serve call =>
    exact (same (onCall_loop h) fun on => (onCall_writer h).2 ▸ on).elim
  | cut call keepUp keepDown =>
    exact (same (onCall_loop h) fun on => (onCall_writer h).2 ▸ on).elim
  | block memberIds | blockOwn memberIds =>
    cases h
    exact (same rfl id).elim

/-- Once the thread has ended behind a connected writer, the flag goes with the stream. -/
structure Over (s : Session P M) : Prop where
  past : s.Past
  late : Settled s.place
  flag : s.writer.stream = true → s.writer.connected = true

theorem over_step : Machine.Keeps (step env ends) Machine.free (Over (P := P) (M := M)) := by
  intro s label s' outlived _ h
  have same (thread : s'.loop = s.loop) (place : s'.place = s.place) (writer : s'.writer = s.writer) : Over s' := by
    obtain ⟨past, late, flag⟩ := outlived
    exact ⟨by unfold Past at *; rw [thread]; exact past, place ▸ late, writer ▸ flag⟩
  have late := outlived.late
  cases label with
  | deliver d =>
    simp only [step] at h
    split at h
    · cases h
      obtain ⟨thread, _, stream⟩ := deliverStep_flag env s d
      exact ⟨by unfold Past; rw [thread]; exact outlived.past, (deliverStep_moves env s d).2 late,
        fun on => (stream on).2 (outlived.flag (stream on).1)⟩
    · cases h
  | disconnect =>
    simp only [step] at h
    split at h
    · cases h
      exact ⟨outlived.past, trivial, fun on => by cases on⟩
    · cases h
  | join =>
    simp only [step] at h
    split at h
    · cases h
      exact ⟨outlived.past, trivial, outlived.flag⟩
    · cases h
  | loop =>
    obtain ⟨place, _⟩ := loopStep_moves h
    obtain ⟨past, writer⟩ := (loopStep_past h).1 outlived.past
    exact ⟨past, place ▸ late, writer ▸ outlived.flag⟩
  | serve call => exact same (onCall_loop h) (onCall_writer h).1 (onCall_writer h).2
  | cut call keepUp keepDown => exact same (onCall_loop h) (onCall_writer h).1 (onCall_writer h).2
  | block memberIds | blockOwn memberIds =>
    cases h
    exact same rfl rfl rfl
  | opening succeeds | request | response | connect | giveUp => exact absurd late ((step_moves h).unsettled rfl)

/-- **When a writer is stale**: its thread ended before `Initialize` set the flag, and it has not
been disconnected since. -/
theorem stale_iff (h : Reached env ends ownBlockList blocked labels s) :
    s.Stale ↔ s.writer.stream = true ∧
      ∃ first rest u, labels = first ++ .connect :: rest ∧ Reached env ends ownBlockList blocked first u ∧ u.Past := by
  constructor
  · intro stale
    have gapless := gapless_run (gapless_start env) h
    refine ⟨gapless.stream (.inr (.inr (.inr stale.1))), ?_⟩
    obtain ⟨first, label, rest, u, v, rfl, start, taken, _, fresh, stale'⟩ := h.becomes (P := Stale) (fun s => nomatch s.1) stale
    obtain ⟨rfl, past⟩ := stale_step taken fresh stale'
    exact ⟨first, rest, u, rfl, start, past⟩
  · rintro ⟨streamed, first, rest, u, rfl, start, past⟩
    obtain ⟨u', v, start', taken, finish⟩ := Machine.Run.split h
    cases start.unique start'
    have outlived : Over v := by
      simp only [step] at taken
      split at taken
      · cases taken
        exact ⟨past, trivial, fun _ => rfl⟩
      · cases taken
    obtain ⟨past', _, flag⟩ := Machine.Run.keeps over_step finish outlived
    exact ⟨flag streamed, past'⟩

/-- The connection breaks before the flag is set. -/
theorem stale_cut :
    ∃ s, Reached onceEach pair .new .new (answered ++ [.cut none 0 0, .loop, .loop, .loop, .loop] ++ .connect :: []) s ∧
      s.Stale ∧ s.published = 1 := by
  have breaks : (Machine.exec (step onceEach pair)
      (answered ++ [SessionLabel.cut none 0 0, .loop, .loop, .loop, .loop] ++ .connect :: []) (start .new .new)).any
      (fun s => s.writer.stream && decide (s.published = 1)) = true := by decide
  obtain ⟨s, run, there⟩ := Machine.run_of_any breaks
  rw [Bool.and_eq_true] at there
  have ends_ : (Machine.exec (step onceEach pair) (answered ++ [SessionLabel.cut none 0 0, .loop, .loop, .loop, .loop])
      (start .new .new)).any (fun s => decide (s.loop = some .done)) = true := by decide
  obtain ⟨u, first, outlived⟩ := Machine.run_of_any ends_
  refine ⟨s, run, (stale_iff run).2 ⟨there.1, _, _, u, rfl, first, .done, of_decide_eq_true outlived, rfl⟩, of_decide_eq_true there.2⟩

end Session

end Protoactor.Remote
