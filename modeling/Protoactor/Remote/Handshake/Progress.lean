import Mathlib.Data.List.Basic
import Protoactor.Remote.Handshake.Delivery

/-!
# How the handshake ends (`endpoint_writer.cpp`, `grpc_service.cpp`)

`Initialize` waits for a response without a deadline. Even so the two nodes never wait for each
other: as long as it runs there is a step of it or of the handler of the current call, and of its
own steps it takes at most three for each try and one more. `HandleDisconnect` joins the receive
thread, whose stream it has reset before. It gets on exactly if the thread is not at its `Read` then
(`handshake_progress`).
-/

namespace Protoactor.Remote
set_option autoImplicit false
open Lib

variable {P M : Type} {env : Surroundings P M} {ends : Ends}

namespace Session

variable [DecidableEq P] {s s' : Session P M} {ownBlockList blocked : BlockList} {labels : List (SessionLabel P M)}

/-! ## Where a step leads -/

/-- How many calls the writer has made. -/
def calls (s : Session P M) : Nat := s.earlier.length + s.current.isSome.toNat

/-- A step of the writer's thread in `Initialize`. -/
def initializing : SessionLabel P M → Bool
  | .opening _ | .request | .response | .connect | .giveUp => true
  | _ => false

/-- What a step does to the place of the writer, its tries and its calls. -/
inductive Moves (limit : Int) (s s' : Session P M) : SessionLabel P M → Prop where
  | opening (here : s.place = .connecting) (room : (s.retryCount : Int) < limit) (there : s'.place = .opened)
      (tries : s'.retryCount = s.retryCount) (calls : s'.calls = s.calls + 1) : Moves limit s s' (.opening true)
  | failing {label : SessionLabel P M} (trying : initializing label = true)
      (here : s.place = .connecting ∧ (s.retryCount : Int) < limit ∨ s.place = .opened ∨ s.place = .requested)
      (there : s'.place = .connecting) (tries : s'.retryCount = s.retryCount + 1) (calls : s'.calls = s.calls) : Moves limit s s' label
  | request (here : s.place = .opened) (there : s'.place = .requested) (tries : s'.retryCount = s.retryCount)
      (calls : s'.calls = s.calls) : Moves limit s s' .request
  | response (here : s.place = .requested) (there : s'.place = .accepted) (tries : s'.retryCount = s.retryCount)
      (calls : s'.calls = s.calls) : Moves limit s s' .response
  | connect (here : s.place = .accepted) (there : s'.place = .receiving) (calls : s'.calls = s.calls) : Moves limit s s' .connect
  | giveUp (here : s.place = .connecting) (there : s'.place = .receiving) (calls : s'.calls = s.calls) : Moves limit s s' .giveUp
  | late {label : SessionLabel P M} (other : initializing label = false) (here : Settled s.place) (there : Settled s'.place)
      (calls : s'.calls = s.calls) : Moves limit s s' label
  | stay {label : SessionLabel P M} (other : initializing label = false) (place : s'.place = s.place)
      (tries : s'.retryCount = s.retryCount) (calls : s'.calls = s.calls) : Moves limit s s' label

omit [DecidableEq P] in
theorem onCall_moves {call : Option Nat} {f : Call → Option Call} (h : s.onCall call f = some s') :
    s'.place = s.place ∧ s'.retryCount = s.retryCount ∧ s'.calls = s.calls := by
  unfold calls
  rcases onCall_cases h with ⟨c, c', here, _, rfl⟩ | ⟨i, c, c', _, _, rfl⟩
  · rw [here]
    exact ⟨rfl, rfl, rfl⟩
  · exact ⟨rfl, rfl, by simp⟩

omit [DecidableEq P] in
theorem loopStep_moves (h : s.loopStep = some s') :
    s'.place = s.place ∧ s'.retryCount = s.retryCount ∧ s'.calls = s.calls := by
  unfold Session.loopStep at h
  unfold calls
  split at h
  · cases h
    exact ⟨rfl, rfl, rfl⟩
  · split at h
    · cases h
    · split at h
      · rename_i got
        obtain ⟨c, is, _⟩ := Option.bind_eq_some_iff.1 got
        split at h
        all_goals
          cases h
          exact ⟨rfl, rfl, by rw [is]; rfl⟩
      · cases h
        exact ⟨rfl, rfl, rfl⟩
      · cases h
  · cases h
    exact ⟨rfl, rfl, rfl⟩
  · cases h
    exact ⟨rfl, rfl, rfl⟩
  · cases h
  · cases h

theorem deliverStep_moves (env : Surroundings P M) (s : Session P M) (deliver : DeliverPtr P M) :
    (s.deliverStep env deliver).calls = s.calls ∧ (Settled s.place → Settled (s.deliverStep env deliver).place) := by
  constructor
  · have same (f : Call → Call) : (s.current.map f).isSome.toNat = s.current.isSome.toNat := by rw [Option.isSome_map]
    unfold deliverStep calls close
    dsimp only
    split
    · rw [same]
    · split
      · rw [Option.map_map, same]
      · rw [same]
  · intro late
    rw [(deliverStep_delivered env s deliver).place]
    split
    · trivial
    · split
      · trivial
      · exact late

theorem step_moves {label : SessionLabel P M} (h : step env ends s label = some s') : Moves env.config.maxRetryCount s s' label := by
  cases label with
  | opening succeeds =>
    simp only [step] at h
    split at h
    · rename_i connecting
      cases succeeds with
      | false =>
        cases h
        exact .failing rfl (.inl connecting) rfl rfl rfl
      | true =>
        cases h
        refine .opening connecting.1 connecting.2 rfl rfl ?_
        unfold calls
        cases is : s.current <;> simp
    · cases h
  | request =>
    simp only [step] at h
    split at h
    · rename_i opened is
      split at h
      · cases h
        exact .request opened rfl rfl (by unfold calls; rw [is]; rfl)
      · cases h
        exact .failing rfl (.inr (.inl opened)) rfl rfl rfl
    · cases h
  | response =>
    simp only [step] at h
    split at h
    · rename_i requested got
      obtain ⟨c, is, _⟩ := Option.bind_eq_some_iff.1 got
      split at h
      · cases h
        exact .failing rfl (.inr (.inr requested)) rfl rfl (by unfold calls; rw [is]; rfl)
      · cases h
        exact .response requested rfl rfl (by unfold calls; rw [is]; rfl)
    · rename_i requested got
      obtain ⟨c, is, _⟩ := Option.bind_eq_some_iff.1 got
      cases h
      exact .failing rfl (.inr (.inr requested)) rfl rfl (by unfold calls; rw [is]; rfl)
    · cases h
  | connect =>
    simp only [step] at h
    split at h
    · cases h
      exact .connect ‹_› rfl rfl
    · cases h
  | giveUp =>
    simp only [step] at h
    split at h
    · rename_i connecting
      cases h
      exact .giveUp connecting.1 rfl rfl
    · cases h
  | deliver d =>
    simp only [step] at h
    split at h
    · rename_i receiving
      cases h
      obtain ⟨calls, late⟩ := deliverStep_moves env s d
      exact .late rfl (receiving ▸ trivial) (late (receiving ▸ trivial)) calls
    · cases h
  | disconnect =>
    simp only [step] at h
    split at h
    · rename_i receiving
      cases h
      exact .late rfl (receiving ▸ trivial) trivial (by unfold calls close; simp)
    · cases h
  | join =>
    simp only [step] at h
    split at h
    · rename_i closing
      cases h
      exact .late rfl (closing.1 ▸ trivial) trivial rfl
    · cases h
  | loop =>
    obtain ⟨place, tries, calls⟩ := loopStep_moves h
    exact .stay rfl place tries calls
  | serve call =>
    obtain ⟨place, tries, calls⟩ := onCall_moves h
    exact .stay rfl place tries calls
  | cut call keepUp keepDown =>
    obtain ⟨place, tries, calls⟩ := onCall_moves h
    exact .stay rfl place tries calls
  | block memberIds | blockOwn memberIds =>
    cases h
    exact .stay rfl rfl rfl rfl

omit [DecidableEq P] in
/-- `Initialize` does not lead into `HandleDisconnect`. -/
theorem Moves.initializing {limit : Int} {label : SessionLabel P M} (moves : Moves limit s s' label)
    (trying : initializing label = true) : s'.place ≠ .closing := by
  cases moves with
  | opening here room there => simp [there]
  | failing trying here there => simp [there]
  | request here there => simp [there]
  | response here there => simp [there]
  | connect here there => simp [there]
  | giveUp here there => simp [there]
  | late other => rw [other] at trying; cases trying
  | stay other => rw [other] at trying; cases trying

omit [DecidableEq P] in
/-- It runs once. -/
theorem Moves.unsettled {limit : Int} {label : SessionLabel P M} (moves : Moves limit s s' label)
    (trying : Session.initializing label = true) : ¬Settled s.place := by
  cases moves with
  | opening here => simp [here, Settled]
  | failing trying here => rcases here with ⟨here, _⟩ | here | here <;> simp [here, Settled]
  | request here => simp [here, Settled]
  | response here => simp [here, Settled]
  | connect here => simp [here, Settled]
  | giveUp here => simp [here, Settled]
  | late other => rw [other] at trying; cases trying
  | stay other => rw [other] at trying; cases trying

/-! ## Tries -/

/-- Every try makes at most one call. -/
def Tries (limit : Nat) (s : Session P M) : Prop :=
  match s.place with
  | .connecting => s.calls ≤ s.retryCount ∧ s.retryCount ≤ limit
  | .opened | .requested => s.calls ≤ s.retryCount + 1 ∧ s.retryCount < limit
  | .accepted | .receiving | .closing | .thrown => s.calls ≤ limit

/-- How many steps of `Initialize` are left at most. -/
def left (limit : Nat) (s : Session P M) : Nat :=
  match s.place with
  | .connecting => 3 * (limit - s.retryCount) + 1
  | .opened => 3 * (limit - s.retryCount)
  | .requested => 3 * (limit - s.retryCount) - 1
  | .accepted => 1
  | .receiving | .closing | .thrown => 0

theorem settled_cases {place : Place} (late : Settled place) : place = .receiving ∨ place = .closing ∨ place = .thrown := by
  cases place with
  | receiving => exact .inl rfl
  | closing => exact .inr (.inl rfl)
  | thrown => exact .inr (.inr rfl)
  | _ => cases late

/-- A step of `Initialize` takes one from what is left, and no other step adds to it. -/
theorem tries_step {label : SessionLabel P M} (tries : Tries env.config.maxRetryCount.toNat s) (h : step env ends s label = some s') :
    Tries env.config.maxRetryCount.toNat s' ∧
      left env.config.maxRetryCount.toNat s' + (initializing label).toNat ≤ left env.config.maxRetryCount.toNat s := by
  unfold Tries at tries
  cases step_moves h with
  | opening here room there count calls =>
    simp only [here] at tries
    simp only [Tries, left, here, there, count, calls, initializing, Bool.toNat_true]
    omega
  | failing trying here there count calls =>
    rcases here with ⟨here, room⟩ | here | here
    all_goals
      simp only [here] at tries
      simp only [Tries, left, here, there, count, calls, trying, Bool.toNat_true]
      omega
  | request here there count calls =>
    simp only [here] at tries
    simp only [Tries, left, here, there, count, calls, initializing, Bool.toNat_true]
    omega
  | response here there count calls =>
    simp only [here] at tries
    simp only [Tries, left, here, there, calls, initializing, Bool.toNat_true]
    omega
  | connect here there calls =>
    simp only [here] at tries
    simp only [Tries, left, here, there, calls, initializing, Bool.toNat_true]
    omega
  | giveUp here there calls =>
    simp only [here] at tries
    simp only [Tries, left, here, there, calls, initializing, Bool.toNat_true]
    omega
  | late other here there calls =>
    rcases settled_cases here with here | here | here <;> rcases settled_cases there with there | there | there
    all_goals
      simp only [here] at tries
      simp only [Tries, left, here, there, calls, other, Bool.toNat_false]
      omega
  | stay other place count calls =>
    simp only [Tries, left, place, count, calls, other, Bool.toNat_false]
    exact ⟨tries, Nat.le_refl _⟩

theorem tries_run {t : Session P M} (tries : Tries env.config.maxRetryCount.toNat s)
    (h : Machine.Run (step env ends) Machine.free s labels t) :
    Tries env.config.maxRetryCount.toNat t ∧
      left env.config.maxRetryCount.toNat t + labels.countP initializing ≤ left env.config.maxRetryCount.toNat s := by
  induction h with
  | nil => exact ⟨tries, Nat.le_refl _⟩
  | @cons _ _ _ label _ taken _ _ ih =>
    obtain ⟨tries', less⟩ := tries_step tries taken
    obtain ⟨last, later⟩ := ih tries'
    refine ⟨last, ?_⟩
    rw [List.countP_cons]
    cases one : initializing label <;> simp only [one, Bool.toNat_true, Bool.toNat_false, if_true, if_false, Bool.false_eq_true] at less ⊢ <;> omega

omit [DecidableEq P] in
theorem tries_start : Tries env.config.maxRetryCount.toNat (start ownBlockList blocked : Session P M) := ⟨Nat.zero_le _, Nat.zero_le _⟩

/-! ## No waiting for each other -/

/-- A thread that waits in `HandleDisconnect` has dropped its stream. -/
def Closed (s : Session P M) : Prop := s.place = .closing → s.writer.stream = false

theorem closed_step : Machine.Keeps (step env ends) Machine.free (Closed (P := P) (M := M)) := by
  intro s label s' closed _ h closing
  cases step_turn h with
  | stay _ there writer => rw [writer, closed (there ▸ closing)]
  | lost there writer =>
    rw [writer]
    exact closed (there ▸ closing)
  | delivered d here delivered =>
    have place := delivered.place
    rw [closing, here] at place
    split at place
    · cases place
    · split at place
      · rename_i dropped
        rw [Bool.and_eq_true, Bool.not_eq_true'] at dropped
        exact dropped.2
      · cases place
  | closed _ _ writer => rw [writer, EndpointWriter.handleDisconnect]
  | opened _ there | requested _ there | accepted _ there | connected _ there | gaveUp _ there | joined _ there =>
    rw [there] at closing
    cases closing
  | failed _ _ there =>
    rw [there] at closing
    cases closing

end Session

/-- A client that waits for the response, and the handler of its call, do not wait both. -/
theorem Call.Sound.progress {c : Call} {allowed : Prop} (sound : c.Sound ends allowed) (asked : c.up.written ≠ []) (unread : c.down.read = [])
    (registry : SerializerRegistry M) (blockList : BlockList) :
    c.read.isSome = true ∨ (Remote.serve registry ends blockList c).isSome = true := by
  have answers := sound.answers
  cases here : c.handler with
  | answering response => exact .inr (by simp [Remote.serve, here])
  | returned =>
    refine .inl ?_
    unfold Call.read
    split
    · rfl
    · rw [if_pos (.inr here)]
      rfl
  | reading =>
    cases next : c.up.pop with
    | some pair =>
      obtain ⟨message, up⟩ := pair
      refine .inr ?_
      simp only [Remote.serve, here, next]
      cases message <;> rfl
    | none =>
      cases broken : c.up.cut with
      | true => exact .inr (by simp [Remote.serve, here, next, broken])
      | false =>
        -- all that was written has been read, so the response was written
        have all := c.up.whole broken
        rw [Fifo.pop_none.1 next, List.append_nil] at all
        rw [here] at answers
        obtain ⟨nothing, _⟩ | ⟨_, response, _, written⟩ := answers
        · exact absurd (all ▸ nothing) asked
        · refine .inl ?_
          unfold Call.read
          split
          · rfl
          · rename_i none
            cases lost : c.down.cut with
            | true => rfl
            | false =>
              have whole := c.down.whole lost
              rw [unread, Fifo.pop_none.1 none, written] at whole
              cases whole

namespace Session

variable [DecidableEq P] {s : Session P M} {ownBlockList blocked : BlockList} {labels : List (SessionLabel P M)}

/-- A step of `Initialize`, or of the handler of the current call. -/
def shaking : SessionLabel P M → Bool
  | .opening _ | .request | .response | .connect | .giveUp | .serve none => true
  | _ => false

/-- A step of the writer's two threads in `HandleDisconnect`. -/
def joining : SessionLabel P M → Bool
  | .join | .loop => true
  | _ => false

theorem initialize_progress (h : Reached env ends ownBlockList blocked labels s) (busy : ¬Settled s.place) :
    ∃ label, shaking label = true ∧ (step env ends s label).isSome = true := by
  have here := h.inv.here
  cases place : s.place with
  | connecting =>
    by_cases room : (s.retryCount : Int) < env.config.maxRetryCount
    · exact ⟨.opening true, rfl, by simp [step, place, room]⟩
    · exact ⟨.giveUp, rfl, by simp [step, place, Int.not_lt.1 room]⟩
  | opened =>
    rw [place] at here
    obtain ⟨_, c, is, _⟩ := here
    refine ⟨.request, rfl, ?_⟩
    simp only [step, place, is]
    split <;> rfl
  | requested =>
    rw [place] at here
    obtain ⟨_, c, is, asked, unread⟩ := here
    rcases (h.inv.current c is).progress asked unread env.registry s.blockList with ready | ready
    · obtain ⟨⟨message, c'⟩, got⟩ := Option.isSome_iff_exists.1 ready
      refine ⟨.response, rfl, ?_⟩
      simp only [step, place, is, Option.bind_some, got]
      cases message with
      | none => rfl
      | some message =>
        cases message with
        | connectResponse response => cases blocked : response.blocked <;> simp [blocked]
        | _ => rfl
    · refine ⟨.serve none, rfl, ?_⟩
      simp only [step, onCall, is, Option.bind_some, Option.isSome_map]
      exact ready
  | accepted => exact ⟨.connect, rfl, by simp [step, place]⟩
  | receiving | closing | thrown => exact absurd (place ▸ trivial) busy

/-- The thread that joins and the one that is joined have a step between them, but for a `Read` on the stream that is gone. -/
theorem disconnect_progress (h : Reached env ends ownBlockList blocked labels s) (closing : s.place = .closing) :
    (∃ label, joining label = true ∧ (step env ends s label).isSome = true) ↔ s.loop ≠ some .reading := by
  have closed := Machine.Run.keeps closed_step h (fun h => by cases h) closing
  constructor
  · rintro ⟨label, own, taken⟩ reading
    cases label with
    | join => simp [step, reading] at taken
    | loop => simp [step, loopStep, reading, closed] at taken
    | _ => cases own
  · intro elsewhere
    cases thread : s.loop with
    | none => exact ⟨.join, rfl, by simp [step, closing, thread]⟩
    | some at_ =>
      cases at_ with
      | done => exact ⟨.join, rfl, by simp [step, closing, thread]⟩
      | reading => exact absurd thread elsewhere
      | testing | leaving | lost => exact ⟨.loop, rfl, by simp [step, loopStep, thread]⟩

/-- **How the handshake ends.** Whatever has happened, `Initialize` is not stuck, and all of it takes a bounded number of
its steps; `HandleDisconnect` gets on unless its receive thread is at the `Read` of the stream that it has reset. -/
theorem handshake_progress (h : Reached env ends ownBlockList blocked labels s) :
    (¬Settled s.place → ∃ label, shaking label = true ∧ (step env ends s label).isSome = true) ∧
      (s.place = .closing →
        ((∃ label, joining label = true ∧ (step env ends s label).isSome = true) ↔ s.loop ≠ some .reading)) ∧
      labels.countP initializing ≤ 3 * env.config.maxRetryCount.toNat + 1 := by
  refine ⟨initialize_progress h, disconnect_progress h, ?_⟩
  have bound := (tries_run tries_start h).2
  simp only [left, start, Nat.sub_zero] at bound
  omega

/-- The writer waits for its response, and the service has a step; a writer that disconnects while its receive thread
reads has none, nor has that thread. -/
theorem progress_requested :
    (∃ s, Reached onceEach pair .new .new [.opening true, .request] s ∧ s.place = .requested ∧
        ∃ label, shaking label = true ∧ (step onceEach pair s label).isSome = true) ∧
      ∃ s, Reached onceEach pair .new .new (answered ++ [.connect, .loop, .disconnect]) s ∧ s.place = .closing ∧
        ¬ ∃ label, joining label = true ∧ (step onceEach pair s label).isSome = true := by
  constructor
  · have waits : (Machine.exec (step onceEach pair) [SessionLabel.opening true, .request] (start .new .new)).any
        (fun s => decide (s.place = .requested)) = true := by decide
    obtain ⟨s, run, there⟩ := Machine.run_of_any waits
    have requested := of_decide_eq_true there
    exact ⟨s, run, requested, (handshake_progress run).1 (by rw [requested]; exact id)⟩
  · have reads : (Machine.exec (step onceEach pair) (answered ++ [SessionLabel.connect, .loop, .disconnect]) (start .new .new)).any
        (fun s => decide (s.place = .closing ∧ s.loop = some .reading)) = true := by decide
    obtain ⟨s, run, there⟩ := Machine.run_of_any reads
    obtain ⟨closing, reading⟩ := of_decide_eq_true there
    exact ⟨s, run, closing, fun gets => ((handshake_progress run).2.1 closing).1 gets reading⟩

end Session

end Protoactor.Remote
