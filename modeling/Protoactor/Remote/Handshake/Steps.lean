import Mathlib.Data.List.Forall2
import Mathlib.Data.Option.Defs
import Protoactor.Remote.Handshake.Safety

/-!
# What a step of the handshake does (`endpoint_writer.cpp`, `grpc_service.cpp`)

Each label once: what it makes of the writer and its place (`step_turn`), and what it makes of the
calls (`step_calls`). A call that was made stays in its place among the calls, and what was handled
of it changes by steps of its handler only.
-/

namespace Protoactor.Remote
set_option autoImplicit false
open Lib

variable {P M : Type} {env : Surroundings P M} {ends : Ends}

namespace Session

variable [DecidableEq P] {s s' : Session P M}

/-! ## What a step does to the writer -/

/-- Where the writer is after a message, and what it has become; the receive thread goes on by itself. -/
structure Delivered (env : Surroundings P M) (deliver : DeliverPtr P M) (s s' : Session P M) : Prop where
  writer : s'.writer = s.writer.receiveDeliver env (s.current.any Call.canWrite) deliver
  place : s'.place = if s'.writer.thrown then .thrown else if s.writer.stream && !s'.writer.stream then .closing else s.place
  loop : s'.loop = s.loop
  published : s'.published = s.published

/-- What a step does to the writer and its place. -/
inductive Turn (env : Surroundings P M) (s s' : Session P M) : SessionLabel P M → Prop where
  | stay {label : SessionLabel P M} (other : ∀ d, label ≠ .deliver d) (there : s'.place = s.place) (writer : s'.writer = s.writer) :
      Turn env s s' label
  | lost (there : s'.place = s.place) (writer : s'.writer = { s.writer with connected := false }) : Turn env s s' .loop
  | opened (here : s.place = .connecting) (there : s'.place = .opened) (writer : s'.writer = { s.writer with stream := true }) :
      Turn env s s' (.opening true)
  | failed {label : SessionLabel P M} (other : ∀ d, label ≠ .deliver d)
      (here : s.place = .connecting ∨ s.place = .opened ∨ s.place = .requested) (there : s'.place = .connecting)
      (writer : s'.writer = s.writer) : Turn env s s' label
  | requested (here : s.place = .opened) (there : s'.place = .requested) (writer : s'.writer = s.writer) : Turn env s s' .request
  | accepted (here : s.place = .requested) (there : s'.place = .accepted) (writer : s'.writer = s.writer) : Turn env s s' .response
  | connected (here : s.place = .accepted) (there : s'.place = .receiving) (writer : s'.writer = { s.writer with connected := true }) :
      Turn env s s' .connect
  | gaveUp (here : s.place = .connecting) (there : s'.place = .receiving) (writer : s'.writer = s.writer) : Turn env s s' .giveUp
  | delivered (d : DeliverPtr P M) (here : s.place = .receiving) (delivered : Delivered env d s s') : Turn env s s' (.deliver d)
  | closed (here : s.place = .receiving) (there : s'.place = .closing) (writer : s'.writer = s.writer.handleDisconnect) :
      Turn env s s' .disconnect
  | joined (here : s.place = .closing) (there : s'.place = .receiving) (writer : s'.writer = s.writer) : Turn env s s' .join

theorem deliverStep_delivered (env : Surroundings P M) (s : Session P M) (deliver : DeliverPtr P M) :
    Delivered env deliver s (s.deliverStep env deliver) := by
  unfold deliverStep
  dsimp only
  split
  · rename_i thrown
    exact ⟨rfl, (if_pos thrown).symm, rfl, rfl⟩
  · rename_i calm
    split
    · rename_i dropped
      exact ⟨rfl, ((if_neg calm).trans (if_pos dropped)).symm, rfl, rfl⟩
    · rename_i kept
      exact ⟨rfl, ((if_neg calm).trans (if_neg kept)).symm, rfl, rfl⟩

theorem step_turn {label : SessionLabel P M} (h : step env ends s label = some s') : Turn env s s' label := by
  cases label with
  | opening succeeds =>
    simp only [step] at h
    split at h
    · rename_i connecting
      cases succeeds with
      | false => cases h; exact .failed (by simp) (.inl connecting.1) rfl rfl
      | true => cases h; exact .opened connecting.1 rfl rfl
    · cases h
  | request =>
    simp only [step] at h
    split at h
    · rename_i opened _
      split at h
      · cases h; exact .requested opened rfl rfl
      · cases h; exact .failed (by simp) (.inr (.inl opened)) rfl rfl
    · cases h
  | response =>
    simp only [step] at h
    split at h
    · rename_i requested _
      split at h
      · cases h; exact .failed (by simp) (.inr (.inr requested)) rfl rfl
      · cases h; exact .accepted requested rfl rfl
    · rename_i requested _
      cases h
      exact .failed (by simp) (.inr (.inr requested)) rfl rfl
    · cases h
  | connect =>
    simp only [step] at h
    split at h
    · cases h; exact .connected ‹_› rfl rfl
    · cases h
  | giveUp =>
    simp only [step] at h
    split at h
    · rename_i connecting
      cases h
      exact .gaveUp connecting.1 rfl rfl
    · cases h
  | deliver d =>
    simp only [step] at h
    split at h
    · rename_i receiving
      cases h
      exact .delivered d receiving (deliverStep_delivered env s d)
    · cases h
  | disconnect =>
    simp only [step] at h
    split at h
    · cases h; exact .closed ‹_› rfl rfl
    · cases h
  | join =>
    simp only [step] at h
    split at h
    · rename_i closing
      cases h
      exact .joined closing.1 rfl rfl
    · cases h
  | loop =>
    obtain ⟨place, same | lost⟩ := loopStep_writer h
    · exact .stay (by simp) place same
    · exact .lost place lost
  | serve call | cut call _ _ => exact .stay (by simp) (onCall_writer h).1 (onCall_writer h).2
  | block memberIds | blockOwn memberIds => cases h; exact .stay (by simp) rfl rfl

/-! ## What a step does to the calls -/

/-- A call goes on: the client has done something or the connection has broken, or it was a step of the handler. -/
inductive Goes (registry : SerializerRegistry M) (ends : Ends) (c c' : Call) : Prop where
  | client (handled : c'.handled = c.handled) (handler : c'.handler = c.handler)
  | served (blockList : BlockList) (h : serve registry ends blockList c = some c')

/-- The calls after a step. -/
inductive CallsStep (registry : SerializerRegistry M) (ends : Ends) (s s' : Session P M) : Prop where
  | opened (here : s.place = .connecting) (earlier : s'.earlier = s.earlier ++ (s.current.map Call.cancel).toList)
      (current : s'.current = some .opened)
  | went (earlier : List.Forall₂ (Goes registry ends) s.earlier s'.earlier) (current : Option.Rel (Goes registry ends) s.current s'.current)

section
variable {registry : SerializerRegistry M}

theorem goes_refl (registry : SerializerRegistry M) (ends : Ends) (c : Call) : Goes registry ends c c := .client rfl rfl

omit [DecidableEq P] in
/-- The calls stay as they are, but for the current one. -/
theorem calls_went (earlier : s'.earlier = s.earlier) (current : Option.Rel (Goes registry ends) s.current s'.current) :
    CallsStep registry ends s s' :=
  .went (earlier ▸ List.forall₂_same.2 fun c _ => goes_refl registry ends c) current

omit [DecidableEq P] in
/-- Not even that one changes. -/
theorem calls_same (earlier : s'.earlier = s.earlier) (current : s'.current = s.current) : CallsStep registry ends s s' := by
  refine calls_went earlier ?_
  rw [current]
  cases s.current with
  | none => exact .none
  | some c => exact .some (goes_refl registry ends c)

omit [DecidableEq P] in
/-- The client has done something in it. -/
theorem calls_client {f : Call → Call} (handled : ∀ c, (f c).handled = c.handled) (handler : ∀ c, (f c).handler = c.handler)
    (earlier : s'.earlier = s.earlier) (current : s'.current = s.current.map f) : CallsStep registry ends s s' := by
  refine calls_went earlier ?_
  rw [current]
  cases s.current with
  | none => exact .none
  | some c => exact .some (.client (handled c) (handler c))

omit [DecidableEq P] in
theorem calls_onCall {call : Option Nat} {f : Call → Option Call} (goes : ∀ c c', f c = some c' → Goes registry ends c c')
    (h : s.onCall call f = some s') : CallsStep registry ends s s' := by
  rcases onCall_cases h with ⟨c, c', is, changed, rfl⟩ | ⟨i, c, c', is, changed, rfl⟩
  · exact calls_went rfl (by rw [is]; exact .some (goes c c' changed))
  · refine .went ?_ ?_
    · refine List.forall₂_iff_get.2 ⟨(List.length_set ..).symm, fun j first second => ?_⟩
      simp only [List.get_eq_getElem, List.getElem_set]
      split
      · rename_i same
        subst same
        obtain ⟨_, at_⟩ := List.getElem?_eq_some_iff.1 is
        exact at_ ▸ goes c c' changed
      · exact goes_refl registry ends _
    · dsimp only
      cases s.current with
      | none => exact .none
      | some c => exact .some (goes_refl registry ends c)

end

/-- A read of the client changes neither the handler nor what it has handled. -/
theorem read_goes (registry : SerializerRegistry M) (ends : Ends) {c c' : Call} {message : Option RemoteMessage}
    (read : c.read = some (message, c')) : Goes registry ends c c' := by
  rcases Call.read_cases read with ⟨-, -, -, handler, handled⟩ | ⟨-, rfl⟩
  · exact .client handled handler
  · exact goes_refl registry ends _

/-- Nor does a number of writes. -/
theorem write_goes (messages : List RemoteMessage) (c : Call) :
    (messages.foldl (fun c message => c.write message) c).handled = c.handled ∧
      (messages.foldl (fun c message => c.write message) c).handler = c.handler := by
  induction messages generalizing c with
  | nil => exact ⟨rfl, rfl⟩
  | cons message messages ih => exact ih (c.write message)

omit [DecidableEq P] in
theorem calls_loop (h : s.loopStep = some s') (registry : SerializerRegistry M) (ends : Ends) : CallsStep registry ends s s' := by
  unfold Session.loopStep at h
  split at h
  · cases h
    exact calls_same rfl rfl
  · split at h
    · cases h
    · split at h
      · rename_i message c found
        obtain ⟨c₀, is, read⟩ := Option.bind_eq_some_iff.1 found
        have current : Option.Rel (Goes registry ends) s.current (some c) := by
          rw [is]
          exact .some (read_goes registry ends read)
        split at h
        all_goals
          cases h
          exact calls_went rfl current
      · cases h
        exact calls_same rfl rfl
      · cases h
  · cases h
    exact calls_same rfl rfl
  · cases h
    exact calls_same rfl rfl
  · cases h
  · cases h

theorem calls_deliver (env : Surroundings P M) (ends : Ends) (s : Session P M) (deliver : DeliverPtr P M) :
    CallsStep env.registry ends s (s.deliverStep env deliver) := by
  unfold deliverStep close
  dsimp only
  have wrote := write_goes ((((s.writer.receiveDeliver env (s.current.any Call.canWrite) deliver).wire.drop
    s.writer.wire.length).map fun entry => RemoteMessage.messageBatch entry.2))
  split
  · exact calls_client (fun c => (wrote c).1) (fun c => (wrote c).2) rfl rfl
  · split
    · refine calls_client (f := fun c => { List.foldl (fun c message => c.write message) c _ with writesDone := true })
        (fun c => (wrote c).1) (fun c => (wrote c).2) rfl ?_
      exact Option.map_map ..
    · exact calls_client (fun c => (wrote c).1) (fun c => (wrote c).2) rfl rfl

theorem step_calls {label : SessionLabel P M} (h : step env ends s label = some s') : CallsStep env.registry ends s s' := by
  cases label with
  | opening succeeds =>
    simp only [step] at h
    split at h
    · rename_i connecting
      cases succeeds with
      | false => cases h; exact calls_same rfl rfl
      | true => cases h; exact .opened connecting.1 rfl rfl
    · cases h
  | request =>
    simp only [step] at h
    split at h
    · rename_i c _ is
      split at h
      · cases h
        exact calls_went rfl (by rw [is]; exact .some (.client rfl rfl))
      · cases h
        exact calls_same rfl rfl
    · cases h
  | response =>
    have read {message : Option RemoteMessage} {c : Call} (found : s.current.bind Call.read = some (message, c)) :
        Option.Rel (Goes env.registry ends) s.current (some c) := by
      obtain ⟨c₀, is, read⟩ := Option.bind_eq_some_iff.1 found
      rw [is]
      exact .some (read_goes env.registry ends read)
    simp only [step] at h
    split at h
    · rename_i found
      split at h
      all_goals
        cases h
        exact calls_went rfl (read found)
    · rename_i found
      cases h
      exact calls_went rfl (read found)
    · cases h
  | deliver d =>
    simp only [step] at h
    split at h
    · cases h
      exact calls_deliver env ends s d
    · cases h
  | disconnect =>
    simp only [step] at h
    split at h
    · cases h
      exact calls_client (f := fun c => { c with writesDone := true }) (fun _ => rfl) (fun _ => rfl) rfl rfl
    · cases h
  | connect | giveUp | join =>
    simp only [step] at h
    split at h
    · cases h
      exact calls_same rfl rfl
    · cases h
  | loop => exact calls_loop h env.registry ends
  | serve call => exact calls_onCall (fun c c' served => .served s.blockList served) h
  | cut call keepUp keepDown => exact calls_onCall (fun c c' broken => by cases broken; exact .client rfl rfl) h
  | block memberIds | blockOwn memberIds =>
    cases h
    exact calls_same rfl rfl

/-- **What only its handler can change of a call** holds of all calls if the handler keeps it. -/
theorem calls_keep {Kept : Call → Prop} (new : Kept .opened)
    (client : ∀ c c' : Call, c'.handled = c.handled → c'.handler = c.handler → Kept c → Kept c')
    (served : ∀ c c' blockList, serve env.registry ends blockList c = some c' → Kept c → Kept c') :
    Machine.Keeps (step env ends) Machine.free fun s : Session P M => (∀ c ∈ s.earlier, Kept c) ∧ ∀ c, s.current = some c → Kept c := by
  intro s label s' kept _ h
  have goes (c c' : Call) (goes : Goes env.registry ends c c') (now : Kept c) : Kept c' := by
    cases goes with
    | client handled handler => exact client c c' handled handler now
    | served blockList h => exact served c c' blockList h now
  cases step_calls h with
  | opened _ earlier current =>
    refine ⟨fun c member => ?_, fun c is => ?_⟩
    · rw [earlier] at member
      rcases List.mem_append.1 member with old | dropped
      · exact kept.1 c old
      · obtain ⟨c', is, rfl⟩ := Option.map_eq_some_iff.1 (Option.mem_toList.1 dropped)
        exact client c' _ rfl rfl (kept.2 c' is)
    · rw [current] at is
      cases is
      exact new
  | went earlier current =>
    refine ⟨fun c' member => ?_, fun c' is => ?_⟩
    · obtain ⟨i, bound, rfl⟩ := List.mem_iff_getElem.1 member
      obtain ⟨same, each⟩ := List.forall₂_iff_get.1 earlier
      exact goes _ _ (each i (same ▸ bound) bound) (kept.1 _ (List.getElem_mem _))
    · rw [is] at current
      cases was : s.current with
      | none =>
        rw [was] at current
        cases current
      | some c =>
        rw [was] at current
        cases current with
        | some went => exact goes c c' went (kept.2 c was)

end Session

end Protoactor.Remote
