import Mathlib.Data.List.Induction
import Protoactor.Remote.Handshake

/-!
# What the handshake guarantees (`endpoint_writer.cpp`, `grpc_service.cpp`)

The service handles any batch it reads, whatever it has answered before. It is the writer that
writes none before it has read a response that does not block it. So the invariant of a call is
about both ends: what was written on it is one request and batches after it, and what was answered
was answered to that request.
-/

namespace Protoactor.Remote
set_option autoImplicit false
open Lib

variable {P M : Type} {env : Surroundings P M} {ends : Ends} {allowed : Prop}

/-! ## One call -/

def Call.batches (c : Call) : List MessageBatch := c.up.written.filterMap RemoteMessage.batch?

/-- The request of the writer, with any block list. -/
def Request (ends : Ends) (message : RemoteMessage) : Prop :=
  ∃ blockList, message = .connectRequest (.serverConnection ⟨ends.memberId, ends.address, blockList⟩)

/-- A response of the service to it. -/
def Response (ends : Ends) (allowed : Prop) (response : ConnectResponse) : Prop :=
  response.memberId = ends.serverId ∧ (response.blocked = false → allowed)

/-- What the client writes: a request, and batches. -/
def Conversation (ends : Ends) (written : List RemoteMessage) : Prop :=
  written = [] ∨ ∃ (request : RemoteMessage) (batches : List MessageBatch),
    Request ends request ∧ written = request :: batches.map RemoteMessage.messageBatch

/-- One response was written. -/
def Responded (ends : Ends) (allowed : Prop) (c : Call) : Prop :=
  ∃ response, Response ends allowed response ∧ c.down.written = [.connectResponse response]

/-- What the service has written, by where its handler is. -/
def Answers (ends : Ends) (allowed : Prop) (c : Call) : Handler → Prop
  | .reading => c.up.read = [] ∧ c.down.written = [] ∨ c.up.read ≠ [] ∧ Responded ends allowed c
  | .answering response => c.up.read ≠ [] ∧ c.down.written = [] ∧ Response ends allowed response
  | .returned => c.down.written = [] ∨ Responded ends allowed c

structure Call.Sound (ends : Ends) (allowed : Prop) (c : Call) : Prop where
  conversation : Conversation ends c.up.written
  handled : c.handled = c.up.read.filterMap RemoteMessage.batch?
  answers : Answers ends allowed c c.handler

namespace Call

theorem sound_opened : opened.Sound ends allowed := ⟨.inl rfl, rfl, .inl ⟨rfl, rfl⟩⟩

/-- The next message is the request, or a batch behind it. -/
theorem Sound.next {c : Call} (sound : c.Sound ends allowed) {message : RemoteMessage} {up : Fifo RemoteMessage}
    (h : c.up.pop = some (message, up)) :
    c.up.read = [] ∧ Request ends message ∨ c.up.read ≠ [] ∧ ∃ batch, message = .messageBatch batch := by
  have order := c.up.ordered
  rw [(Fifo.pop_some h).1] at order
  rcases sound.conversation with none | ⟨request, batches, asked, written⟩
  · rw [none, List.prefix_nil, List.append_eq_nil_iff] at order
    exact nomatch order.2
  · rw [written] at order
    cases already : c.up.read with
    | nil =>
      rw [already, List.nil_append, List.cons_prefix_cons] at order
      exact .inl ⟨rfl, order.1 ▸ asked⟩
    | cons first rest =>
      rw [already, List.cons_append, List.cons_prefix_cons] at order
      have member : message ∈ batches.map RemoteMessage.messageBatch := order.2.subset (by simp)
      obtain ⟨batch, _, same⟩ := List.mem_map.1 member
      exact .inr ⟨nofun, batch, same.symm⟩

/-- **A step of the service** keeps a call sound, and neither writes upwards nor reads downwards. -/
theorem Sound.serve {registry : SerializerRegistry M} {c c' : Call} (sound : c.Sound ends allowed) {blockList : BlockList}
    (free : ends.memberId ∉ blockList.blockedMembers → allowed) (h : Remote.serve registry ends blockList c = some c') :
    c'.Sound ends allowed ∧ c'.up.written = c.up.written ∧ c'.down.read = c.down.read := by
  have answers := sound.answers
  unfold Remote.serve at h
  cases here : c.handler with
  | returned =>
    rw [here] at h
    cases h
  | answering response =>
    simp only [here, Option.some.injEq] at h
    rw [here] at answers
    obtain ⟨read, nothing, fits⟩ := answers
    subst h
    refine ⟨⟨sound.conversation, sound.handled, ?_⟩, rfl, Fifo.push_read ..⟩
    rcases Fifo.push_cases (.connectResponse response) c.down with ⟨answer, _, _, written, _, _⟩ | ⟨answer, _, same⟩
    · simp only [answer, if_true]
      exact .inr ⟨read, response, fits, by rw [written, nothing, List.nil_append]⟩
    · simp only [answer, same]
      exact .inl nothing
  | reading =>
    rw [here] at answers
    simp only [here] at h
    split at h
    · rename_i message up popped
      obtain ⟨_, written, read, _⟩ := Fifo.pop_some popped
      rcases sound.next popped with ⟨first, blockList', rfl⟩ | ⟨later, batch, rfl⟩
      · -- the request: its answer is what the block list says now
        obtain ⟨_, nothing⟩ | ⟨later, _⟩ := answers
        · cases h
          refine ⟨⟨?_, ?_, ?_⟩, written, rfl⟩
          · rw [written]
            exact sound.conversation
          · simp only [read, List.filterMap_append, sound.handled, List.filterMap_cons, RemoteMessage.batch?, List.filterMap_nil,
              List.append_nil]
          · refine ⟨by simp [read], nothing, rfl, fun unblocked => free fun member => ?_⟩
            have blocked := (BlockList.isBlocked_iff _ _).2 member
            simp only [handleConnectRequest] at unblocked
            rw [blocked] at unblocked
            cases unblocked
        · exact absurd first later
      · obtain ⟨first, _⟩ | ⟨_, responded⟩ := answers
        · exact absurd first later
        · cases h
          refine ⟨⟨?_, ?_, ?_⟩, written, rfl⟩
          · rw [written]
            exact sound.conversation
          · simp only [read, List.filterMap_append, sound.handled, List.filterMap_cons, RemoteMessage.batch?, List.filterMap_nil]
          · dsimp only
            split
            · exact .inr responded
            · simp only [Answers, read]
              exact .inr ⟨by simp, responded⟩
    · split at h
      · cases h
        refine ⟨⟨sound.conversation, sound.handled, ?_⟩, rfl, rfl⟩
        obtain ⟨_, nothing⟩ | ⟨_, responded⟩ := answers
        · exact .inl nothing
        · exact .inr responded
      · cases h

/-- Soundness is about what was written and read. -/
theorem Sound.of_same {c c' : Call} (sound : c.Sound ends allowed) (written : c'.up.written = c.up.written)
    (read : c'.up.read = c.up.read) (answered : c'.down.written = c.down.written) (handler : c'.handler = c.handler)
    (handled : c'.handled = c.handled) : c'.Sound ends allowed := by
  refine ⟨written ▸ sound.conversation, handled.trans (read ▸ sound.handled), ?_⟩
  have answers := sound.answers
  rw [handler]
  unfold Answers Responded at *
  rw [read, answered]
  exact answers

theorem Sound.cut {c : Call} (sound : c.Sound ends allowed) (keepUp keepDown : Nat) : (c.cut keepUp keepDown).Sound ends allowed :=
  sound.of_same rfl rfl rfl rfl rfl

/-- What a read of the client does. -/
theorem read_cases {c c' : Call} {message : Option RemoteMessage} (h : c.read = some (message, c')) :
    (∃ m, message = some m ∧ c'.down.read = c.down.read ++ [m]) ∧ c'.up = c.up ∧ c'.down.written = c.down.written ∧
        c'.handler = c.handler ∧ c'.handled = c.handled ∨
      message = none ∧ c' = c := by
  unfold read at h
  split at h
  · rename_i m down popped
    cases h
    obtain ⟨_, written, read, _⟩ := Fifo.pop_some popped
    exact .inl ⟨⟨m, rfl, read⟩, rfl, written, rfl, rfl⟩
  · split at h
    · cases h
      exact .inr ⟨rfl, rfl⟩
    · cases h

theorem Sound.read {c c' : Call} (sound : c.Sound ends allowed) {message : Option RemoteMessage}
    (h : c.read = some (message, c')) : c'.Sound ends allowed := by
  rcases read_cases h with ⟨_, up, written, handler, handled⟩ | ⟨_, rfl⟩
  · exact sound.of_same (by rw [up]) (by rw [up]) written handler handled
  · exact sound

/-- A write that fits the conversation. -/
theorem Sound.write {c : Call} (sound : c.Sound ends allowed) {message : RemoteMessage}
    (fits : Conversation ends (c.up.written ++ [message])) : (c.write message).Sound ends allowed := by
  rcases Fifo.push_cases message c.up with ⟨_, _, _, written, read, _⟩ | ⟨_, _, same⟩
  · refine ⟨by simp only [Call.write, written]; exact fits, by simp only [Call.write, read]; exact sound.handled, ?_⟩
    have answers := sound.answers
    unfold Answers Responded at *
    simp only [Call.write, read]
    exact answers
  · unfold Call.write
    rw [same]
    exact sound

/-- **What the service has handled** of a call is, in order, what was written first. -/
theorem Sound.handled_short {c : Call} (sound : c.Sound ends allowed) : c.handled <+: c.batches := by
  rw [sound.handled]
  exact c.up.read_prefix.filterMap _

/-- What the client reads is what the service has answered. -/
theorem Sound.allows {c : Call} (sound : c.Sound ends allowed) {response : ConnectResponse}
    (read : .connectResponse response ∈ c.down.read) (unblocked : response.blocked = false) : allowed := by
  have written : .connectResponse response ∈ c.down.written := c.down.read_prefix.subset read
  have of_responded : Responded ends allowed c → allowed := by
    rintro ⟨response', fits, one⟩
    rw [one, List.mem_singleton, RemoteMessage.connectResponse.injEq] at written
    exact fits.2 (written ▸ unblocked)
  have of_none : c.down.written = [] → allowed := fun none => by
    rw [none] at written
    cases written
  have answers := sound.answers
  cases here : c.handler with
  | reading =>
    rw [here] at answers
    exact answers.elim (fun h => of_none h.2) fun h => of_responded h.2
  | answering response' =>
    rw [here] at answers
    exact of_none answers.2.1
  | returned =>
    rw [here] at answers
    exact answers.elim of_none of_responded

end Call

/-! ## A step of the writer -/

section
variable [DecidableEq P]

/-- What the `Receive` of a message writes: nothing, whether it returns or throws, one batch, or nothing because the stream
refuses it. -/
inductive Sent (write : Bool) (w w' : EndpointWriter P M) : Prop where
  | nothing (wire : w'.wire = w.wire) (connected : w'.connected = w.connected) (stream : w'.stream = w.stream)
  | batch (entry : List (DeliverPtr P M) × MessageBatch) (was : w.connected = true) (answer : write = true)
      (wire : w'.wire = w.wire ++ [entry]) (connected : w'.connected = true) (stream : w'.stream = w.stream)
  | refused (was : w.connected = true) (streamed : w.stream = true) (answer : write = false) (wire : w'.wire = w.wire)
      (connected : w'.connected = false) (stream : w'.stream = false)

theorem sendMessageBatch_sent (env : Surroundings P M) (write : Bool) (batch : List (DeliverPtr P M)) (w : EndpointWriter P M) :
    Sent write w (w.sendMessageBatch env write batch) := by
  unfold EndpointWriter.sendMessageBatch
  dsimp only
  split
  · exact .nothing rfl rfl rfl
  · rename_i idle
    have was : w.connected = true := by simpa using fun off => idle (.inl off)
    split
    · exact .nothing rfl rfl rfl
    · rename_i streamless
      have streamed : w.stream = true := by simpa using streamless
      split
      · exact .nothing rfl rfl rfl
      · split
        · cases write with
          | true => exact .batch _ was rfl rfl was rfl
          | false => exact .refused was streamed rfl rfl rfl rfl
        · exact .nothing rfl rfl rfl

theorem receiveDeliver_sent (env : Surroundings P M) (write : Bool) (deliver : DeliverPtr P M) (w : EndpointWriter P M) :
    Sent write w (w.receiveDeliver env write deliver) := by
  unfold EndpointWriter.receiveDeliver EndpointWriter.sendBatch
  dsimp only
  split
  · split
    · exact .nothing rfl rfl rfl
    · cases sendMessageBatch_sent env write _ _ with
      | nothing wire connected stream => exact .nothing wire connected stream
      | batch entry was answer wire connected stream => exact .batch entry was answer wire connected stream
      | refused was streamed answer wire connected stream => exact .refused was streamed answer wire connected stream
  · exact .nothing rfl rfl rfl

end

/-! ## The invariant -/

namespace Session

/-- Nothing has come of the handshake. -/
structure Waiting (writer : EndpointWriter P M) (loop : Option LoopPlace) (current : Option Call) : Prop where
  unconnected : writer.connected = false
  unwritten : writer.wire = []
  threadless : loop = none
  quiet : ∀ c, current = some c → c.batches = []

/-- The current call was accepted, and all batches were written on it. -/
def Through (writer : EndpointWriter P M) (loop : Option LoopPlace) (current : Option Call) : Prop :=
  loop ≠ none ∧ ∃ c, current = some c ∧ c.up.written ≠ [] ∧
    (∃ response, response.blocked = false ∧ .connectResponse response ∈ c.down.read) ∧
    c.batches = writer.wire.map Prod.snd

/-- After `Initialize`. -/
def Settled : Place → Prop
  | .receiving | .closing | .thrown => True
  | .connecting | .opened | .requested | .accepted => False

/-- What holds at each place of the writer. -/
def Here (writer : EndpointWriter P M) (loop : Option LoopPlace) (current : Option Call) : Place → Prop
  | .connecting => Waiting writer loop current
  | .opened => Waiting writer loop current ∧ ∃ c, current = some c ∧ c.up.written = [] ∧ c.down.read = []
  | .requested => Waiting writer loop current ∧ ∃ c, current = some c ∧ c.up.written ≠ [] ∧ c.down.read = []
  | .accepted => Through writer loop current ∧ writer.connected = false
  | .receiving | .closing | .thrown => Waiting writer loop current ∨ Through writer loop current

structure Inv (ends : Ends) (blocked : BlockList) (s : Session P M) : Prop where
  grown : ∀ memberId ∈ blocked.blockedMembers, memberId ∈ s.blockList.blockedMembers
  earlier : ∀ c ∈ s.earlier, c.Sound ends (ends.memberId ∉ blocked.blockedMembers) ∧ c.batches = []
  current : ∀ c, s.current = some c → c.Sound ends (ends.memberId ∉ blocked.blockedMembers)
  here : Here s.writer s.loop s.current s.place

variable {blocked : BlockList} {writer writer' : EndpointWriter P M} {loop loop' : Option LoopPlace} {s s' : Session P M}

theorem inv_start (ends : Ends) (ownBlockList blocked : BlockList) : Inv ends blocked (start ownBlockList blocked : Session P M) :=
  ⟨fun _ member => member, nofun, nofun, ⟨rfl, rfl, rfl, nofun⟩⟩

/-- A call on which nothing else was written, and from which at least as much was read. -/
structure Later (c c' : Call) : Prop where
  written : c'.up.written = c.up.written
  read : c.down.read <+: c'.down.read

theorem Waiting.later {c c' : Call} (waiting : Waiting writer loop (some c)) (written : c'.up.written = c.up.written) :
    Waiting writer loop (some c') := by
  refine ⟨waiting.unconnected, waiting.unwritten, waiting.threadless, fun c'' same => ?_⟩
  cases same
  unfold Call.batches
  rw [written]
  exact waiting.quiet c rfl

theorem Through.later {c c' : Call} (through : Through writer loop (some c)) (later : Later c c') :
    Through writer loop (some c') := by
  obtain ⟨thread, c, ⟨⟩, asked, ⟨response, unblocked, read⟩, batches⟩ := through
  refine ⟨thread, c', rfl, later.written ▸ asked, ⟨response, unblocked, later.read.subset read⟩, ?_⟩
  unfold Call.batches at *
  rw [later.written]
  exact batches

/-- A step in the current call that is none of the client. -/
theorem Here.later {c c' : Call} {place : Place} (here : Here writer loop (some c) place)
    (written : c'.up.written = c.up.written) (read : c'.down.read = c.down.read) : Here writer loop (some c') place := by
  have later : Later c c' := ⟨written, read ▸ List.prefix_refl _⟩
  cases place with
  | connecting => exact Waiting.later here written
  | opened =>
    obtain ⟨waiting, c, ⟨⟩, fresh, unread⟩ := here
    exact ⟨waiting.later written, c', rfl, written.trans fresh, read.trans unread⟩
  | requested =>
    obtain ⟨waiting, c, ⟨⟩, asked, unread⟩ := here
    exact ⟨waiting.later written, c', rfl, written ▸ asked, read.trans unread⟩
  | accepted => exact ⟨here.1.later later, here.2⟩
  | receiving | closing | thrown => exact here.imp (·.later written) (·.later later)

theorem Here.waiting_or_through {current : Option Call} {place : Place} (here : Here writer loop current place) :
    Waiting writer loop current ∨ Through writer loop current := by
  cases place with
  | connecting => exact .inl here
  | opened => exact .inl here.1
  | requested => exact .inl here.1
  | accepted => exact .inr here.1
  | receiving | closing | thrown => exact here

/-- After `Initialize` all places are alike. -/
theorem here_settled {current : Option Call} {place : Place} (late : Settled place) :
    Here writer loop current place ↔ Waiting writer loop current ∨ Through writer loop current := by
  cases place with
  | receiving | closing | thrown => exact Iff.rfl
  | connecting | opened | requested | accepted => cases late

/-- A thread exists only where the handshake is through. -/
theorem Here.through {current : Option Call} {place : Place} (here : Here writer loop current place) (thread : loop ≠ none) :
    Through writer loop current ∧ (place = .accepted ∨ Settled place) := by
  have absurd_of (waiting : Waiting writer loop current) : False := thread waiting.threadless
  cases place with
  | connecting => exact (absurd_of here).elim
  | opened => exact (absurd_of here.1).elim
  | requested => exact (absurd_of here.1).elim
  | accepted => exact ⟨here.1, .inl rfl⟩
  | receiving | closing | thrown => exact ⟨here.resolve_left absurd_of, .inr trivial⟩

/-- Where the handshake is through, the thread may move and the call go on. -/
theorem Here.of_through {current : Option Call} {place : Place} (through : Through writer loop current)
    (unconnected : place = .accepted → writer.connected = false) (placed : place = .accepted ∨ Settled place) :
    Here writer loop current place := by
  rcases placed with rfl | late
  · exact ⟨through, unconnected rfl⟩
  · exact (here_settled late).2 (.inr through)

/-! ## The steps -/

theorem onCall_cases {call : Option Nat} {f : Call → Option Call} (h : s.onCall call f = some s') :
    (∃ c c', s.current = some c ∧ f c = some c' ∧ s' = { s with current := some c' }) ∨
      ∃ i c c', s.earlier[i]? = some c ∧ f c = some c' ∧ s' = { s with earlier := s.earlier.set i c' } := by
  unfold onCall at h
  cases call with
  | none =>
    obtain ⟨c', found, rfl⟩ := Option.map_eq_some_iff.1 h
    obtain ⟨c, here, changed⟩ := Option.bind_eq_some_iff.1 found
    exact .inl ⟨c, c', here, changed, rfl⟩
  | some i =>
    obtain ⟨c', found, rfl⟩ := Option.map_eq_some_iff.1 h
    obtain ⟨c, here, changed⟩ := Option.bind_eq_some_iff.1 found
    exact .inr ⟨i, c, c', here, changed, rfl⟩

theorem onCall_writer {call : Option Nat} {f : Call → Option Call} (h : s.onCall call f = some s') :
    s'.place = s.place ∧ s'.writer = s.writer := by
  rcases onCall_cases h with ⟨_, _, _, _, rfl⟩ | ⟨_, _, _, _, _, rfl⟩
  · exact ⟨rfl, rfl⟩
  · exact ⟨rfl, rfl⟩

/-- A step of the receive thread leaves the writer alone, or takes its connection. -/
theorem loopStep_writer (h : s.loopStep = some s') :
    s'.place = s.place ∧ (s'.writer = s.writer ∨ s'.writer = { s.writer with connected := false }) := by
  unfold Session.loopStep at h
  repeat' split at h
  all_goals cases h
  all_goals first | exact ⟨rfl, .inl rfl⟩ | exact ⟨rfl, .inr rfl⟩

/-- A change of one call by anyone but the writer. -/
theorem Inv.onCall (inv : Inv ends blocked s) {call : Option Nat} {f : Call → Option Call}
    (keeps : ∀ c c', c.Sound ends (ends.memberId ∉ blocked.blockedMembers) → f c = some c' →
      c'.Sound ends (ends.memberId ∉ blocked.blockedMembers) ∧ c'.up.written = c.up.written ∧ c'.down.read = c.down.read)
    (h : s.onCall call f = some s') : Inv ends blocked s' := by
  rcases onCall_cases h with ⟨c, c', here, changed, rfl⟩ | ⟨i, c, c', here, changed, rfl⟩
  · obtain ⟨sound, written, read⟩ := keeps c c' (inv.current c here) changed
    refine ⟨inv.grown, inv.earlier, fun c'' same => ?_, ?_⟩
    · cases same
      exact sound
    · have placed := inv.here
      rw [here] at placed
      exact placed.later written read
  · obtain ⟨sound, quiet⟩ := inv.earlier c (List.mem_of_getElem? here)
    obtain ⟨sound', written, _⟩ := keeps c c' sound changed
    refine ⟨inv.grown, fun c'' member => ?_, inv.current, inv.here⟩
    rcases List.mem_or_eq_of_mem_set member with old | rfl
    · exact inv.earlier c'' old
    · refine ⟨sound', ?_⟩
      unfold Call.batches at *
      rw [written]
      exact quiet

/-- The receive thread. -/
theorem Inv.loopStep (inv : Inv ends blocked s) (h : s.loopStep = some s') : Inv ends blocked s' := by
  unfold Session.loopStep at h
  have thread : s.loop ≠ none := by
    intro none
    rw [none] at h
    cases h
  obtain ⟨⟨_, c, here, asked, response, batches⟩, placed⟩ := inv.here.through thread
  -- whatever it does, the handshake stays through
  have of_place (place : LoopPlace) : Here s.writer (some place) s.current s.place :=
    .of_through ⟨nofun, c, here, asked, response, batches⟩ (fun accepted => by have at_ := inv.here; rw [accepted] at at_; exact at_.2)
      placed
  split at h
  · cases h
    exact ⟨inv.grown, inv.earlier, inv.current, of_place _⟩
  · split at h
    · cases h
    · split at h
      · rename_i message c' got
        rw [here, Option.bind_some] at got
        have sound := (inv.current c here).read got
        have later : Later c c' := by
          rcases Call.read_cases got with ⟨⟨m, _, read⟩, up, _⟩ | ⟨none, _⟩
          · exact ⟨by rw [up], read ▸ List.prefix_append ..⟩
          · cases none
        have moved (place : LoopPlace) : Here s.writer (some place) (some c') s.place :=
          .of_through (Through.later ⟨nofun, c, rfl, asked, response, batches⟩ later)
            (fun accepted => by have at_ := inv.here; rw [accepted] at at_; exact at_.2) placed
        have current : ∀ c'', some c' = some c'' → c''.Sound ends (ends.memberId ∉ blocked.blockedMembers) := by
          rintro _ ⟨⟩
          exact sound
        split at h
        · cases h
          exact ⟨inv.grown, inv.earlier, current, moved _⟩
        · cases h
          exact ⟨inv.grown, inv.earlier, current, moved _⟩
      · cases h
        exact ⟨inv.grown, inv.earlier, inv.current, of_place _⟩
      · cases h
  · cases h
    exact ⟨inv.grown, inv.earlier, inv.current, .of_through ⟨nofun, c, here, asked, response, batches⟩ (fun _ => rfl) placed⟩
  · cases h
    exact ⟨inv.grown, inv.earlier, inv.current, of_place _⟩
  · cases h
  · cases h

/-- A try that has come to nothing. -/
theorem Inv.failed (inv : Inv ends blocked s) (waiting : Waiting s.writer s.loop s.current) : Inv ends blocked s.failed :=
  ⟨inv.grown, inv.earlier, inv.current, waiting⟩

/-- After `Initialize` the writer may go to any place. -/
theorem Inv.settle (inv : Inv ends blocked s) (late : Settled s.place) {place : Place} (late' : Settled place) :
    Inv ends blocked { s with place := place } :=
  ⟨inv.grown, inv.earlier, inv.current, (here_settled late').2 ((here_settled late).1 inv.here)⟩

/-- `HandleDisconnect`. -/
theorem Inv.close (inv : Inv ends blocked s) (late : Settled s.place) (wire : writer.wire = s.writer.wire)
    (off : writer.connected = false) : Inv ends blocked (s.close writer) := by
  refine ⟨inv.grown, inv.earlier, fun c is => ?_, ((here_settled late).1 inv.here).imp (fun waiting => ?_) ?_⟩
  · obtain ⟨c', is', rfl⟩ := Option.map_eq_some_iff.1 is
    exact (inv.current c' is').of_same rfl rfl rfl rfl rfl
  · refine ⟨off, wire.trans waiting.unwritten, waiting.threadless, fun c is => ?_⟩
    obtain ⟨c', is', rfl⟩ := Option.map_eq_some_iff.1 is
    exact waiting.quiet c' is'
  · rintro ⟨thread, c, is, asked, response, batches⟩
    exact ⟨thread, { c with writesDone := true }, by simp only [Session.close, is, Option.map_some], asked, response, wire ▸ batches⟩

variable [DecidableEq P]

/-- A batch that is written behind the request. -/
theorem write_batch (batch : MessageBatch) {c : Call} (sound : c.Sound ends allowed) (asked : c.up.written ≠ [])
    (intact : c.up.cut = false) :
    (c.write (.messageBatch batch)).Sound ends allowed ∧ (c.write (.messageBatch batch)).up.written ≠ [] ∧
      (c.write (.messageBatch batch)).batches = c.batches ++ [batch] := by
  obtain ⟨_, _, _, written, _, _⟩ | ⟨_, off, _⟩ := Fifo.push_cases (.messageBatch batch) c.up
  · have longer : (c.write (.messageBatch batch)).up.written = c.up.written ++ [.messageBatch batch] := written
    refine ⟨sound.write ?_, by rw [longer]; simp, ?_⟩
    · obtain none | ⟨request, before, fits, all⟩ := sound.conversation
      · exact absurd none asked
      · exact .inr ⟨request, before ++ [batch], fits, by rw [all]; simp⟩
    · unfold Call.batches
      rw [longer, List.filterMap_append]
      rfl
  · rw [intact] at off
    cases off

omit [DecidableEq P] in
/-- What the writer writes when it receives a message. -/
theorem Inv.sent (inv : Inv ends blocked s) (receiving : s.place = .receiving)
    (sent : Sent (s.current.any Call.canWrite) s.writer writer) :
    Inv ends blocked { s with
      writer := writer
      current := s.current.map fun c =>
        ((writer.wire.drop s.writer.wire.length).map fun entry => RemoteMessage.messageBatch entry.2).foldl (fun c message => c.write message) c } := by
  have here := inv.here
  rw [receiving] at here
  -- the state of the call where nothing is written
  have unwritten (wire : writer.wire = s.writer.wire) :
      ((writer.wire.drop s.writer.wire.length).map fun entry => RemoteMessage.messageBatch entry.2) = [] := by
    rw [wire, List.drop_length, List.map_nil]
  cases sent with
  | nothing wire connected stream =>
    rw [unwritten wire]
    simp only [List.foldl_nil, Option.map_id']
    refine ⟨inv.grown, inv.earlier, inv.current, ?_⟩
    dsimp only
    rw [receiving]
    refine here.imp (fun waiting => ⟨connected.trans waiting.unconnected, wire.trans waiting.unwritten, waiting.threadless, waiting.quiet⟩)
      fun ⟨thread, c, is, asked, response, batches⟩ => ⟨thread, c, is, asked, response, wire ▸ batches⟩
  | batch entry was answer wire connected stream =>
    obtain ⟨thread, c, is, asked, response, batches⟩ := here.resolve_left fun waiting => by
      rw [waiting.unconnected] at was
      cases was
    have one : ((writer.wire.drop s.writer.wire.length).map fun entry => RemoteMessage.messageBatch entry.2) =
        [RemoteMessage.messageBatch entry.2] := by
      rw [wire, List.drop_left]
      rfl
    have intact : c.up.cut = false := by
      rw [is] at answer
      simp only [Option.any_some, Call.canWrite, Bool.and_eq_true, Bool.not_eq_true'] at answer
      exact answer.2
    obtain ⟨sound, asked', longer⟩ := write_batch entry.2 (inv.current c is) asked intact
    rw [one, is]
    simp only [List.foldl_cons, List.foldl_nil, Option.map_some]
    refine ⟨inv.grown, inv.earlier, ?_, ?_⟩
    · rintro _ ⟨⟩
      exact sound
    · dsimp only
      rw [receiving]
      refine .inr ⟨thread, _, rfl, asked', response, ?_⟩
      rw [longer, batches, wire, List.map_append, List.map_cons, List.map_nil]
  | refused was streamed answer wire connected stream =>
    rw [unwritten wire]
    simp only [List.foldl_nil, Option.map_id']
    refine ⟨inv.grown, inv.earlier, inv.current, ?_⟩
    dsimp only
    rw [receiving]
    refine .inr ((here.resolve_left fun waiting => ?_).imp_right fun ⟨c, is, asked, response, batches⟩ =>
      ⟨c, is, asked, response, wire ▸ batches⟩)
    rw [waiting.unconnected] at was
    cases was

/-- **A message for the writer.** -/
theorem Inv.deliver (inv : Inv ends blocked s) (receiving : s.place = .receiving) (deliver : DeliverPtr P M) :
    Inv ends blocked (s.deliverStep env deliver) := by
  have sent := receiveDeliver_sent env (s.current.any Call.canWrite) deliver s.writer
  have late : Settled s.place := receiving ▸ trivial
  unfold deliverStep
  dsimp only
  split
  · exact Inv.settle (inv.sent receiving sent) late trivial
  · split
    · rename_i dropped
      rw [Bool.and_eq_true, Bool.not_eq_true'] at dropped
      refine Inv.close (inv.sent receiving sent) late rfl ?_
      cases sent with
      | nothing _ _ stream => rw [stream, dropped.1] at dropped; cases dropped.2
      | batch _ _ _ _ _ stream => rw [stream, dropped.1] at dropped; cases dropped.2
      | refused _ _ _ _ connected _ => exact connected
    · exact inv.sent receiving sent

theorem Inv.opening (inv : Inv ends blocked s) {succeeds : Bool} (h : step env ends s (.opening succeeds) = some s') :
    Inv ends blocked s' := by
  have here := inv.here
  simp only [step] at h
  split at h
  · rename_i connecting
    rw [connecting.1] at here
    cases succeeds with
    | false =>
      cases h
      exact inv.failed here
    | true =>
      cases h
      refine ⟨inv.grown, fun c member => ?_, ?_, ⟨here.unconnected, here.unwritten, here.threadless, ?_⟩, .opened, rfl, rfl, rfl⟩
      · rcases List.mem_append.1 member with old | dropped
        · exact inv.earlier c old
        · -- the call of the last try
          obtain ⟨c', is, rfl⟩ := Option.map_eq_some_iff.1 (Option.mem_toList.1 dropped)
          exact ⟨(inv.current c' is).cut _ _, here.quiet c' is⟩
      · rintro _ ⟨⟩
        exact Call.sound_opened
      · rintro _ ⟨⟩
        rfl
  · cases h

theorem Inv.request (inv : Inv ends blocked s) (h : step env ends s .request = some s') : Inv ends blocked s' := by
  have here := inv.here
  simp only [step] at h
  split at h
  · rename_i c opened is
    rw [opened] at here
    obtain ⟨waiting, c', is', unwritten, unread⟩ := here
    rw [is] at is'
    cases is'
    split at h
    · rename_i free
      cases h
      simp only [Call.canWrite, Bool.and_eq_true, Bool.not_eq_true'] at free
      obtain ⟨_, _, _, written, _, _⟩ | ⟨_, off, _⟩ := Fifo.push_cases (s.connectRequest ends) c.up
      · have one : (c.write (s.connectRequest ends)).up.written = [s.connectRequest ends] := by
          unfold Call.write
          rw [written, unwritten, List.nil_append]
        refine ⟨inv.grown, inv.earlier, ?_, ⟨waiting.unconnected, waiting.unwritten, waiting.threadless, ?_⟩, _, rfl, ?_, unread⟩
        · rintro _ ⟨⟩
          refine (inv.current c is).write ?_
          rw [unwritten]
          exact .inr ⟨s.connectRequest ends, [], ⟨_, rfl⟩, rfl⟩
        · rintro _ ⟨⟩
          unfold Call.batches
          rw [one]
          rfl
        · rw [one]
          exact List.cons_ne_nil _ _
      · rw [free.2] at off
        cases off
    · cases h
      exact inv.failed waiting
  · cases h

omit [DecidableEq P] in
/-- What the writer reads while it waits for the response leaves it without a batch. -/
theorem Inv.read (inv : Inv ends blocked s) (requested : s.place = .requested) {c c' : Call} {message : Option RemoteMessage}
    (is : s.current = some c) (got : c.read = some (message, c')) :
    Inv ends blocked { s with current := some c', place := .connecting } := by
  have here := inv.here
  rw [requested] at here
  refine ⟨inv.grown, inv.earlier, ?_, here.1.unconnected, here.1.unwritten, here.1.threadless, ?_⟩
  · rintro _ ⟨⟩
    exact (inv.current c is).read got
  · rintro _ ⟨⟩
    obtain ⟨_, up, _⟩ | ⟨_, same⟩ := Call.read_cases got
    · unfold Call.batches
      rw [up]
      exact here.1.quiet c is
    · rw [same]
      exact here.1.quiet c is

theorem Inv.response (inv : Inv ends blocked s) (h : step env ends s .response = some s') : Inv ends blocked s' := by
  simp only [step] at h
  split at h
  · rename_i response c requested got
    obtain ⟨c', is, got⟩ := Option.bind_eq_some_iff.1 got
    have read := inv.read requested is got
    split at h
    · cases h
      exact read.failed read.here
    · rename_i unblocked
      cases h
      have here := inv.here
      rw [requested] at here
      obtain ⟨waiting, c'', is', asked, unread⟩ := here
      rw [is] at is'
      cases is'
      obtain ⟨⟨m, same, more⟩, up, _⟩ | ⟨none, _⟩ := Call.read_cases got
      · cases same
        refine ⟨inv.grown, inv.earlier, read.current, ⟨nofun, c, rfl, up ▸ asked, ⟨response, by simpa using unblocked, ?_⟩, ?_⟩,
          waiting.unconnected⟩
        · rw [more]
          exact List.mem_append_right _ List.mem_cons_self
        · rw [read.here.quiet c rfl, waiting.unwritten]
          rfl
      · cases none
  · rename_i message c _ requested got
    obtain ⟨c', is, got⟩ := Option.bind_eq_some_iff.1 got
    cases h
    have read := inv.read requested is got
    exact read.failed read.here
  · cases h

theorem Inv.connect (inv : Inv ends blocked s) (h : step env ends s .connect = some s') : Inv ends blocked s' := by
  simp only [step] at h
  split at h
  · rename_i accepted
    cases h
    have here := inv.here
    rw [accepted] at here
    exact ⟨inv.grown, inv.earlier, inv.current, .inr here.1⟩
  · cases h

theorem Inv.giveUp (inv : Inv ends blocked s) (h : step env ends s .giveUp = some s') : Inv ends blocked s' := by
  simp only [step] at h
  split at h
  · rename_i connecting
    cases h
    have here := inv.here
    rw [connecting.1] at here
    exact ⟨inv.grown, inv.earlier, inv.current, .inl here⟩
  · cases h

/-- **Every step keeps the invariant.** -/
theorem inv_step : Machine.Keeps (step env ends) Machine.free (Inv (P := P) (M := M) ends blocked) := by
  intro s label s' inv _ h
  cases label with
  | opening succeeds => exact inv.opening h
  | request => exact inv.request h
  | response => exact inv.response h
  | connect => exact inv.connect h
  | giveUp => exact inv.giveUp h
  | deliver d =>
    simp only [step] at h
    split at h
    · rename_i receiving
      cases h
      exact inv.deliver receiving d
    · cases h
  | disconnect =>
    simp only [step] at h
    split at h
    · rename_i receiving
      cases h
      exact inv.close (receiving ▸ trivial) rfl rfl
    · cases h
  | join =>
    simp only [step] at h
    split at h
    · rename_i closing
      cases h
      exact inv.settle (closing.1 ▸ trivial) trivial
    · cases h
  | loop => exact inv.loopStep h
  | serve call =>
    refine inv.onCall (fun c c' sound served => ?_) h
    exact sound.serve (fun free member => free (inv.grown _ member)) served
  | block memberIds =>
    cases h
    exact ⟨fun memberId member => (BlockList.mem_block ..).2 (.inr (inv.grown memberId member)), inv.earlier, inv.current, inv.here⟩
  | blockOwn memberIds =>
    cases h
    exact ⟨inv.grown, inv.earlier, inv.current, inv.here⟩
  | cut call keepUp keepDown =>
    refine inv.onCall (fun c c' sound broken => ?_) h
    cases broken
    exact ⟨sound.cut _ _, rfl, rfl⟩

theorem Reached.inv {ownBlockList : BlockList} {labels : List (SessionLabel P M)} (h : Reached env ends ownBlockList blocked labels s) :
    Inv ends blocked s := Machine.Run.keeps inv_step h (inv_start ends ownBlockList blocked)

omit [DecidableEq P] in
/-- The batches on the current call are among those that were written. -/
theorem Inv.batches_prefix (inv : Inv ends blocked s) {c : Call} (is : s.current = some c) :
    c.batches <+: s.writer.wire.map Prod.snd := by
  have of_waiting (waiting : Waiting s.writer s.loop s.current) : c.batches <+: s.writer.wire.map Prod.snd := by
    rw [waiting.quiet c is]
    exact List.nil_prefix
  have of_through (through : Through s.writer s.loop s.current) : c.batches <+: s.writer.wire.map Prod.snd := by
    obtain ⟨_, c', is', _, _, batches⟩ := through
    rw [is] at is'
    cases is'
    exact batches ▸ List.prefix_refl _
  exact inv.here.waiting_or_through.elim of_waiting of_through

end Session

end Protoactor.Remote
