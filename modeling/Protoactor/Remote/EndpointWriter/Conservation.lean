import Protoactor.Remote.Batch.Reading
import Protoactor.Remote.EndpointWriter

/-!
# What becomes of a message (`src/remote/endpoint_manager.cpp`, `src/remote/endpoint_writer.cpp`)

The endpoint manager and the actors of its writers, with calls, stops, disconnects and the answers
of the streams in any order. A message that is handed to `RemoteDeliver` is lost where the code
says `TODO: Publish DeadLetterEvent`, where a disconnect clears a queue, and where a batch is taken
that is not written as a whole. Without such a step nothing is lost (`accounted_of_safeRun`).
-/

namespace Protoactor.Remote
set_option autoImplicit false
open Actor (Ptr)

variable {U K : Type}

/-- A message on its way, and a PID as it is pointed to on this system. -/
abbrev Record (U K : Type) := DeliverPtr Actor.PID (Ptr U K)

abbrev Surrounding (U K : Type) := Surroundings Actor.PID (Ptr U K)

/-- The actor of a writer: the messages of its mailbox, and the writer. -/
structure WriterActor (U K : Type) where
  mailbox : List (Record U K)
  writer : EndpointWriter Actor.PID (Ptr U K)

/-- The endpoint manager with the actors that are registered under the names of PIDs. -/
structure Transit (U K : Type) where
  manager : EndpointManager
  actors : String × String → Option (WriterActor U K)
  /-- auxiliary: a record for each call of `RemoteDeliver` -/
  handed : List (Record U K)
  /-- what a `DeadLetterEvent` was published for -/
  reported : List (Record U K)

inductive Happening (U K : Type) where
  | remoteDeliver (target : Actor.PID) (message : Ptr U K) (sender : Option Actor.PID)
  | stop
  | removeEndpoint (address : String)
  | started (writer : String × String) (connects : Bool)
  /-- the next message of the mailbox, with the answer of the stream -/
  | receive (writer : String × String) (write : Bool)
  | endpointTerminated (writer : String × String)
  | stopping (writer : String × String)
  /-- the end of `ReceiveLoop` -/
  | connectionLost (writer : String × String)

namespace Transit

def withActor (name : String × String) (change : WriterActor U K → WriterActor U K) (t : Transit U K) : Transit U K :=
  { t with actors := fun n => if n = name then (t.actors n).map change else t.actors n }

/-- `RootContext::Send` to a writer; without a process the message is a dead letter. -/
def post (writer : Actor.PID) (record : Record U K) (t : Transit U K) : Transit U K :=
  match t.actors writer.name with
  | none => { t with reported := t.reported ++ [record] }
  | some _ => t.withActor writer.name fun a => { a with mailbox := a.mailbox ++ [record] }

/-- The record of a call. -/
def record (t : Transit U K) (target : Actor.PID) (message : Ptr U K) (sender : Option Actor.PID) : Record U K :=
  ⟨t.handed.length, none, message, some target, sender, -1⟩

def remoteDeliver (target : Actor.PID) (message : Ptr U K) (sender : Option Actor.PID) (t : Transit U K) : Transit U K :=
  let answer : List (Effect Unit U K) × EndpointManager := t.manager.remoteDeliver (some target) message sender
  let handed := { t with manager := answer.2, handed := t.handed ++ [t.record target message sender] }
  match answer.1 with
  | [.remoteDeliver writer deliver] => handed.post writer ⟨t.handed.length, deliver⟩
  | _ => handed

/-- `Receive` of the next message. -/
def receive (env : Surrounding U K) (write : Bool) (a : WriterActor U K) : WriterActor U K :=
  match a.mailbox with
  | [] => a
  | deliver :: rest => ⟨rest, a.writer.receiveDeliver env write deliver⟩

/-- A message for the writer; a mailbox that an exception has left stays RUNNING, and handles nothing. -/
def handling (name : String × String) (change : WriterActor U K → WriterActor U K) (t : Transit U K) : Transit U K :=
  t.withActor name fun a => if a.writer.thrown then a else change a

def step (env : Surrounding U K) (t : Transit U K) : Happening U K → Transit U K
  | .remoteDeliver target message sender => t.remoteDeliver target message sender
  | .stop => { t with manager := t.manager.stop }
  | .removeEndpoint address => { t with manager := t.manager.removeEndpoint address }
  | .started writer connects => t.handling writer fun a => { a with writer := a.writer.initializeWriter connects }
  | .receive writer write => t.handling writer (receive env write)
  | .endpointTerminated writer => t.handling writer fun a => { a with writer := a.writer.handleDisconnect }
  | .stopping writer => t.handling writer fun a => { a with writer := a.writer.handleDisconnect }
  | .connectionLost writer => t.withActor writer fun a => { a with writer := { a.writer with connected := false } }

def run (env : Surrounding U K) (t : Transit U K) (happenings : List (Happening U K)) : Transit U K := happenings.foldl (step env) t

/-! ## Where a message is -/

/-- The writer has written a batch that was built from this message among others, and the
envelopes of that batch stand for them. -/
def Written (env : Surrounding U K) (w : EndpointWriter Actor.PID (Ptr U K)) (r : Record U K) : Prop :=
  ∃ entries message, (entries, message) ∈ w.wire ∧ r ∈ entries ∧
    List.Forall₂ (StandsFor env.registry env.pids message) (entries.map DeliverPtr.deliver) message.envelopes

/-- In the mailbox, in the queue, or written. -/
def Held (env : Surrounding U K) (a : WriterActor U K) (r : Record U K) : Prop :=
  r ∈ a.mailbox ∨ r ∈ a.writer.messageQueue ∨ Written env a.writer r

/-- A writer holds the message, or it has been reported. -/
def Found (env : Surrounding U K) (t : Transit U K) (r : Record U K) : Prop :=
  (∃ name a, t.actors name = some a ∧ Held env a r) ∨ r ∈ t.reported

/-- **Nothing has vanished.** -/
def Accounted (env : Surrounding U K) (t : Transit U K) : Prop := ∀ r ∈ t.handed, Found env t r

/-! ## When nothing is lost -/

/-- The batch that is due with one more message is empty, or goes through as a whole. -/
def Carries (env : Surrounding U K) (write : Bool) (w : EndpointWriter Actor.PID (Ptr U K)) (deliver : Record U K) : Prop :=
  env.batchSize ≤ w.messageQueue.length + 1 → env.batchSize = 0 ∨
    (w.connected = true ∧ w.stream = true ∧ write = true ∧
      ∀ r ∈ (w.messageQueue ++ [deliver]).take env.batchSize, goesThrough env.registry r.deliver = true)

/-- What a step needs in order to lose nothing. -/
def Safe (env : Surrounding U K) (t : Transit U K) : Happening U K → Prop
  | .remoteDeliver target _ _ => target.address ≠ "" ∧ (t.manager.actor Endpoint.writer target.address).isSome
  | .receive writer write => ∀ a deliver rest, t.actors writer = some a → a.mailbox = deliver :: rest →
    Carries env write a.writer deliver
  | .endpointTerminated writer | .stopping writer => ∀ a, t.actors writer = some a → a.writer.messageQueue = []
  | .stop | .removeEndpoint _ | .started _ _ | .connectionLost _ => True

def SafeRun (env : Surrounding U K) (t : Transit U K) : List (Happening U K) → Prop
  | [] => True
  | happening :: rest => Safe env t happening ∧ SafeRun env (step env t happening) rest

/-! ## One step -/

/-- A change of an actor that keeps what it holds. -/
theorem Found.withActor {env : Surrounding U K} {t : Transit U K} {r : Record U K} (found : Found env t r) {name : String × String}
    {change : WriterActor U K → WriterActor U K} (keeps : ∀ a, t.actors name = some a → Held env a r → Held env (change a) r) :
    Found env (t.withActor name change) r := by
  rcases found with ⟨other, a, there, held⟩ | reported
  · by_cases same : other = name
    · subst same
      refine .inl ⟨other, change a, ?_, keeps a there held⟩
      simp only [Transit.withActor, if_true, there, Option.map_some]
    · refine .inl ⟨other, a, ?_, held⟩
      simp only [Transit.withActor, if_neg same, there]
  · exact .inr reported

theorem Found.handling {env : Surrounding U K} {t : Transit U K} {r : Record U K} (found : Found env t r) {name : String × String}
    {change : WriterActor U K → WriterActor U K} (keeps : ∀ a, t.actors name = some a → Held env a r → Held env (change a) r) :
    Found env (t.handling name change) r := by
  refine found.withActor fun a there held => ?_
  split
  · exact held
  · exact keeps a there held

/-- What is sent to a writer is in its mailbox or reported. -/
theorem found_post (env : Surrounding U K) (writer : Actor.PID) (r : Record U K) (t : Transit U K) :
    Found env (t.post writer r) r ∧ ∀ r', Found env t r' → Found env (t.post writer r) r' := by
  unfold post
  cases there : t.actors writer.name with
  | none =>
    refine ⟨.inr (List.mem_append_right _ (List.mem_singleton.2 rfl)), fun r' found => ?_⟩
    exact found.imp id fun reported => List.mem_append_left _ reported
  | some a =>
    constructor
    · refine .inl ⟨writer.name, { a with mailbox := a.mailbox ++ [r] }, ?_, .inl (List.mem_append_right _ (List.mem_singleton.2 rfl))⟩
      simp only [Transit.withActor, if_true, there, Option.map_some]
    · intro r' found
      exact found.withActor fun a' _ held => held.imp (fun waiting => List.mem_append_left _ waiting) id

theorem written_of_wire {env : Surrounding U K} {w w' : EndpointWriter Actor.PID (Ptr U K)} (same : w'.wire = w.wire) {r : Record U K}
    (written : Written env w r) : Written env w' r := by
  obtain ⟨entries, message, there, rest⟩ := written
  exact ⟨entries, message, same ▸ there, rest⟩

/-- A batch that goes through as a whole is written as a whole. -/
theorem sendMessageBatch_carried {env : Surrounding U K} {batch : List (Record U K)} {w : EndpointWriter Actor.PID (Ptr U K)}
    (connected : w.connected = true) (stream : w.stream = true) (some_ : batch ≠ [])
    (through : ∀ r ∈ batch, goesThrough env.registry r.deliver = true) :
    let w' := w.sendMessageBatch env true batch
    w'.messageQueue = w.messageQueue ∧ (∀ r, Written env w r → Written env w' r) ∧ ∀ r ∈ batch, Written env w' r := by
  intro w'
  have whole : batch.filter (fun r => goesThrough env.registry r.deliver) = batch := List.filter_eq_self.2 through
  let message := batchOf env.pids ((batch.map fun r => some r.deliver).filterMap (encoded env.registry))
  have built : messageBatch env.registry env.pids (batch.map fun r => some r.deliver) = .ok message := by
    rw [messageBatch_eq, if_pos]
    refine List.all_eq_true.2 fun entry there => ?_
    obtain ⟨r, member, rfl⟩ := List.mem_map.1 there
    exact caught_of_goesThrough (through r member)
  have entries : List.Forall₂ (StandsFor env.registry env.pids message) (batch.map DeliverPtr.deliver) message.envelopes := by
    have stand := batchOf_entries env.registry env.pids (batch.map fun r => some r.deliver)
    rwa [show ((batch.map fun r => some r.deliver).filterMap fun d => d.filter (goesThrough env.registry)) =
      batch.map DeliverPtr.deliver from ?_] at stand
    rw [List.filterMap_map, ← List.filterMap_eq_map]
    refine List.filterMap_congr fun r member => ?_
    simp only [Function.comp_apply, Option.filter_some, through r member, if_true]
  have full : 0 < message.envelopes.length := by
    rw [← entries.length_eq, List.length_map]
    exact List.length_pos_iff.2 some_
  have sent : w' = { w with passed := w.passed ++ batch, wire := w.wire ++ [(batch, message)] } := by
    simp only [w', EndpointWriter.sendMessageBatch]
    rw [if_neg (by simp [connected, some_]), if_neg (by simp [stream]), built]
    dsimp only
    rw [if_pos full, if_pos trivial, whole]
  rw [sent]
  refine ⟨rfl, fun r written => ?_, fun r member => ?_⟩
  · obtain ⟨before, message', there, rest⟩ := written
    exact ⟨before, message', List.mem_append_left _ there, rest⟩
  · exact ⟨batch, message, List.mem_append_right _ (List.mem_singleton.2 rfl), member, entries⟩

/-- **A message that is received** is queued or written, and so is what was in the queue. -/
theorem receiveDeliver_carried {env : Surrounding U K} {write : Bool} {w : EndpointWriter Actor.PID (Ptr U K)} {deliver : Record U K}
    (carries : Carries env write w deliver) :
    let w' := w.receiveDeliver env write deliver
    (∀ r ∈ w.messageQueue ++ [deliver], r ∈ w'.messageQueue ∨ Written env w' r) ∧ ∀ r, Written env w r → Written env w' r := by
  intro w'
  have size : (w.messageQueue ++ [deliver]).length = w.messageQueue.length + 1 := by simp
  by_cases due : env.batchSize ≤ w.messageQueue.length + 1
  · have least : min (w.messageQueue ++ [deliver]).length env.batchSize = env.batchSize := by omega
    have taken : w' = if (w.messageQueue ++ [deliver]).take env.batchSize = []
        then { w with messageQueue := (w.messageQueue ++ [deliver]).drop env.batchSize }
        else EndpointWriter.sendMessageBatch env write ((w.messageQueue ++ [deliver]).take env.batchSize)
          { w with messageQueue := (w.messageQueue ++ [deliver]).drop env.batchSize } := by
      simp only [w', EndpointWriter.receiveDeliver, EndpointWriter.sendBatch, least]
      rw [if_pos (by omega)]
    rcases carries due with zero | ⟨connected, stream, answer, through⟩
    · rw [zero, List.take_zero, if_pos rfl, List.drop_zero] at taken
      rw [taken]
      exact ⟨fun r member => .inl member, fun r written => written⟩
    · by_cases none_ : (w.messageQueue ++ [deliver]).take env.batchSize = []
      · have zero : env.batchSize = 0 := by
          have short := congrArg List.length none_
          rw [List.length_take, List.length_nil] at short
          omega
        rw [zero, List.take_zero, if_pos rfl, List.drop_zero] at taken
        rw [taken]
        exact ⟨fun r member => .inl member, fun r written => written⟩
      · rw [if_neg none_, answer] at taken
        rw [taken]
        obtain ⟨queue, older, batch⟩ := sendMessageBatch_carried
          (w := { w with messageQueue := (w.messageQueue ++ [deliver]).drop env.batchSize }) connected stream none_ through
        refine ⟨fun r member => ?_, fun r written => older r (written_of_wire rfl written)⟩
        rw [← List.take_append_drop env.batchSize (w.messageQueue ++ [deliver]), List.mem_append] at member
        rcases member with first | rest
        · exact .inr (batch r first)
        · exact .inl (queue ▸ rest)
  · have kept : w' = { w with messageQueue := w.messageQueue ++ [deliver] } := by
      simp only [w', EndpointWriter.receiveDeliver]
      rw [if_neg (by omega)]
    rw [kept]
    exact ⟨fun r member => .inl member, fun r written => written_of_wire rfl written⟩

/-- A call that finds a writer hands its record to it. -/
theorem remoteDeliver_found {t : Transit U K} {target : Actor.PID} (addressed : target.address ≠ "") {writer : Actor.PID}
    (endpoint : t.manager.actor Endpoint.writer target.address = some writer) (message : Ptr U K) (sender : Option Actor.PID) :
    ∃ manager, t.remoteDeliver target message sender =
      Transit.post writer (t.record target message sender)
        { t with manager := manager, handed := t.handed ++ [t.record target message sender] } := by
  have effects : (t.manager.remoteDeliver (some target) message sender : List (Effect Unit U K) × EndpointManager).1 =
      [.remoteDeliver writer ⟨none, message, some target, sender, -1⟩] := by
    rw [EndpointManager.remoteDeliver_eq, if_neg addressed, endpoint]
  refine ⟨(t.manager.remoteDeliver (some target) message sender : List (Effect Unit U K) × EndpointManager).2, ?_⟩
  simp only [Transit.remoteDeliver, effects]
  rfl

/-- A clear queue is all that a disconnect clears. -/
theorem held_handleDisconnect {env : Surrounding U K} {a : WriterActor U K} (empty : a.writer.messageQueue = []) {r : Record U K}
    (held : Held env a r) : Held env { a with writer := a.writer.handleDisconnect } r := by
  rcases held with waiting | queued | written
  · exact .inl waiting
  · rw [empty] at queued
    cases queued
  · exact .inr (.inr (written_of_wire rfl written))

theorem held_receive {env : Surrounding U K} {write : Bool} {a : WriterActor U K}
    (carries : ∀ deliver rest, a.mailbox = deliver :: rest → Carries env write a.writer deliver) {r : Record U K}
    (held : Held env a r) : Held env (receive env write a) r := by
  unfold receive
  cases mailbox : a.mailbox with
  | nil => exact held
  | cons deliver rest =>
    obtain ⟨queue, older⟩ := receiveDeliver_carried (carries deliver rest mailbox)
    rcases held with waiting | queued | written
    · rw [mailbox] at waiting
      rcases List.mem_cons.1 waiting with rfl | later
      · exact .inr (queue r (List.mem_append_right _ (List.mem_singleton.2 rfl)))
      · exact .inl later
    · exact .inr (queue r (List.mem_append_left _ queued))
    · exact .inr (.inr (older r written))

/-- **One step** that is safe. -/
theorem Accounted.step {env : Surrounding U K} {t : Transit U K} (accounted : Accounted env t) {happening : Happening U K}
    (safe : Safe env t happening) : Accounted env (t.step env happening) := by
  cases happening with
  | remoteDeliver target message sender =>
    obtain ⟨addressed, endpoint⟩ := safe
    obtain ⟨writer, endpoint⟩ := Option.isSome_iff_exists.1 endpoint
    obtain ⟨manager, posted⟩ := remoteDeliver_found addressed endpoint message sender
    have sent := found_post env writer (t.record target message sender)
      { t with manager := manager, handed := t.handed ++ [t.record target message sender] }
    have all : (t.remoteDeliver target message sender).handed = t.handed ++ [t.record target message sender] := by
      rw [posted]
      unfold post
      split <;> rfl
    intro r handed
    change r ∈ (t.remoteDeliver target message sender).handed at handed
    change Found env (t.remoteDeliver target message sender) r
    rw [all] at handed
    rw [posted]
    rcases List.mem_append.1 handed with before | now
    · exact sent.2 r (accounted r before)
    · rw [List.mem_singleton.1 now]
      exact sent.1
  | stop => exact accounted
  | removeEndpoint address => exact accounted
  | started writer connects =>
    intro r handed
    refine (accounted r handed).handling fun a _ held => ?_
    unfold EndpointWriter.initializeWriter
    split
    · exact held.imp id fun rest => rest.imp id (written_of_wire rfl)
    · exact held
  | receive writer write =>
    exact fun r handed => (accounted r handed).handling fun a there held =>
      held_receive (fun deliver rest mailbox => safe a deliver rest there mailbox) held
  | endpointTerminated writer =>
    exact fun r handed => (accounted r handed).handling fun a there held => held_handleDisconnect (safe a there) held
  | stopping writer =>
    exact fun r handed => (accounted r handed).handling fun a there held => held_handleDisconnect (safe a there) held
  | connectionLost writer =>
    exact fun r handed => (accounted r handed).withActor fun a _ held => held.imp id fun rest => rest.imp id (written_of_wire rfl)

theorem SafeRun.prefix_ {env : Surrounding U K} {t : Transit U K} {before rest : List (Happening U K)}
    (safe : SafeRun env t (before ++ rest)) : SafeRun env t before := by
  induction before generalizing t with
  | nil => trivial
  | cons happening before ih => exact ⟨safe.1, ih safe.2⟩

theorem Accounted.run {env : Surrounding U K} {t : Transit U K} (accounted : Accounted env t) {happenings : List (Happening U K)}
    (safe : SafeRun env t happenings) : Accounted env (t.run env happenings) := by
  induction happenings generalizing t with
  | nil => exact accounted
  | cons happening rest ih => exact ih (accounted.step safe.1) safe.2

/-- **A run of safe steps loses nothing** at any moment, whatever the endpoints and writers are
when it begins. -/
theorem accounted_of_safeRun (env : Surrounding U K) {t : Transit U K} (fresh : t.handed = []) {happenings : List (Happening U K)}
    (safe : SafeRun env t happenings) : ∀ before, before <+: happenings → Accounted env (t.run env before) := by
  rintro before ⟨rest, rfl⟩
  refine Accounted.run (fun r handed => ?_) safe.prefix_
  rw [fresh] at handed
  cases handed

/-- A writer for `b:8080` that sends each message by itself. -/
def oneByOne : Surrounding UInt8 Unit :=
  ⟨{ Config.new with endpointWriterBatchSize := 1 }, byteRegistry, fun p => ⟨p.address, p.id, 0⟩⟩

def connectedTo : Transit UInt8 Unit where
  manager := ⟨false, fun address => if address = "b:8080" then some ⟨some ⟨0, "nonhost", "writer"⟩, none⟩ else none⟩
  actors := fun name => if name = ("nonhost", "writer") then some ⟨[], EndpointWriter.new.initializeWriter true⟩ else none
  handed := []
  reported := []

/-- A message that is handed over, received and written, and then a disconnect. -/
theorem accounted_one : Accounted oneByOne
    (connectedTo.run oneByOne [.remoteDeliver ⟨1, "b:8080", "1$"⟩ (.user 7) none, .receive ("nonhost", "writer") true,
      .stopping ("nonhost", "writer")]) := by
  refine accounted_of_safeRun oneByOne rfl ?_ _ (List.prefix_refl _)
  refine ⟨⟨by decide, by decide⟩, fun a deliver rest there mailbox => ?_, fun a there => ?_, trivial⟩
  · cases there
    cases mailbox
    exact fun _ => .inr ⟨rfl, rfl, rfl, by decide⟩
  · cases there
    decide

/-- The endpoint manager of a node that has just been started drops the message. -/
theorem dropped : ¬ Accounted oneByOne
    (Transit.run oneByOne ⟨.new, fun _ => none, [], []⟩ [.remoteDeliver ⟨1, "b:8080", "1$"⟩ (.user 7) none]) := by
  intro accounted
  rcases accounted _ List.mem_cons_self with ⟨_, _, there, _⟩ | reported
  · cases there
  · cases reported

end Transit

end Protoactor.Remote
