import Mathlib.Algebra.GroupWithZero.Nat
import Mathlib.Algebra.Ring.Int.Defs
import Protoactor.Remote.Batch
import Protoactor.Remote.Node

/-!
# The endpoint writer (`src/remote/endpoint_writer.cpp`)

The writer keeps its messages in a queue and takes a batch from it whenever the queue has reached
the batch size. Nothing else sends a batch, so what is left over at the end of a run stays in the
queue (`flushed_iff_dvd`).
-/

namespace Protoactor.Remote
set_option autoImplicit false

variable {P M : Type}

/-- A `std::shared_ptr<RemoteDeliver>`. -/
structure DeliverPtr (P M : Type) where
  ref : Nat
  deliver : RemoteDeliver P M
  deriving DecidableEq, Repr

/-- What a writer works with: its configuration, the serializers and the objects behind the PIDs. -/
structure Surroundings (P M : Type) where
  config : Config
  registry : SerializerRegistry M
  pids : P → PID

/-- `static_cast<size_t>` of an `int`. -/
def toSize (n : Int) : Nat := (n % 2 ^ 64).toNat

def Surroundings.batchSize (env : Surroundings P M) : Nat := toSize env.config.endpointWriterBatchSize

structure EndpointWriter (P M : Type) where
  connected : Bool
  /-- `stream_` is not null -/
  stream : Bool
  messageQueue : List (DeliverPtr P M)
  /-- auxiliary: what `SendMessageBatch` was given -/
  passed : List (DeliverPtr P M)
  /-- auxiliary: the batches that were written, with the entries that went through -/
  wire : List (List (DeliverPtr P M) × MessageBatch)
  /-- auxiliary: an exception has left `Receive` -/
  thrown : Bool

namespace EndpointWriter

/-- The constructor. -/
def new : EndpointWriter P M := ⟨false, false, [], [], [], false⟩

/-- `Initialize`, with whether one of its tries connects. -/
def initializeWriter (connects : Bool) (w : EndpointWriter P M) : EndpointWriter P M :=
  if connects then { w with connected := true, stream := true } else w

def handleDisconnect (w : EndpointWriter P M) : EndpointWriter P M :=
  { w with connected := false, stream := false, messageQueue := [] }

variable [DecidableEq P]

/-- `write` is the answer of `stream_->Write`. -/
def sendMessageBatch (env : Surroundings P M) (write : Bool) (batch : List (DeliverPtr P M)) (w : EndpointWriter P M) :
    EndpointWriter P M :=
  let w := { w with passed := w.passed ++ batch }
  if w.connected = false ∨ batch = [] then w
  else if w.stream = false then w
  else
    match messageBatch env.registry env.pids (batch.map fun r => some r.deliver) with
    -- nothing has been written, and the batch is gone
    | .error _ => { w with thrown := true }
    | .ok message =>
      if 0 < message.envelopes.length then
        if write then { w with wire := w.wire ++ [(batch.filter fun r => goesThrough env.registry r.deliver, message)] }
        else w.handleDisconnect
      else w

def sendBatch (env : Surroundings P M) (write : Bool) (w : EndpointWriter P M) : EndpointWriter P M :=
  let size := min w.messageQueue.length env.batchSize
  let batch := w.messageQueue.take size
  let w := { w with messageQueue := w.messageQueue.drop size }
  if batch = [] then w else w.sendMessageBatch env write batch

/-- `Receive` of a `RemoteDeliver`. -/
def receiveDeliver (env : Surroundings P M) (write : Bool) (deliver : DeliverPtr P M) (w : EndpointWriter P M) : EndpointWriter P M :=
  let w := { w with messageQueue := w.messageQueue ++ [deliver] }
  if env.batchSize ≤ w.messageQueue.length then w.sendBatch env write else w

/-- The messages of a mailbox one after the other, each with the answer of the stream. -/
def receiveAll (env : Surroundings P M) (messages : List (DeliverPtr P M × Bool)) (w : EndpointWriter P M) : EndpointWriter P M :=
  messages.foldl (fun w message => w.receiveDeliver env message.2 message.1) w

/-! ## What is left in the queue -/

theorem sendMessageBatch_passed (env : Surroundings P M) (write : Bool) (batch : List (DeliverPtr P M)) (w : EndpointWriter P M) :
    (w.sendMessageBatch env write batch).passed = w.passed ++ batch := by
  simp only [sendMessageBatch]
  repeat' split
  all_goals rfl

/-- The queue stays as it is, or a disconnect clears it. -/
theorem sendMessageBatch_queue (env : Surroundings P M) (write : Bool) (batch : List (DeliverPtr P M)) (w : EndpointWriter P M) :
    (w.sendMessageBatch env write batch).messageQueue = w.messageQueue ∨
      (w.sendMessageBatch env write batch).messageQueue = [] := by
  simp only [sendMessageBatch]
  repeat' split
  all_goals first | exact .inl rfl | exact .inr rfl

/-- One message: the queue grows until it has the size of a batch, and is then passed on as a whole. -/
theorem receiveDeliver_eq (env : Surroundings P M) (write : Bool) (deliver : DeliverPtr P M) {w : EndpointWriter P M}
    (short : w.messageQueue.length < env.batchSize) :
    let w' := w.receiveDeliver env write deliver
    if w.messageQueue.length + 1 = env.batchSize then
      w'.messageQueue = [] ∧ w'.passed = w.passed ++ (w.messageQueue ++ [deliver])
    else w'.messageQueue = w.messageQueue ++ [deliver] ∧ w'.passed = w.passed := by
  intro w'
  have grown : (w.messageQueue ++ [deliver]).length = w.messageQueue.length + 1 := by simp
  split
  · rename_i full
    have all : min (w.messageQueue ++ [deliver]).length env.batchSize = (w.messageQueue ++ [deliver]).length := by omega
    have sent : w' = EndpointWriter.sendMessageBatch env write (w.messageQueue ++ [deliver]) { w with messageQueue := [] } := by
      simp only [w', receiveDeliver, sendBatch, all, List.take_length, List.drop_length]
      rw [if_pos (by omega), if_neg (by simp)]
    rw [sent]
    refine ⟨?_, sendMessageBatch_passed ..⟩
    rcases sendMessageBatch_queue env write (w.messageQueue ++ [deliver]) { w with messageQueue := [] } with same | cleared
    · exact same
    · exact cleared
  · have kept : w' = { w with messageQueue := w.messageQueue ++ [deliver] } := by
      simp only [w', receiveDeliver]
      rw [if_neg (by omega)]
    rw [kept]
    exact ⟨rfl, rfl⟩

/-- What is accepted is passed on or in the queue, and the queue holds the rest of the division. -/
theorem receiveAll_eq (env : Surroundings P M) (messages : List (DeliverPtr P M × Bool)) {w : EndpointWriter P M}
    (short : w.messageQueue.length < env.batchSize) :
    let w' := w.receiveAll env messages
    w'.passed ++ w'.messageQueue = w.passed ++ w.messageQueue ++ messages.map Prod.fst ∧
      w'.messageQueue.length = (w.messageQueue.length + messages.length) % env.batchSize := by
  induction messages generalizing w with
  | nil => simpa [receiveAll] using (Nat.mod_eq_of_lt short).symm
  | cons message rest ih =>
    have one := receiveDeliver_eq env message.2 message.1 short
    simp only at one
    split at one
    · rename_i full
      have next := ih (w := w.receiveDeliver env message.2 message.1) (by rw [one.1]; exact Nat.lt_of_le_of_lt (Nat.zero_le _) short)
      rw [one.1, one.2] at next
      refine ⟨by simpa [receiveAll] using next.1, ?_⟩
      have size := next.2
      rw [List.length_nil, Nat.zero_add] at size
      rw [List.length_cons, ← Nat.add_assoc, Nat.add_right_comm, full, Nat.add_mod_left]
      exact size
    · rename_i room
      have next := ih (w := w.receiveDeliver env message.2 message.1) (by rw [one.1, List.length_append, List.length_singleton]; omega)
      rw [one.1, one.2] at next
      refine ⟨by simpa [receiveAll] using next.1, ?_⟩
      have size := next.2
      rw [List.length_append, List.length_singleton] at size
      rw [List.length_cons, ← Nat.add_assoc, Nat.add_right_comm]
      exact size

/-- What a writer can have been through. -/
inductive Earlier (P M : Type) where
  | started (connects : Bool)
  | deliver (deliver : DeliverPtr P M) (write : Bool)
  /-- `EndpointTerminatedEvent` or `Stopping` -/
  | disconnect
  /-- the end of `ReceiveLoop` -/
  | connectionLost

def go (env : Surroundings P M) (w : EndpointWriter P M) : Earlier P M → EndpointWriter P M
  | .started connects => w.initializeWriter connects
  | .deliver deliver write => w.receiveDeliver env write deliver
  | .disconnect => w.handleDisconnect
  | .connectionLost => { w with connected := false }

/-- A writer with a past. -/
def reached (env : Surroundings P M) (past : List (Earlier P M)) : EndpointWriter P M := past.foldl (go env) new

/-- **No writer keeps a whole batch.** -/
theorem reached_short (env : Surroundings P M) (positive : 0 < env.batchSize) (past : List (Earlier P M)) :
    (reached env past).messageQueue.length < env.batchSize := by
  have kept : ∀ w : EndpointWriter P M, w.messageQueue.length < env.batchSize →
      (past.foldl (go env) w).messageQueue.length < env.batchSize := by
    induction past with
    | nil => exact fun w short => short
    | cons earlier past ih =>
      intro w short
      refine ih _ ?_
      cases earlier with
      | started connects => cases connects <;> exact short
      | deliver deliver write =>
        have one := (receiveAll_eq env [(deliver, write)] short).2
        exact one ▸ Nat.mod_lt _ positive
      | disconnect => exact positive
      | connectionLost => exact short
  exact kept new positive

/-- **When the queue is empty** at the end of a run: if the messages are a number of whole batches. -/
theorem flushed_iff_dvd (env : Surroundings P M) {b : Nat} (size : env.config.endpointWriterBatchSize = b) (positive : 1 ≤ b)
    (int : b < 2 ^ 31) (past : List (Earlier P M)) (messages : List (DeliverPtr P M × Bool)) :
    let w := reached env past
    ((w.receiveAll env messages).messageQueue = [] ∧
        (w.receiveAll env messages).passed = w.passed ++ w.messageQueue ++ messages.map Prod.fst) ↔
      b ∣ w.messageQueue.length + messages.length := by
  intro w
  have same : env.batchSize = b := by
    unfold Surroundings.batchSize toSize
    rw [size]
    omega
  obtain ⟨accepted, left⟩ := receiveAll_eq env messages (reached_short env (by omega) past)
  rw [same] at left
  constructor
  · rintro ⟨empty, _⟩
    rw [empty, List.length_nil] at left
    exact Nat.dvd_of_mod_eq_zero left.symm
  · intro whole
    rw [Nat.mod_eq_zero_of_dvd whole] at left
    have empty := List.length_eq_zero_iff.1 left
    rw [empty, List.append_nil] at accepted
    exact ⟨empty, accepted⟩

/-- Two messages in batches of two. -/
theorem two_flushed :
    let env : Surroundings Nat Unit := ⟨{ Config.new with endpointWriterBatchSize := 2 }, .new, fun _ => ⟨"b:8080", "1$", 0⟩⟩
    let messages : List (DeliverPtr Nat Unit × Bool) :=
      [(⟨0, ⟨none, (), some 0, none, -1⟩⟩, true), (⟨1, ⟨none, (), some 0, none, -1⟩⟩, true)]
    let w : EndpointWriter Nat Unit := (reached env [.started true]).receiveAll env messages
    w.messageQueue = [] ∧ w.passed = messages.map Prod.fst :=
  (flushed_iff_dvd (P := Nat) (M := Unit) ⟨{ Config.new with endpointWriterBatchSize := 2 }, .new, fun _ => ⟨"b:8080", "1$", 0⟩⟩
    (b := 2) rfl (by decide) (by decide) [.started true]
    [(⟨0, ⟨none, (), some 0, none, -1⟩⟩, true), (⟨1, ⟨none, (), some 0, none, -1⟩⟩, true)]).2 (by decide)

/-- One message to a connected writer with the default batch size stays in its queue. -/
theorem one_stays :
    let env : Surroundings Nat Unit := ⟨.new, .new, fun _ => ⟨"b:8080", "1$", 0⟩⟩
    let w : EndpointWriter Nat Unit := reached env [.started true]
    w.connected = true ∧ w.messageQueue = [] ∧
      (w.receiveAll env [(⟨0, ⟨none, (), some 0, none, -1⟩⟩, true)]).messageQueue ≠ [] := by
  intro env w
  refine ⟨rfl, rfl, ?_⟩
  decide

end EndpointWriter

end Protoactor.Remote
