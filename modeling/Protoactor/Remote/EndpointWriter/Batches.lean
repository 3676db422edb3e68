import Protoactor.Remote.EndpointWriter

/-!
# The batches of the endpoint writer (`src/remote/endpoint_writer.cpp`)

Batch by batch: what `SendBatch` passes to `SendMessageBatch` while messages come in one after the other.
The queue is tested after each of them, so it has exactly the size of a batch when the test succeeds, and
all of it is taken.
-/

namespace Protoactor.Remote.EndpointWriter
set_option autoImplicit false

variable {P M : Type}

/-- The `batch` of `SendBatch`, if it is passed on. -/
def batch (env : Surroundings P M) (w : EndpointWriter P M) : Option (List (DeliverPtr P M)) :=
  let batch := w.messageQueue.take (min w.messageQueue.length env.batchSize)
  if batch = [] then none else some batch

/-- What `Receive` of a `RemoteDeliver` passes to `SendMessageBatch`. -/
def sends (env : Surroundings P M) (deliver : DeliverPtr P M) (w : EndpointWriter P M) : Option (List (DeliverPtr P M)) :=
  let w := { w with messageQueue := w.messageQueue ++ [deliver] }
  if env.batchSize ≤ w.messageQueue.length then w.batch env else none

variable [DecidableEq P]

/-- The batches of the messages of a mailbox, and the writer after them. -/
def receiveBatches (env : Surroundings P M) (messages : List (DeliverPtr P M × Bool)) (w : EndpointWriter P M) :
    List (List (DeliverPtr P M)) × EndpointWriter P M :=
  match messages with
  | [] => ([], w)
  | (deliver, write) :: rest =>
    let later := receiveBatches env rest (w.receiveDeliver env write deliver)
    ((w.sends env deliver).toList ++ later.1, later.2)

theorem receiveBatches_snd (env : Surroundings P M) (messages : List (DeliverPtr P M × Bool)) (w : EndpointWriter P M) :
    (w.receiveBatches env messages).2 = w.receiveAll env messages := by
  induction messages generalizing w with
  | nil => rfl
  | cons message rest ih => exact ih (w.receiveDeliver env message.2 message.1)

/-- One message: the queue grows, or all of it is the batch. -/
theorem sends_cases (env : Surroundings P M) (write : Bool) (deliver : DeliverPtr P M) {w : EndpointWriter P M}
    (short : w.messageQueue.length < env.batchSize) :
    (w.messageQueue.length + 1 < env.batchSize ∧ w.sends env deliver = none ∧
        (w.receiveDeliver env write deliver).messageQueue = w.messageQueue ++ [deliver] ∧
        (w.receiveDeliver env write deliver).passed = w.passed) ∨
      (w.messageQueue.length + 1 = env.batchSize ∧ w.sends env deliver = some (w.messageQueue ++ [deliver]) ∧
        (w.receiveDeliver env write deliver).messageQueue = [] ∧
        (w.receiveDeliver env write deliver).passed = w.passed ++ (w.messageQueue ++ [deliver])) := by
  have one := receiveDeliver_eq env write deliver short
  have grown : (w.messageQueue ++ [deliver]).length = w.messageQueue.length + 1 := by
    rw [List.length_append, List.length_singleton]
  by_cases full : w.messageQueue.length + 1 = env.batchSize
  · rw [if_pos full] at one
    refine .inr ⟨full, ?_, one⟩
    unfold sends batch
    dsimp only
    rw [if_pos (by omega), List.take_of_length_le (by omega), if_neg (by simp)]
  · rw [if_neg full] at one
    refine .inl ⟨by omega, ?_, one⟩
    unfold sends
    dsimp only
    rw [if_neg (by omega)]

/-- What holds after a run of a writer with a short queue. -/
theorem receiveBatches_spec (env : Surroundings P M) (messages : List (DeliverPtr P M × Bool)) {w : EndpointWriter P M}
    (short : w.messageQueue.length < env.batchSize) :
    let r := w.receiveBatches env messages
    r.1.flatten ++ r.2.messageQueue = w.messageQueue ++ messages.map Prod.fst ∧ r.2.passed = w.passed ++ r.1.flatten ∧
      (∀ batch ∈ r.1, batch.length = env.batchSize) ∧ r.2.messageQueue.length < env.batchSize := by
  induction messages generalizing w with
  | nil => exact ⟨(List.append_nil _).symm, (List.append_nil _).symm, nofun, short⟩
  | cons message rest ih =>
    obtain ⟨deliver, write⟩ := message
    rcases sends_cases env write deliver short with ⟨room, none, queue, passed⟩ | ⟨full, all, queue, passed⟩
    · have next : (w.receiveDeliver env write deliver).messageQueue.length < env.batchSize := by
        rw [queue, List.length_append, List.length_singleton]
        exact room
      have later := ih next
      rw [queue, passed, List.append_assoc] at later
      simp only [receiveBatches, none, Option.toList_none, List.nil_append]
      exact later
    · have next : (w.receiveDeliver env write deliver).messageQueue.length < env.batchSize := by
        rw [queue]
        exact Nat.lt_of_le_of_lt (Nat.zero_le _) short
      obtain ⟨kept, passed', sizes, left⟩ := ih next
      rw [queue, List.nil_append] at kept
      rw [passed, List.append_assoc] at passed'
      simp only [receiveBatches, all, Option.toList_some, List.singleton_append, List.flatten_cons, List.forall_mem_cons]
      refine ⟨?_, passed', ⟨?_, sizes⟩, left⟩
      · rw [List.append_assoc, kept, List.map_cons, List.append_assoc, List.singleton_append]
      · rw [List.length_append, List.length_singleton]
        exact full

/-- **The writer batches exactly**: all that it is given is in its batches and its queue, in order. -/
theorem batches_exact (env : Surroundings P M) {b : Nat} (size : env.config.endpointWriterBatchSize = b) (positive : 1 ≤ b)
    (int : b < 2 ^ 31) (past : List (Earlier P M)) (messages : List (DeliverPtr P M × Bool)) :
    let w := reached env past
    let r := w.receiveBatches env messages
    r.2 = w.receiveAll env messages ∧ r.2.passed = w.passed ++ r.1.flatten ∧
      r.1.flatten ++ r.2.messageQueue = w.messageQueue ++ messages.map Prod.fst ∧
      (∀ batch ∈ r.1, batch.length = b) ∧ r.2.messageQueue.length < b := by
  have same : env.batchSize = b := by
    unfold Surroundings.batchSize toSize
    rw [size]
    omega
  obtain ⟨kept, passed, sizes, left⟩ := receiveBatches_spec env messages (reached_short env (by omega) past)
  rw [same] at sizes left
  exact ⟨receiveBatches_snd env messages _, passed, kept, sizes, left⟩

/-- Batches of two. -/
def pairs : Surroundings Nat Unit := ⟨{ Config.new with endpointWriterBatchSize := 2 }, .new, fun _ => ⟨"b:8080", "1$", 0⟩⟩

def numbered (ref : Nat) : DeliverPtr Nat Unit × Bool := (⟨ref, ⟨none, (), some 0, none, -1⟩⟩, true)

theorem batches_exact_three :
    let r := (reached pairs [.started true]).receiveBatches pairs [numbered 0, numbered 1, numbered 2]
    r.1 = [[(numbered 0).1, (numbered 1).1]] ∧ r.2.messageQueue = [(numbered 2).1] ∧
      r.1.flatten ++ r.2.messageQueue = [(numbered 0).1, (numbered 1).1, (numbered 2).1] := by
  intro r
  refine ⟨by decide, by decide, ?_⟩
  exact (batches_exact pairs (b := 2) rfl (by decide) (by decide) [.started true] [numbered 0, numbered 1, numbered 2]).2.2.1

end Protoactor.Remote.EndpointWriter
