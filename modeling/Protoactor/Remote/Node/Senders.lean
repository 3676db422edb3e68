import Protoactor.Remote.Batch.Reading
import Protoactor.Remote.Node

/-!
# Senders of other nodes (`src/actor/process_registry.cpp`)

Every PID that a node makes has the address `nonhost`. It goes over the wire as it is, and the
registry of the receiving node takes it for one of its own, so an answer goes to whatever process
has the id there.
-/

namespace Protoactor.Remote
set_option autoImplicit false
open Lib
open Actor (ProcessRegistry localAddress)

variable {P Q Q' M U K : Type}

namespace Node

/-- The PID of an actor or a future of the node. -/
def pid (n : Node Q) (id : String) (requestId : UInt32) : PID := ⟨n.registry.address, id, requestId⟩

/-- The sender that is read is not a process of this node. -/
def Unmistaken (n : Node Q) (batch : MessageBatch) (envelope : MessageEnvelope) : Prop :=
  ∀ sender ref, decodeSender batch envelope = some sender → (n.registry.get (some ⟨ref, sender.address, sender.id⟩)).2 = false

/-- An address that says nothing is looked up here. -/
theorem get_nonhost (n : Node Q) (ref : Nat) (id : String) :
    (n.registry.get (some ⟨ref, localAddress, id⟩)).2 = false ↔ n.registry.find id = none := by
  simp only [ProcessRegistry.get, ne_eq, not_true_eq_false, false_and, if_false, ProcessRegistry.getLocal]
  cases n.registry.find id <;> simp

end Node

variable [DecidableEq P]

/-- Each envelope of a batch has the sender of its entry. -/
theorem decodeSender_messageBatch {registry : SerializerRegistry M} {pids : P → PID} {batch : List (Option (RemoteDeliver P M))}
    {message : MessageBatch} (made : messageBatch registry pids batch = .ok message) :
    List.Forall₂ (fun d envelope => decodeSender message envelope = d.sender.map pids)
      (batch.filterMap fun d => d.filter (goesThrough registry)) message.envelopes := by
  rw [← map_deliver_sent, List.forall₂_map_left_iff, messageBatch_ok made]
  exact List.forall₂_map_right_iff.2 (List.forall₂_same.2 fun e member => decodeSender_envelopeOf pids member)

/-- **Who is mistaken**: a sender of one node is taken for a process of another exactly if the
other has one with its id. -/
theorem unmistaken_iff_absent (deadLetter : Q) (ops : List (Op Q U K)) (deadLetter' : Q') (ops' : List (Op Q' U K))
    (registry : SerializerRegistry M) (pids : P → PID) (batch : List (Option (RemoteDeliver P M))) {message : MessageBatch}
    (made : messageBatch registry pids batch = .ok message) :
    let a := (Node.new deadLetter).run ops
    let b := (Node.new deadLetter').run ops'
    List.Forall₂ (fun d envelope => ∀ s id requestId, d.sender = some s → pids s = a.pid id requestId →
        (b.Unmistaken message envelope ↔ b.registry.find id = none))
      (batch.filterMap fun d => d.filter (goesThrough registry)) message.envelopes := by
  intro a b
  refine (decodeSender_messageBatch made).imp fun d envelope decoded s id requestId from_ is => ?_
  have sender : decodeSender message envelope = some ⟨localAddress, id, requestId⟩ := by
    rw [decoded, from_, Option.map_some, is]
    exact congrArg (fun address => some (PID.mk address id requestId)) (Node.run_address deadLetter ops)
  rw [← Node.get_nonhost b 0 id]
  constructor
  · intro unmistaken
    exact unmistaken _ 0 sender
  · intro absent read ref same
    rw [sender] at same
    cases same
    exact absent

/-- Two nodes with an actor each, under the first id that both draw. -/
def nodeA : Node String :=
  (Node.new "deadletter").run [(.start "a" 8080 [] : Op String UInt8 Unit), .nextID, .add (.actor "actor of a") "1$"]

def nodeB : Node String :=
  (Node.new "deadletter").run [(.start "b" 8080 [] : Op String UInt8 Unit), .nextID, .add (.actor "actor of b") "1$"]

/-- A PID of an actor of `nodeA`, and the target of its message on `nodeB`. -/
def pidsOf (sender : Bool) : PID := if sender then nodeA.pid "1$" 0 else ⟨"b:8080", "1$", 0⟩

/-- A message from the one to the other. -/
theorem unmistaken_iff_absent_byte :
    ∃ message, messageBatch byteRegistry pidsOf [some ⟨none, .user 1, some false, some true, 0⟩] = .ok message ∧
      List.Forall₂ (fun d envelope => ∀ s id requestId, d.sender = some s → pidsOf s = nodeA.pid id requestId →
          (nodeB.Unmistaken message envelope ↔ nodeB.registry.find id = none))
        ([some ⟨none, .user 1, some false, some true, 0⟩].filterMap fun d => d.filter (goesThrough byteRegistry)) message.envelopes :=
  ⟨_, rfl, unmistaken_iff_absent "deadletter" [(.start "a" 8080 [] : Op String UInt8 Unit), .nextID, .add (.actor "actor of a") "1$"]
    "deadletter" [.start "b" 8080 [], .nextID, .add (.actor "actor of b") "1$"] byteRegistry pidsOf _ rfl⟩

/-- What the actor of `nodeA` sends to `nodeB` comes from the actor of `nodeB`. -/
theorem mistaken :
    nodeA.remote.map (fun remote => remote.1.address) = some "a:8080" ∧
    nodeB.remote.map (fun remote => remote.1.address) = some "b:8080" ∧
    ∃ message, messageBatch byteRegistry pidsOf [some ⟨none, .user 1, some false, some true, 0⟩] = .ok message ∧
      ∃ envelope ∈ message.envelopes, ¬ nodeB.Unmistaken message envelope := by
  refine ⟨by decide, by decide, _, rfl, _, List.mem_cons_self, fun unmistaken => ?_⟩
  exact absurd (unmistaken ⟨"nonhost", "1$", 0⟩ 0 (by decide)) (by decide)

end Protoactor.Remote
