import Mathlib.Data.List.Nodup
import Protoactor.Lib.Fifo
import Protoactor.Lib.Machine
import Protoactor.Remote.Batch.Reading
import Protoactor.Remote.EndpointWriter

/-!
# Two nodes over a stream (`endpoint_writer.cpp`, `grpc_service.cpp`, `blocklist.cpp`)

An endpoint writer with its receive thread, and the handlers of the node that it calls. A call
stands for one bidirectional stream of `Remoting::Receive`; its server side is a loop of its own
that goes on for a call that the writer has given up. A label is an atomic step of one of the
threads, a change of a block list, or a break of a connection, which loses the last messages that
are under way in either direction.

A writer gets `Started` once, so it runs `Initialize` once. `CloseClientConn` resets the stream under
a receive thread that may be about to read from it or be waiting in its `Read`; nothing is known of
what such a thread does, so it has no step.
-/

namespace Protoactor.Remote
set_option autoImplicit false
open Lib

/-! ## The block list -/

/-- `BlockList`; the order of the members is that of the `std::unordered_set`. -/
structure BlockList where
  blockedMembers : List String
  nodup : blockedMembers.Nodup

namespace BlockList

def new : BlockList := ⟨[], List.nodup_nil⟩

/-- `Block` of one member. -/
def blockOne (memberId : String) (b : BlockList) : BlockList :=
  ⟨b.blockedMembers.insert memberId, List.Nodup.insert b.nodup⟩

def block (memberIds : List String) (b : BlockList) : BlockList :=
  memberIds.foldl (fun b memberId => b.blockOne memberId) b

def isBlocked (memberId : String) (b : BlockList) : Bool := b.blockedMembers.contains memberId

def len (b : BlockList) : Nat := b.blockedMembers.length

theorem mem_block (memberIds : List String) (b : BlockList) (memberId : String) :
    memberId ∈ (b.block memberIds).blockedMembers ↔ memberId ∈ memberIds ∨ memberId ∈ b.blockedMembers := by
  induction memberIds generalizing b with
  | nil => simp [block]
  | cons first rest ih =>
    rw [block, List.foldl_cons, ← block, ih, blockOne, List.mem_insert_iff, List.mem_cons]
    tauto

theorem isBlocked_iff (memberId : String) (b : BlockList) : b.isBlocked memberId = true ↔ memberId ∈ b.blockedMembers :=
  List.contains_iff_mem

end BlockList

/-! ## Messages of a stream -/

structure ServerConnection where
  memberId : String
  address : String
  blockList : List String
  deriving DecidableEq, Repr

/-- `ConnectRequest`, a `oneof`. -/
inductive ConnectRequest where
  | notSet
  | clientConnection (memberId : String)
  | serverConnection (connection : ServerConnection)
  deriving DecidableEq, Repr

structure ConnectResponse where
  memberId : String
  blocked : Bool
  deriving DecidableEq, Repr

/-- `RemoteMessage`, a `oneof`. -/
inductive RemoteMessage where
  | notSet
  | messageBatch (batch : MessageBatch)
  | connectRequest (request : ConnectRequest)
  | connectResponse (response : ConnectResponse)
  | disconnectRequest
  deriving DecidableEq, Repr

/-- `has_message_batch` with the batch. -/
def RemoteMessage.batch? : RemoteMessage → Option MessageBatch
  | .messageBatch batch => some batch
  | _ => none

/-- The ids of the two systems, and the address of the one that calls. -/
structure Ends where
  memberId : String
  address : String
  serverId : String
  deriving DecidableEq, Repr

/-! ## The service -/

/-- Where the handler of a call is: before a `Read`, or before the `Write` of a response. -/
inductive Handler where
  | reading
  | answering (response : ConnectResponse)
  | returned
  deriving DecidableEq, Repr

structure Call where
  up : Fifo RemoteMessage
  down : Fifo RemoteMessage
  writesDone : Bool
  handler : Handler
  /-- what `HandleMessageBatch` was called with -/
  handled : List MessageBatch

namespace Call

/-- `stub_->Receive`. -/
def opened : Call := ⟨.empty, .empty, false, .reading, []⟩

/-- A `Write` of the client comes through to the stream. -/
def canWrite (c : Call) : Bool := c.handler != .returned && !c.up.cut

def write (message : RemoteMessage) (c : Call) : Call := { c with up := (c.up.push message).2 }

/-- `Read` of the client: `none` while it waits, and then the message unless the stream has ended. -/
def read (c : Call) : Option (Option RemoteMessage × Call) :=
  match c.down.pop with
  | some (message, down) => some (some message, { c with down := down })
  | none => if c.down.cut = true ∨ c.handler = .returned then some (none, c) else none

/-- The connection breaks. -/
def cut (keepUp keepDown : Nat) (c : Call) : Call := { c with up := c.up.sever keepUp, down := c.down.sever keepDown }

/-- The client drops the call; what is under way may still arrive. -/
def cancel (c : Call) : Call := c.cut c.up.inFlight.length c.down.inFlight.length

end Call

/-- `GrpcService::HandleConnectRequest`. -/
def handleConnectRequest (ends : Ends) (blockList : BlockList) : ConnectRequest → ConnectResponse
  | .serverConnection connection => ⟨ends.serverId, blockList.isBlocked connection.memberId⟩
  | .clientConnection _ => ⟨ends.serverId, false⟩
  | .notSet => ⟨"", false⟩

/-- A step of `GrpcService::Receive`; an exception that leaves it ends the call. -/
def serve {M : Type} (registry : SerializerRegistry M) (ends : Ends) (blockList : BlockList) (c : Call) : Option Call :=
  match c.handler with
  | .reading =>
    match c.up.pop with
    | some (message, up) =>
      let c := { c with up := up }
      match message with
      | .messageBatch batch =>
        some { c with handled := c.handled ++ [batch], handler := if escapes registry batch then .returned else .reading }
      | .connectRequest request => some { c with handler := .answering (handleConnectRequest ends blockList request) }
      | .disconnectRequest => some { c with handler := .returned }
      | .connectResponse _ | .notSet => some c
    | none => if c.up.cut = true ∨ c.writesDone = true then some { c with handler := .returned } else none
  | .answering response =>
    let (written, down) := c.down.push (.connectResponse response)
    some { c with down := down, handler := if written then .reading else .returned }
  | .returned => none

/-! ## The writer -/

/-- Where the thread of the writer's mailbox is. -/
inductive Place where
  /-- the test of the loop in `Initialize` -/
  | connecting
  /-- before the `Write` of the request -/
  | opened
  /-- before the `Read` of the response -/
  | requested
  /-- before `connected_.store(true)` -/
  | accepted
  /-- between two messages of the mailbox -/
  | receiving
  /-- before `receive_thread_.join()` -/
  | closing
  /-- an exception has left `Receive`, and the mailbox is not scheduled again -/
  | thrown
  deriving DecidableEq, Repr

/-- Where the receive thread is. -/
inductive LoopPlace where
  /-- the test of the loop -/
  | testing
  /-- before `Read` -/
  | reading
  /-- before `connected_.store(false)` -/
  | leaving
  /-- before the event that is published at the end -/
  | lost
  | done
  deriving DecidableEq, Repr

/-- The receive thread has done its `connected_.store(false)`. -/
def LoopPlace.past : LoopPlace → Bool
  | .lost | .done => true
  | .testing | .reading | .leaving => false

variable {P M : Type}

structure Session (P M : Type) where
  writer : EndpointWriter P M
  place : Place
  retryCount : Nat
  /-- `receive_thread_running_` -/
  running : Bool
  /-- `receive_thread_` -/
  loop : Option LoopPlace
  /-- how often an `EndpointTerminatedEvent` was published -/
  published : Nat
  /-- the calls of the tries that came to nothing -/
  earlier : List Call
  /-- the call behind `stream_` -/
  current : Option Call
  /-- the block list of the writer's node -/
  ownBlockList : BlockList
  /-- the block list of the node that is called -/
  blockList : BlockList

inductive SessionLabel (P M : Type) where
  /-- the channel, the stub and the call, with whether they are there -/
  | opening (succeeds : Bool)
  | request
  | response
  | connect
  /-- the end of `Initialize` without a connection -/
  | giveUp
  /-- `Receive` of a `RemoteDeliver` -/
  | deliver (deliver : DeliverPtr P M)
  /-- `Receive` of `Stopping` or `EndpointTerminatedEvent` -/
  | disconnect
  | join
  /-- a step of the receive thread -/
  | loop
  /-- a step of the handler of a call, the current one or an earlier one -/
  | serve (call : Option Nat)
  | block (memberIds : List String)
  | blockOwn (memberIds : List String)
  | cut (call : Option Nat) (keepUp keepDown : Nat)

namespace Session

/-- A writer before its first message. -/
def start (ownBlockList blockList : BlockList) : Session P M where
  writer := .new
  place := .connecting
  retryCount := 0
  running := false
  loop := none
  published := 0
  earlier := []
  current := none
  ownBlockList := ownBlockList
  blockList := blockList

/-- A step in one of the calls. -/
def onCall (call : Option Nat) (f : Call → Option Call) (s : Session P M) : Option (Session P M) :=
  match call with
  | none => (s.current.bind f).map fun c => { s with current := some c }
  | some i => (s.earlier[i]?.bind f).map fun c => { s with earlier := s.earlier.set i c }

/-- A try has come to nothing. -/
def failed (s : Session P M) : Session P M := { s with place := .connecting, retryCount := s.retryCount + 1 }

/-- What `InitializeInternal` sends. -/
def connectRequest (ends : Ends) (s : Session P M) : RemoteMessage :=
  .connectRequest (.serverConnection ⟨ends.memberId, ends.address, s.ownBlockList.blockedMembers⟩)

/-- `HandleDisconnect` up to the join; the writer's part of it has been done. -/
def close (writer : EndpointWriter P M) (s : Session P M) : Session P M :=
  { s with writer := writer, place := .closing, running := false, current := s.current.map fun c => { c with writesDone := true } }

/-- The receive thread. -/
def loopStep (s : Session P M) : Option (Session P M) :=
  match s.loop with
  | some .testing => some { s with loop := some (if s.running && s.writer.stream then .reading else .leaving) }
  | some .reading =>
    -- the stream has been reset under the `Read`
    if s.writer.stream = false then none
    else
      match s.current.bind Call.read with
      | some (some message, c) =>
        let s := { s with current := some c }
        if message = .disconnectRequest then some { s with loop := some .leaving, published := s.published + 1 }
        else some { s with loop := some .testing }
      | some (none, _) => some { s with loop := some .leaving }
      | none => none
  | some .leaving => some { s with writer := { s.writer with connected := false }, loop := some .lost }
  | some .lost => some { s with published := s.published + 1, loop := some .done }
  | some .done | none => none

variable [DecidableEq P]

/-- `Receive` of a `RemoteDeliver`, with the answer of the stream and what is written to it. -/
def deliverStep (env : Surroundings P M) (deliver : DeliverPtr P M) (s : Session P M) : Session P M :=
  let writer := s.writer.receiveDeliver env (s.current.any Call.canWrite) deliver
  let sent := (writer.wire.drop s.writer.wire.length).map fun entry => RemoteMessage.messageBatch entry.2
  let s' := { s with writer := writer, current := s.current.map fun c => sent.foldl (fun c message => c.write message) c }
  if writer.thrown then { s' with place := .thrown }
  else if s.writer.stream && !writer.stream then s'.close writer
  else s'

def step (env : Surroundings P M) (ends : Ends) (s : Session P M) : SessionLabel P M → Option (Session P M)
  | .opening succeeds =>
    if s.place = .connecting ∧ (s.retryCount : Int) < env.config.maxRetryCount then
      if succeeds then
        some { s with
          place := .opened
          writer := { s.writer with stream := true }
          earlier := s.earlier ++ (s.current.map Call.cancel).toList
          current := some .opened }
      else some s.failed
    else none
  | .request =>
    match s.place, s.current with
    | .opened, some c =>
      if c.canWrite then some { s with place := .requested, current := some (c.write (s.connectRequest ends)) } else some s.failed
    | _, _ => none
  | .response =>
    match s.place, s.current.bind Call.read with
    | .requested, some (some (.connectResponse response), c) =>
      if response.blocked then some { s with current := some c }.failed
      else some { s with current := some c, running := true, loop := some .testing, place := .accepted }
    | .requested, some (_, c) => some { s with current := some c }.failed
    | _, _ => none
  | .connect => if s.place = .accepted then some { s with writer := { s.writer with connected := true }, place := .receiving } else none
  | .giveUp =>
    if s.place = .connecting ∧ env.config.maxRetryCount ≤ (s.retryCount : Int) then some { s with place := .receiving } else none
  | .deliver deliver => if s.place = .receiving then some (s.deliverStep env deliver) else none
  | .disconnect => if s.place = .receiving then some (s.close s.writer.handleDisconnect) else none
  | .join => if s.place = .closing ∧ (s.loop = none ∨ s.loop = some .done) then some { s with place := .receiving } else none
  | .loop => s.loopStep
  | .serve call => s.onCall call (serve env.registry ends s.blockList)
  | .block memberIds => some { s with blockList := s.blockList.block memberIds }
  | .blockOwn memberIds => some { s with ownBlockList := s.ownBlockList.block memberIds }
  | .cut call keepUp keepDown => s.onCall call fun c => some (c.cut keepUp keepDown)

/-- The sessions of a writer, with the block lists that it starts with. -/
abbrev Reached (env : Surroundings P M) (ends : Ends) (ownBlockList blockList : BlockList) (labels : List (SessionLabel P M))
    (s : Session P M) : Prop :=
  Machine.Run (step env ends) Machine.free (start ownBlockList blockList) labels s

end Session

end Protoactor.Remote
