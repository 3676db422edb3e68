import Protoactor.Actor.Registry

/-!
# Dead letters (`src/actor/deadletter.cpp`, `src/actor/pid.cpp`)

A message sent to a PID that the registry does not know goes to the `DeadLetterProcess`,
which publishes an event. Its own two subscribers answer: one sends a `DeadLetterResponse`
to the sender, the other reads the message as a `Watch` and sends a `Terminated` to the
watcher it finds. Each answer is a send of its own, made before the next handler is called;
the calls under way are the stack of a `Chain`.

Nothing checks that the message is a `Watch`. What is found there is decided by the layout of
the object: the `watcher` is the pointer after the table of virtual functions.
-/

namespace Protoactor.Actor
set_option autoImplicit false

variable {U K P : Type}

/-- What a `std::shared_ptr<Process>` points to. -/
inductive Recipient (P : Type) where
  | deadLetter
  | process (p : P)
  deriving DecidableEq, Repr

/-- The registry of a system that has not been shut down: `GetDeadLetter()` is the
`DeadLetterProcess`. -/
structure Directory (P : Type) where
  registry : ProcessRegistry (Recipient P)
  home : registry.deadLetter = .deadLetter

namespace DeadLetterProcess

/-- What an object has in the place of a `watcher`. -/
inductive Slot where
  | pid (watcher : Option PID)
  /-- something else, or the end of the object: reading it as a `shared_ptr<PID>` is undefined -/
  | wild
  deriving DecidableEq, Repr

/-- `std::static_pointer_cast<Watch>(message)->watcher`; `fields` answers for the classes of the user. -/
def watcher (fields : U → Slot) : Ptr U K → Slot
  | .watch watcher | .unwatch watcher => .pid watcher
  | .terminated who _ | .failure who _ _ _ => .pid who
  | .user payload => fields payload
  -- after `magic` comes the pointer to the header
  | .envelope none _ _ => .pid none
  -- the second half of `target`, which is null with the first
  | .deadLetterResponse none => .pid none
  | _ => .wild

/-- `DeadLetterEvent`. -/
structure Event (U K : Type) where
  pid : Option PID
  message : Ptr U K
  sender : Option PID
  deriving DecidableEq, Repr

/-- `PID::SendUserMessage` and `PID::SendSystemMessage`. -/
inductive Send (U K : Type) where
  | user (pid : PID) (message : Ptr U K)
  | system (pid : PID) (message : Ptr U K)
  deriving DecidableEq, Repr

namespace Send

def pid : Send U K → PID
  | .user pid _ | .system pid _ => pid

/-- The event that `SendUserMessage` or `SendSystemMessage` of the `DeadLetterProcess` publishes. -/
def event : Send U K → Event U K
  | .user pid message =>
    let (_, msg, sender) := unwrapEnvelope message
    ⟨some pid, msg, sender⟩
  | .system pid message => ⟨some pid, message, none⟩

end Send

/-- The send of the first subscriber: `Root` wraps the response. -/
def response (e : Event U K) (sender : PID) : Send U K := .user sender (.envelope none (.deadLetterResponse e.pid) none)

/-- The send of the second one. -/
def terminated (e : Event U K) (watcher : PID) : Send U K := .system watcher (.terminated e.pid .stopped)

/-- A call under way; `n` is the number of the event. -/
inductive Frame (U K : Type) where
  | send (s : Send U K)
  | respond (n : Nat) (e : Event U K)
  | terminate (n : Nat) (e : Event U K)
  deriving DecidableEq, Repr

/-- The calls set off by one send, the innermost first. The last three fields are auxiliary:
the events published, the answers to each, and what has reached other processes. -/
structure Chain (U K P : Type) where
  stack : List (Frame U K)
  /-- something else has been read as a `shared_ptr<PID>` -/
  undefined : Bool
  events : List (Event U K)
  sent : List (Nat × Send U K)
  delivered : List (P × Send U K)
  deriving DecidableEq, Repr

def start (s : Send U K) : Chain U K P := ⟨[.send s], false, [], [], []⟩

def step (d : Directory P) (fields : U → Slot) (c : Chain U K P) : Option (Chain U K P) :=
  if c.undefined then none
  else match c.stack with
  | [] => none
  | .send s :: rest =>
    -- `PID::Ref`
    match (d.registry.get (some s.pid)).1 with
    | .process p => some { c with stack := rest, delivered := c.delivered ++ [(p, s)] }
    | .deadLetter => some { c with
        stack := .respond c.events.length s.event :: .terminate c.events.length s.event :: rest
        events := c.events ++ [s.event] }
  | .respond n e :: rest =>
    match e.sender with
    | none => some { c with stack := rest }
    | some sender => some { c with stack := .send (response e sender) :: rest, sent := c.sent ++ [(n, response e sender)] }
  | .terminate n e :: rest =>
    if e.message.isNull then some { c with stack := rest }
    else match watcher fields e.message with
    | .wild => some { c with stack := rest, undefined := true }
    | .pid none => some { c with stack := rest }
    | .pid (some w) => some { c with stack := .send (terminated e w) :: rest, sent := c.sent ++ [(n, terminated e w)] }

/-- The watcher, where the message is a `Watch`. -/
def watched (e : Event U K) : Option PID :=
  match e.message with
  | .watch watcher => watcher
  | _ => none

/-- What an event should be answered with. -/
def replies (e : Event U K) : List (Send U K) :=
  e.sender.toList.map (response e) ++ (watched e).toList.map (terminated e)

end DeadLetterProcess

end Protoactor.Actor
