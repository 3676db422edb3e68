import Protoactor.Actor.Mailbox.Order
import Protoactor.Lib.Simulation
import Protoactor.Remote.Handshake.Delivery

/-!
# What an actor receives (`endpoint_reader.cpp`, `actor_process.cpp`, `mailbox.cpp`)

The writer on one node with its stream, and the mailbox of one actor on the other. The thread that
serves the call posts what a batch has for the actor, one message after the other, and reads on when
these posts have returned; others post to the mailbox at the same time, also null pointers. A message
of the mailbox says where it comes from, which no step reads.

What is delivered to other actors is not followed.
-/

namespace Protoactor.Remote
set_option autoImplicit false
open Lib
open Actor (Ptr Kind PostCall Worker Handlers)

/-! ## The batches of a call -/

namespace Session

variable {P U K : Type} {s s' : Session P (Ptr U K)}

/-- A step of a handler handles one more batch at most. -/
theorem serve_handled {M : Type} {registry : SerializerRegistry M} {ends : Ends} {blockList : BlockList} {c c' : Call}
    (h : serve registry ends blockList c = some c') : c.handled <+: c'.handled := by
  unfold serve at h
  repeat' split at h
  all_goals cases h
  all_goals first | exact List.prefix_refl _ | exact List.prefix_append _ _

/-- **What was handled stays handled.** -/
theorem handled_step [DecidableEq P] {env : Surroundings P (Ptr U K)} {ends : Ends} {blocked : BlockList} (inv : Inv ends blocked s)
    {label : SessionLabel P (Ptr U K)} (h : step env ends s label = some s') : s.handled <+: s'.handled := by
  unfold handled
  cases step_calls h with
  | opened here _ current =>
    -- no batch was written on the call of the last try
    have waiting := inv.here
    rw [here] at waiting
    rw [current]
    cases is : s.current with
    | none => exact List.nil_prefix
    | some c =>
      have short := (inv.current c is).handled_short
      rw [waiting.quiet c is, List.prefix_nil] at short
      rw [Option.map_some, Option.getD_some, short]
      exact List.nil_prefix
  | went _ current =>
    generalize s.current = before, s'.current = after at current ⊢
    cases current with
    | none => exact List.prefix_refl _
    | some goes =>
      simp only [Option.map_some, Option.getD_some]
      cases goes with
      | client handled _ => exact handled ▸ List.prefix_refl _
      | served _ served => exact serve_handled served

end Session

/-! ## An actor on the other node -/

namespace EndToEnd

/-- A message of the mailbox: from the stream, or from someone else. -/
abbrev Item (U K O : Type) := Delivery U K ⊕ O

/-- The actor on the node that is called: its id, its node, which stays the same, and its handlers. -/
structure Receiver (Q : Type) where
  id : String
  host : Host Q
  handlers : Handlers

structure State (P U K O : Type) where
  session : Session P (Ptr U K)
  mailbox : Actor.Interleaving.State (Item U K O)
  /-- what was posted to the actor, of what arrived -/
  handed : List (Delivery U K)

inductive Label (P U K O : Type) where
  | session (l : SessionLabel P (Ptr U K))
  | mailbox (l : Actor.Interleaving.Label (Item U K O))
  /-- the thread that serves the call posts the next message for the actor -/
  | hand

variable {P Q U K O : Type}

/-- The queue of the actor that a delivery is posted to. -/
def queueOf (r : Receiver Q) : Delivery U K → Option Kind
  | .user target _ _ _ => if target.id = r.id then some .user else none
  | .system target _ => if target.id = r.id then some .system else none

def fromStream : Item U K O → Option (Delivery U K)
  | .inl d => some d
  | .inr _ => none

/-- A post of the thread that serves the call, which has not returned. -/
def posting (c : PostCall (Item U K O)) : Bool := (c.message.bind fromStream).isSome && c.pc != .returned

/-- A step of the handler of the current call. -/
def serves : SessionLabel P (Ptr U K) → Bool
  | .serve none => true
  | _ => false

/-- A post is of a message from someone else. -/
def foreign : Actor.Interleaving.Label (Item U K O) → Bool
  | .post _ message => (message.bind fromStream).isNone
  | _ => true

/-- What has arrived for the actor. -/
def mine (env : Surroundings P (Ptr U K)) (r : Receiver Q) (s : Session P (Ptr U K)) : List (Delivery U K) :=
  (s.arrived env r.host).filter fun d => (queueOf r d).isSome

variable [DecidableEq P]

def step (env : Surroundings P (Ptr U K)) (ends : Ends) (r : Receiver Q) : Machine (State P U K O) (Label P U K O) := fun s l =>
  match l with
  | .session l =>
    if serves l ∧ (s.mailbox.posts.any posting ∨ s.handed.length < (mine env r s.session).length) then none
    else (s.session.step env ends l).map fun session => { s with session := session }
  | .mailbox l =>
    if foreign l then (Actor.Interleaving.step r.handlers s.mailbox l).map fun mailbox => { s with mailbox := mailbox } else none
  | .hand =>
    if s.mailbox.posts.any posting then none
    else
      match (mine env r s.session)[s.handed.length]? with
      | none => none
      | some d =>
        match queueOf r d with
        | none => none
        | some k =>
          (Actor.Interleaving.step r.handlers s.mailbox (.post k (some (.inl d)))).map fun mailbox =>
            { s with mailbox := mailbox, handed := s.handed ++ [d] }

def start (ownBlockList blockList : BlockList) : State P U K O := ⟨.start ownBlockList blockList, Actor.Interleaving.init, []⟩

/-- What the writer has been given, by the labels of a run. -/
def given (labels : List (Label P U K O)) : List (DeliverPtr P (Ptr U K)) :=
  Session.given (labels.filterMap fun
    | .session l => some l
    | _ => none)

/-! ## What was posted -/

/-- The message of a post of the stream that is not in its queue yet. -/
def owed (k : Kind) (c : PostCall (Item U K O)) : List (Delivery U K) :=
  if c.pc = .push ∧ c.kind = k then (c.message.bind fromStream).toList else []

/-- The messages of the stream that were pushed to a queue. -/
def pushed (k : Kind) (m : Actor.Interleaving.State (Item U K O)) : List (Delivery U K) :=
  (m.box.lane k).pushed.filterMap (·.bind fromStream)

/-- One post of the stream at a time, and what was handed on is pushed in this order. -/
structure Posted (r : Receiver Q) (handed : List (Delivery U K)) (m : Actor.Interleaving.State (Item U K O)) : Prop where
  pushed : ∀ k, handed.filter (fun d => queueOf r d = some k) = pushed k m ++ m.posts.flatMap (owed k)
  one : m.posts.countP posting ≤ 1

variable {r : Receiver Q} {handed : List (Delivery U K)} {m m' : Actor.Interleaving.State (Item U K O)}

omit [DecidableEq P] in
theorem posting_of_owed {k : Kind} {c : PostCall (Item U K O)} (some_ : owed k c ≠ []) : posting c = true := by
  unfold owed at some_
  split at some_
  · rename_i at_
    unfold posting
    cases from_ : c.message.bind fromStream with
    | none => simp [from_] at some_
    | some d => simp [at_.1]
  · exact absurd rfl some_

/-- A post goes on: what it owed is pushed now. -/
theorem Posted.goes (posted : Posted r handed m) {pre post : List (PostCall (Item U K O))} {c c' : PostCall (Item U K O)}
    (here : m.posts = pre ++ c :: post) (there : m'.posts = pre ++ c' :: post) (message : c'.message = c.message)
    (busy : c.pc ≠ .returned) (late : c'.pc ≠ .push) (more : ∀ k, EndToEnd.pushed k m' = EndToEnd.pushed k m ++ owed k c) :
    Posted r handed m' := by
  have one := posted.one
  rw [here, List.countP_append, List.countP_cons] at one
  refine ⟨fun k => ?_, ?_⟩
  · have nothing : owed k c' = [] := if_neg fun at_ => late at_.1
    rw [posted.pushed k, more, here, there]
    simp only [List.flatMap_append, List.flatMap_cons, nothing, List.nil_append]
    cases some_ : owed k c with
    | nil => simp
    | cons d rest =>
      -- no other post owes anything
      have own : posting c = true := posting_of_owed (by rw [some_]; exact List.cons_ne_nil d rest)
      rw [if_pos own] at one
      have quiet : ∀ l : List (PostCall (Item U K O)), l.countP posting = 0 → l.flatMap (owed k) = [] := by
        intro l none_
        refine List.flatMap_eq_nil_iff.2 fun c member => ?_
        by_contra some_
        exact absurd (posting_of_owed some_) (List.countP_eq_zero.1 none_ c member)
      rw [quiet pre (by omega), quiet post (by omega)]
      simp
  · rw [there, List.countP_append, List.countP_cons]
    have less : posting c' = true → posting c = true := by
      unfold posting
      rw [message]
      simp only [Bool.and_eq_true, bne_iff_ne, ne_eq]
      exact fun both => ⟨both.1, busy⟩
    cases own : posting c' with
    | false =>
      simp only [Bool.false_eq_true, if_false]
      omega
    | true =>
      rw [less own] at one
      exact one

/-- **A step of the mailbox** that is no post of the stream. -/
theorem posted_mailbox {l : Actor.Interleaving.Label (Item U K O)} (posted : Posted r handed m) (other : foreign l = true)
    (moved : Actor.Interleaving.step r.handlers m l = some m') : Posted r handed m' := by
  cases Actor.Interleaving.step_cases moved with
  | post k message =>
    have none_ : message.bind fromStream = none := by simpa [foreign] using other
    refine ⟨fun j => ?_, ?_⟩
    · rw [posted.pushed j]
      simp [pushed, owed, none_]
    · simpa [posting, none_] using posted.one
  | start | lose | raise => exact ⟨posted.pushed, posted.one⟩
  | worker _ here act =>
    refine ⟨fun j => ?_, posted.one⟩
    rw [posted.pushed j]
    unfold pushed
    rw [Worker.step_pushed act j]
  | dispatch here pc =>
    refine posted.goes here rfl rfl (by simp [pc]) (by simp) fun k => ?_
    simp [pushed, owed, pc]
  | poster here act =>
    refine posted.goes here rfl (PostCall.step_invoked act .user).1 ?_ (PostCall.step_pushed act .user).1 fun k => ?_
    · intro ended
      simp [PostCall.step, ended] at act
    · unfold pushed
      rw [(PostCall.step_pushed act k).2, List.filterMap_append]
      unfold owed
      split
      · cases from_ : Option.bind _ fromStream <;> simp [from_]
      · simp

/-- **A post of the stream**, where none is under way. -/
theorem Posted.hand (posted : Posted r handed m) (none_ : m.posts.any posting = false) {d : Delivery U K} {k : Kind}
    (queue : queueOf r d = some k) :
    Posted r (handed ++ [d]) { m with posts := m.posts ++ [⟨k, some (.inl d), .push⟩] } := by
  have quiet : m.posts.countP posting = 0 := by
    rw [List.countP_eq_zero]
    simpa using none_
  have nothing : ∀ j, m.posts.flatMap (owed j) = [] := by
    intro j
    refine List.flatMap_eq_nil_iff.2 fun c member => ?_
    by_contra some_
    exact absurd (posting_of_owed some_) (List.countP_eq_zero.1 quiet c member)
  refine ⟨fun j => ?_, ?_⟩
  · rw [List.filter_append, posted.pushed j, List.flatMap_append, nothing]
    unfold EndToEnd.pushed owed
    by_cases same : k = j
    · simp [queue, same, fromStream]
    · simp [queue, same]
  · rw [List.countP_append, quiet]
    simp [posting, fromStream]

/-! ## Runs -/

variable {env : Surroundings P (Ptr U K)} {ends : Ends} {ownBlockList blockList : BlockList} {s s' : State P U K O}

structure Inv (env : Surroundings P (Ptr U K)) (ends : Ends) (blockList : BlockList) (r : Receiver Q) (s : State P U K O) : Prop where
  session : Session.Inv ends blockList s.session
  handed : s.handed <+: mine env r s.session
  posted : Posted r s.handed s.mailbox

omit [DecidableEq P] in
theorem inv_start : Inv env ends blockList r (start ownBlockList blockList : State P U K O) :=
  ⟨Session.inv_start ends ownBlockList blockList, List.nil_prefix, ⟨fun k => by cases k <;> rfl, Nat.zero_le 1⟩⟩

theorem keeps_inv : Machine.Keeps (step env ends r) Machine.free (Inv (O := O) env ends blockList r) := by
  intro s l s' inv _ moved
  cases l with
  | session l =>
    simp only [step] at moved
    split at moved
    · cases moved
    · obtain ⟨session, taken, rfl⟩ := Option.map_eq_some_iff.1 moved
      have inv' := Session.inv_step s.session l session inv.session True.intro taken
      refine ⟨inv', inv.handed.trans ?_, inv.posted⟩
      have more := Session.handled_step inv.session taken
      unfold mine
      rw [inv.session.arrived_eq, inv'.arrived_eq]
      exact (more.flatMap _).filter _
  | mailbox l =>
    simp only [step] at moved
    split at moved
    · rename_i other
      obtain ⟨mailbox, taken, rfl⟩ := Option.map_eq_some_iff.1 moved
      exact ⟨inv.session, inv.handed, posted_mailbox inv.posted other taken⟩
    · cases moved
  | hand =>
    simp only [step] at moved
    split at moved
    · cases moved
    · rename_i none_
      split at moved
      · cases moved
      · rename_i d next
        split at moved
        · cases moved
        · rename_i k queue
          cases moved
          refine ⟨inv.session, ?_, inv.posted.hand (by simpa using none_) queue⟩
          obtain ⟨rest, whole⟩ := inv.handed
          rw [← whole, List.getElem?_append_right (Nat.le_refl _), Nat.sub_self] at next
          obtain ⟨rest', rfl⟩ := List.head?_eq_some_iff.1 (List.head?_eq_getElem? ▸ next)
          exact ⟨rest', by rw [← whole, List.append_assoc]; rfl⟩

/-- What the steps of the session are. -/
theorem session_run {ok : State P U K O → Label P U K O → Prop} {labels : List (Label P U K O)}
    (run : Machine.Run (step env ends r) ok s labels s') :
    Machine.Run (Session.step env ends) Machine.free s.session
      (labels.filterMap fun
        | .session l => some l
        | _ => none) s'.session := by
  induction run with
  | nil => exact .nil _
  | @cons s u s' l labels moved _ _ ih =>
    cases l with
    | session l =>
      simp only [step] at moved
      split at moved
      · cases moved
      · obtain ⟨session, taken, rfl⟩ := Option.map_eq_some_iff.1 moved
        exact .cons taken True.intro ih
    | mailbox l =>
      simp only [step] at moved
      split at moved
      · obtain ⟨mailbox, -, rfl⟩ := Option.map_eq_some_iff.1 moved
        exact ih
      · cases moved
    | hand =>
      simp only [step] at moved
      repeat' split at moved
      all_goals cases moved
      exact ih

/-- What the steps of the mailbox are. -/
theorem mailbox_run {labels : List (Label P U K O)} (run : Machine.Run (step env ends r) Machine.free s labels s') :
    ∃ ls, Machine.Run (Actor.Interleaving.step r.handlers) Machine.free s.mailbox ls s'.mailbox := by
  have keep : Machine.Keeps (step env ends r) Machine.free fun _ : State P U K O => True := fun _ _ _ _ _ _ => True.intro
  refine run.project keep State.mailbox ?_ True.intro
  intro s l s' _ _ moved
  cases l with
  | session l =>
    simp only [step] at moved
    split at moved
    · cases moved
    · obtain ⟨session, -, rfl⟩ := Option.map_eq_some_iff.1 moved
      exact ⟨[], .nil _⟩
  | mailbox l =>
    simp only [step] at moved
    split at moved
    · obtain ⟨mailbox, taken, rfl⟩ := Option.map_eq_some_iff.1 moved
      exact ⟨[l], .cons taken trivial (.nil _)⟩
    · cases moved
  | hand =>
    simp only [step] at moved
    split at moved
    · cases moved
    · split at moved
      · cases moved
      · rename_i d next
        split at moved
        · cases moved
        · rename_i k queue
          obtain ⟨mailbox, taken, rfl⟩ := Option.map_eq_some_iff.1 moved
          exact ⟨[.post k (some (.inl d))], .cons taken trivial (.nil _)⟩

/-- **End to end.** Of what came over the stream, the messages that the actor has been invoked with are, for either queue, in order
and once each those that come first of what the writer was given for it: wherever the connection breaks, whatever is thrown, whoever
else posts, and however the threads of both nodes take turns. -/
theorem received_run {labels : List (Label P U K O)}
    (run : Machine.Run (step env ends r) Machine.free (start ownBlockList blockList) labels s) (k : Kind) :
    (s.mailbox.box.lane k).invoked.filterMap fromStream <+:
      ((given labels).flatMap fun d => arrivals env.registry r.host env.pids d.deliver).filter fun d => queueOf r d = some k := by
  have inv : Inv env ends blockList r s := Machine.Run.keeps keeps_inv run inv_start
  -- the mailbox invokes what was pushed first, the nulls left out
  have invoked : (s.mailbox.box.lane k).invoked.filterMap fromStream <+: EndToEnd.pushed k s.mailbox := by
    obtain ⟨ls, mail⟩ := mailbox_run run
    have ordered := Machine.Run.keeps Actor.Interleaving.inOrder_keeps mail
      ⟨Actor.Interleaving.exclusive_init, Actor.Interleaving.inOrder_init⟩
    have first := ((ordered.2 k).invoked).filterMap fromStream
    rwa [Actor.Lane.enqueued, List.filterMap_filterMap] at first
  -- what was pushed comes first of what was handed on
  have pushed : EndToEnd.pushed k s.mailbox <+: s.handed.filter fun d => queueOf r d = some k := by
    rw [inv.posted.pushed k]
    exact List.prefix_append ..
  -- what was handed on comes first of what has arrived
  have handed : (s.handed.filter fun d => queueOf r d = some k) <+:
      (s.session.arrived env r.host).filter fun d => queueOf r d = some k := by
    have first := inv.handed.filter fun d => queueOf r d = some k
    unfold mine at first
    rw [List.filter_filter] at first
    have same : (fun d : Delivery U K => decide (queueOf r d = some k) && (queueOf r d).isSome) = fun d => decide (queueOf r d = some k) := by
      funext d
      by_cases own : queueOf r d = some k <;> simp [own]
    rwa [same] at first
  -- what has arrived was given to the writer before
  have arrived := (Session.arrived_run (session_run run) r.host).filter fun d => queueOf r d = some k
  exact ((invoked.trans pushed).trans handed).trans arrived

/-- The actor to which the message of one byte goes. -/
def byteReceiver : Receiver String := ⟨"1$", byteHost, ⟨300⟩⟩

/-- From the handshake to the call of `InvokeUserMessage`. -/
def oneMessage : List (Label Nat UInt8 Unit Unit) :=
  (Session.answered ++ [SessionLabel.connect, .deliver Session.oneByte, .serve none]).map .session ++ [.hand] ++
    List.replicate 4 (.mailbox (.poster 0)) ++ [.mailbox .start] ++ List.replicate 5 (.mailbox (.worker 0))

theorem received_run_byte : ∃ s, Machine.Run (step Session.onceEach Session.pair byteReceiver) Machine.free (start .new .new) oneMessage s ∧
    (s.mailbox.box.lane .user).invoked.filterMap fromStream = [rootSend ⟨"nonhost", "1$", 0⟩ (.message (.user 7))] ∧
    (s.mailbox.box.lane .user).invoked.filterMap fromStream <+:
      ((given oneMessage).flatMap fun d => arrivals Session.onceEach.registry byteHost Session.onceEach.pids d.deliver).filter
        fun d => queueOf byteReceiver d = some .user := by
  have arrives : (Machine.exec (step Session.onceEach Session.pair byteReceiver) oneMessage
      (start .new .new)).any (fun s => decide ((s.mailbox.box.lane .user).invoked.filterMap fromStream =
        [rootSend ⟨"nonhost", "1$", 0⟩ (.message (.user 7))])) = true := by
    decide
  obtain ⟨s, run, there⟩ := Machine.run_of_any arrives
  exact ⟨s, run, of_decide_eq_true there, received_run run .user⟩

end EndToEnd

end Protoactor.Remote
