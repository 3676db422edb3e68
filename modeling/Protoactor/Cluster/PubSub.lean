import Mathlib.Data.List.Induction
import Mathlib.Data.List.Nodup
import Protoactor.Actor.Context
import Protoactor.Lib.Interning

/-!
# Publish and subscribe (`src/cluster/pubsub.cpp`, `src/cluster/pubsub_delivery.cpp`)

`PubSub` keeps a list of subscribers for each topic, and `Publish` hands the delivery actor a batch
with a copy of it. The subscribers are compared as pointers: two PIDs are equal here if they are one
object, and `name` is the actor that they name.

`DeliverBatch` sends through `RequestFuture`, which throws before it sends anything. So nobody gets a
message; with a `RequestFuture` that sends, the right ones would get it where each actor is named by
one object (`oneCopyEach_iff`).
-/

namespace Protoactor.Cluster
set_option autoImplicit false
open Lib
open Actor (Ptr Header PID FutureImpl ActorContext)

variable {U K σ C : Type}

structure MessageEnvelope (U K : Type) where
  header : Option Header
  message : Ptr U K
  sender : Option PID
  deriving DecidableEq, Repr

structure DeliverBatchRequest (U K : Type) where
  topic : String
  envelopes : List (Option (MessageEnvelope U K))
  subscribers : List (Option PID)
  deriving DecidableEq, Repr

/-- A topic without an entry has no subscribers. -/
structure PubSub where
  running : Bool
  deliveryActor : Option PID
  subscriptions : String → List PID

namespace PubSub

def new : PubSub := ⟨false, none, fun _ => []⟩

/-- `spawned` is the delivery actor, if its `SpawnNamed` succeeds. -/
def start (spawned : Option PID) (s : PubSub) : PubSub :=
  if s.running then s
  else { s with running := true, deliveryActor := spawned.or s.deliveryActor }

/-- What is sent to the delivery actor. -/
def publish (topic : String) (message : Ptr U K) (s : PubSub) : Option (PID × DeliverBatchRequest U K) :=
  if ¬ s.running then none
  else
    let subscribers := s.subscriptions topic
    if subscribers = [] then none
    else s.deliveryActor.map fun actor => (actor, ⟨topic, [some ⟨none, message, none⟩], subscribers.map some⟩)

/-- `push_back` unless `find` finds it. -/
def subscribe (topic : String) (subscriber : Option PID) (s : PubSub) : PubSub :=
  if ¬ s.running then s
  else
    match subscriber with
    | none => s
    | some pid => { s with subscriptions := fun t => if t = topic then grow (s.subscriptions t) pid else s.subscriptions t }

/-- `erase` of `remove`. -/
def unsubscribe (topic : String) (subscriber : Option PID) (s : PubSub) : PubSub :=
  if ¬ s.running then s
  else
    match subscriber with
    | none => s
    | some pid =>
      { s with subscriptions := fun t => if t = topic then (s.subscriptions t).filter (· ≠ pid) else s.subscriptions t }

end PubSub

/-! ## The delivery actor -/

/-- `RequestFuture`, as far as a batch depends on it. -/
abbrev Requester (U K : Type) := PID → Ptr U K → Except FutureImpl.BadWeakPtr Unit

/-- That of a context, whose future would be registered under `fresh`. -/
def requester (props : Actor.Props U K C) (fresh : PID) (c : ActorContext U K σ C) : Requester U K := fun subscriber message =>
  (c.requestFuture props fresh (some subscriber) message).map fun _ => ()

/-- The inner loop: the messages that are sent, and the exception that ends it. -/
def deliverEnvelopes (request : Requester U K) (subscriber : PID) :
    List (Option (MessageEnvelope U K)) → List (PID × Ptr U K) × Option FutureImpl.BadWeakPtr
  | [] => ([], none)
  | none :: envelopes => deliverEnvelopes request subscriber envelopes
  | some envelope :: envelopes =>
    if envelope.message.isNull then deliverEnvelopes request subscriber envelopes
    else
      match request subscriber envelope.message with
      | .error err => ([], some err)
      | .ok () =>
        let later := deliverEnvelopes request subscriber envelopes
        ((subscriber, envelope.message) :: later.1, later.2)

/-- `DeliverBatch`. -/
def deliverBatch (request : Requester U K) (envelopes : List (Option (MessageEnvelope U K))) :
    List (Option PID) → List (PID × Ptr U K) × Option FutureImpl.BadWeakPtr
  | [] => ([], none)
  | none :: subscribers => deliverBatch request envelopes subscribers
  | some subscriber :: subscribers =>
    let sent := deliverEnvelopes request subscriber envelopes
    match sent.2 with
    | some err => (sent.1, some err)
    | none =>
      let later := deliverBatch request envelopes subscribers
      (sent.1 ++ later.1, later.2)

namespace PubSub

/-! ## Histories -/

inductive Call (U K : Type) where
  | subscribe (topic : String) (subscriber : Option PID)
  | unsubscribe (topic : String) (subscriber : Option PID)
  | publish (topic : String) (message : Ptr U K)
  deriving DecidableEq, Repr

def step (s : PubSub) : Call U K → PubSub
  | .subscribe topic subscriber => s.subscribe topic subscriber
  | .unsubscribe topic subscriber => s.unsubscribe topic subscriber
  | .publish _ _ => s

/-- Call after call, since the delivery actor was spawned. -/
def run (actor : PID) (calls : List (Call U K)) : PubSub := calls.foldl step (new.start (some actor))

/-- Whom a call subscribes to the topic or unsubscribes from it. -/
def about (topic : String) : Call U K → Option (PID × Bool)
  | .subscribe t (some pid) => if t = topic then some (pid, true) else none
  | .unsubscribe t (some pid) => if t = topic then some (pid, false) else none
  | _ => none

/-- The last call about one of these PIDs. -/
def lastAbout (topic : String) (these : PID → Bool) (calls : List (Call U K)) : Option (PID × Bool) :=
  calls.reverse.findSome? fun call => (about topic call).filter fun about => these about.1

/-- The last call about the actor for this topic was `Subscribe`. -/
def Subscribed (calls : List (Call U K)) (topic : String) (name : String × String) : Prop :=
  ∃ pid, lastAbout topic (·.name = name) calls = some (pid, true)

/-- What the delivery actor sends because of a `Publish`. -/
def delivered (request : Requester U K) (topic : String) (message : Ptr U K) (s : PubSub) : List (PID × Ptr U K) :=
  match (s.publish topic message : Option (PID × DeliverBatchRequest U K)) with
  | none => []
  | some (_, batch) => (deliverBatch request batch.envelopes batch.subscribers).1

/-- **One copy for each subscribed actor**: a `Publish` after these calls sends the message once to each of them
and to nobody else. -/
structure OneCopyEach (request : Requester U K) (s : PubSub) (calls : List (Call U K)) (topic : String) (message : Ptr U K) :
    Prop where
  once : ((delivered request topic message s).map fun sent => sent.1.name).Nodup
  names : ∀ name, (∃ sent ∈ delivered request topic message s, sent.1.name = name) ↔ Subscribed calls topic name
  same : ∀ sent ∈ delivered request topic message s, sent.2 = message

/-- An object that was last subscribed is that of the last call about its actor. -/
def NamedByOne (calls : List (Call U K)) (topic : String) : Prop :=
  ∀ pid, lastAbout topic (· = pid) calls = some (pid, true) → lastAbout topic (·.name = pid.name) calls = some (pid, true)

/-! ## The table -/

theorem lastAbout_concat (topic : String) (these : PID → Bool) (calls : List (Call U K)) (call : Call U K) :
    lastAbout topic these (calls ++ [call]) =
      ((about topic call).filter fun about => these about.1).or (lastAbout topic these calls) := by
  unfold lastAbout
  rw [List.reverse_append, List.reverse_singleton, List.singleton_append, List.findSome?_cons]
  cases (about topic call).filter fun about => these about.1 <;> rfl

/-- The last call about some PIDs is about one of them. -/
theorem lastAbout_these {topic : String} {these : PID → Bool} {calls : List (Call U K)} {last : PID × Bool}
    (found : lastAbout topic these calls = some last) : these last.1 = true := by
  obtain ⟨call, _, kept⟩ := List.exists_of_findSome?_eq_some found
  exact (Option.filter_eq_some_iff.1 kept).2

/-- The last call about some PIDs is the last one about fewer of them that has it. -/
theorem lastAbout_fewer {topic : String} {these fewer : PID → Bool} (sub : ∀ pid, fewer pid = true → these pid = true)
    {calls : List (Call U K)} {last : PID × Bool} (found : lastAbout topic these calls = some last)
    (own : fewer last.1 = true) : lastAbout topic fewer calls = some last := by
  induction calls using List.reverseRecOn with
  | nil => cases found
  | append_singleton calls call ih =>
    rw [lastAbout_concat] at found ⊢
    cases names : about topic call with
    | none =>
      rw [names] at found
      exact ih found
    | some about =>
      rw [names] at found
      simp only [Option.filter_some] at found ⊢
      by_cases there : these about.1 = true
      · rw [if_pos there] at found
        cases found
        rw [if_pos own]
        rfl
      · rw [if_neg there] at found
        rw [if_neg fun inside => there (sub _ inside)]
        exact ih found

theorem run_concat (actor : PID) (calls : List (Call U K)) (call : Call U K) :
    run actor (calls ++ [call]) = (run actor calls).step call := by
  unfold run
  rw [List.foldl_append]
  rfl

theorem step_running (s : PubSub) (call : Call U K) :
    (s.step call).running = s.running ∧ (s.step call).deliveryActor = s.deliveryActor := by
  cases call with
  | subscribe topic subscriber =>
    simp only [step, subscribe]
    repeat' split
    all_goals exact ⟨rfl, rfl⟩
  | unsubscribe topic subscriber =>
    simp only [step, unsubscribe]
    repeat' split
    all_goals exact ⟨rfl, rfl⟩
  | publish topic message => exact ⟨rfl, rfl⟩

theorem run_running (actor : PID) (calls : List (Call U K)) :
    (run actor calls).running = true ∧ (run actor calls).deliveryActor = some actor := by
  induction calls using List.reverseRecOn with
  | nil => exact ⟨rfl, rfl⟩
  | append_singleton calls call ih =>
    rw [run_concat]
    obtain ⟨running, delivery⟩ := step_running (run actor calls) call
    exact ⟨running.trans ih.1, delivery.trans ih.2⟩

/-- What a call does to the subscribers of a topic. -/
theorem subscriptions_step {s : PubSub} (running : s.running = true) (topic : String) (call : Call U K) :
    (s.step call).subscriptions topic =
      match about topic call with
      | none => s.subscriptions topic
      | some (pid, true) => grow (s.subscriptions topic) pid
      | some (pid, false) => (s.subscriptions topic).filter (· ≠ pid) := by
  cases call with
  | subscribe t subscriber =>
    cases subscriber with
    | none => simp [step, subscribe, about]
    | some pid => by_cases own : t = topic <;> simp [step, subscribe, about, running, own, eq_comm]
  | unsubscribe t subscriber =>
    cases subscriber with
    | none => simp [step, unsubscribe, about]
    | some pid => by_cases own : t = topic <;> simp [step, unsubscribe, about, running, own, eq_comm]
  | publish t message => rfl

/-- **The table**: each object once, and just those that were last subscribed. -/
theorem subscriptions_run (actor : PID) (calls : List (Call U K)) (topic : String) :
    ((run actor calls).subscriptions topic).Nodup ∧
      ∀ pid, pid ∈ (run actor calls).subscriptions topic ↔ lastAbout topic (· = pid) calls = some (pid, true) := by
  induction calls using List.reverseRecOn with
  | nil => exact ⟨List.nodup_nil, fun pid => by simp [run, new, start, lastAbout]⟩
  | append_singleton calls call ih =>
    obtain ⟨nodup, members⟩ := ih
    rw [run_concat, subscriptions_step (run_running actor calls).1]
    simp only [lastAbout_concat]
    cases about topic call with
    | none => exact ⟨nodup, members⟩
    | some about =>
      obtain ⟨object, subscribes⟩ := about
      cases subscribes with
      | true =>
        refine ⟨nodup_grow nodup object, fun pid => ?_⟩
        simp only [mem_grow, members]
        by_cases own : object = pid
        · simp [own]
        · simp [own, Ne.symm own]
      | false =>
        refine ⟨nodup.filter _, fun pid => ?_⟩
        simp only [List.mem_filter, members]
        by_cases own : object = pid
        · simp [own]
        · simp [own, Ne.symm own]

/-! ## A batch -/

/-- A `RequestFuture` that throws ends the batch before anything is sent. -/
theorem deliverBatch_throws {request : Requester U K} (throws : ∀ pid message, request pid message = .error .thrown)
    {message : Ptr U K} (value : message.isNull = false) (subscribers : List PID) :
    (deliverBatch request [some ⟨none, message, none⟩] (subscribers.map some)).1 = [] := by
  cases subscribers with
  | nil => rfl
  | cons pid rest => simp [deliverBatch, deliverEnvelopes, value, throws]

/-- With one that sends, each subscriber is sent the message. -/
theorem deliverBatch_sends {message : Ptr U K} (value : message.isNull = false) (subscribers : List PID) :
    deliverBatch (fun _ _ => .ok ()) [some ⟨none, message, none⟩] (subscribers.map some) =
      (subscribers.map fun pid => (pid, message), none) := by
  induction subscribers with
  | nil => rfl
  | cons pid rest ih => simp [deliverBatch, deliverEnvelopes, value, ih]

theorem delivered_throws {request : Requester U K} (throws : ∀ pid message, request pid message = .error .thrown)
    (topic : String) {message : Ptr U K} (value : message.isNull = false) (s : PubSub) : delivered request topic message s = [] := by
  unfold delivered
  cases batch : (s.publish topic message : Option (PID × DeliverBatchRequest U K)) with
  | none => rfl
  | some sent =>
    simp only [publish] at batch
    split at batch
    · cases batch
    · split at batch
      · cases batch
      · obtain ⟨actor, _, rfl⟩ := Option.map_eq_some_iff.1 batch
        exact deliverBatch_throws throws value _

theorem delivered_sends {s : PubSub} {actor : PID} (running : s.running = true) (spawned : s.deliveryActor = some actor)
    (topic : String) {message : Ptr U K} (value : message.isNull = false) :
    delivered (fun _ _ => .ok ()) topic message s = (s.subscriptions topic).map fun pid => (pid, message) := by
  unfold delivered publish
  by_cases nobody : s.subscriptions topic = []
  · simp [running, nobody]
  · simp [running, nobody, spawned, deliverBatch_sends value]

/-! ## Results -/

/-- Nothing is sent: that is right if nobody is subscribed. -/
theorem oneCopyEach_nothing {request : Requester U K} {s : PubSub} {calls : List (Call U K)} {topic : String} {message : Ptr U K}
    (nothing : delivered request topic message s = []) :
    OneCopyEach request s calls topic message ↔ ∀ name, ¬ Subscribed calls topic name := by
  constructor
  · intro copies name subscribed
    obtain ⟨sent, member, _⟩ := (copies.names name).2 subscribed
    rw [nothing] at member
    cases member
  · intro nobody
    constructor
    case once => simp [nothing]
    case names => exact fun name => by simp [nothing, nobody name]
    case same => simp [nothing]

section Table

variable {request : Requester U K} {s : PubSub} {calls : List (Call U K)} {topic : String} {message : Ptr U K}

/-- The object of the last call about an actor is in the table where that call was `Subscribe`. -/
theorem subscribed_of_last (members : ∀ pid, pid ∈ s.subscriptions topic ↔ lastAbout topic (· = pid) calls = some (pid, true))
    {pid : PID} {name : String × String} (last : lastAbout topic (·.name = name) calls = some (pid, true)) :
    pid ∈ s.subscriptions topic ∧ pid.name = name := by
  have named : pid.name = name := by simpa using lastAbout_these last
  refine ⟨(members pid).2 (lastAbout_fewer (fun other same => ?_) last (decide_eq_true rfl)), named⟩
  simp only [decide_eq_true_eq] at same ⊢
  rw [same, named]

theorem namedByOne_of_copies
    (sends : delivered request topic message s = (s.subscriptions topic).map fun pid => (pid, message))
    (members : ∀ pid, pid ∈ s.subscriptions topic ↔ lastAbout topic (· = pid) calls = some (pid, true))
    (copies : OneCopyEach request s calls topic message) : NamedByOne calls topic := by
  intro pid last
  have inside := (members pid).2 last
  obtain ⟨other, lastOther⟩ := (copies.names pid.name).1 ⟨(pid, message), by rw [sends]; exact List.mem_map_of_mem inside, rfl⟩
  obtain ⟨there, named⟩ := subscribed_of_last members lastOther
  have once := copies.once
  rw [sends, List.map_map] at once
  have same : other = pid := List.inj_on_of_nodup_map once there inside named
  rwa [same] at lastOther

/-- The message is sent to each object in the table: that is right if each actor is named by one. -/
theorem copies_of_namedByOne
    (sends : delivered request topic message s = (s.subscriptions topic).map fun pid => (pid, message))
    (nodup : (s.subscriptions topic).Nodup)
    (members : ∀ pid, pid ∈ s.subscriptions topic ↔ lastAbout topic (· = pid) calls = some (pid, true))
    (one : NamedByOne calls topic) : OneCopyEach request s calls topic message := by
  constructor
  case once =>
    rw [sends, List.map_map]
    refine nodup.map_on fun pid inside other there same => ?_
    have last := one pid ((members pid).1 inside)
    have lastOther := one other ((members other).1 there)
    rw [show other.name = pid.name from same.symm, last] at lastOther
    exact congrArg Prod.fst (Option.some.inj lastOther)
  case names =>
    intro name
    rw [sends]
    constructor
    · rintro ⟨sent, member, rfl⟩
      obtain ⟨pid, inside, rfl⟩ := List.mem_map.1 member
      exact ⟨pid, one pid ((members pid).1 inside)⟩
    · rintro ⟨pid, last⟩
      obtain ⟨inside, named⟩ := subscribed_of_last members last
      exact ⟨(pid, message), List.mem_map_of_mem inside, named⟩
  case same =>
    rw [sends]
    intro sent member
    obtain ⟨pid, _, rfl⟩ := List.mem_map.1 member
    rfl

end Table

/-- **Exactly then**: each subscribed actor is sent one copy if and only if nobody is subscribed; with a
`RequestFuture` that sends it would be if and only if the objects that were last subscribed are those of the
last calls about their actors. -/
theorem oneCopyEach_iff (actor : PID) (calls : List (Call U K)) (topic : String) {message : Ptr U K}
    (value : message.isNull = false) (props : Actor.Props U K C) (fresh : PID) (c : ActorContext U K σ C) :
    (OneCopyEach (requester props fresh c) (run actor calls) calls topic message ↔ ∀ name, ¬ Subscribed calls topic name) ∧
    (OneCopyEach (fun _ _ => .ok ()) (run actor calls) calls topic message ↔ NamedByOne calls topic) := by
  obtain ⟨running, spawned⟩ := run_running actor calls
  obtain ⟨nodup, members⟩ := subscriptions_run actor calls topic
  constructor
  · exact oneCopyEach_nothing (delivered_throws (fun _ _ => rfl) topic value _)
  · have sends := delivered_sends running spawned topic value
    exact ⟨namedByOne_of_copies sends members, copies_of_namedByOne sends nodup members⟩

theorem oneCopyEach_iff_single :
    let calls : List (Call Nat Nat) := [.subscribe "news" (some ⟨1, "here:1", "reader"⟩)]
    (Ptr.user 7 : Ptr Nat Nat).isNull = false ∧
      ¬ OneCopyEach (requester .plain ⟨9, "here:1", "future9"⟩ (ActorContext.new none none () true : ActorContext Nat Nat Unit Unit))
          (run ⟨0, "here:1", "$pubsub-delivery"⟩ calls) calls "news" (.user 7) ∧
      OneCopyEach (fun _ _ => .ok ()) (run ⟨0, "here:1", "$pubsub-delivery"⟩ calls) calls "news" (.user 7) := by
  intro calls
  have value : (Ptr.user 7 : Ptr Nat Nat).isNull = false := rfl
  have both := oneCopyEach_iff ⟨0, "here:1", "$pubsub-delivery"⟩ calls "news" value .plain ⟨9, "here:1", "future9"⟩
    (ActorContext.new none none () true : ActorContext Nat Nat Unit Unit)
  refine ⟨value, fun copies => both.1.1 copies ("here:1", "reader") ⟨⟨1, "here:1", "reader"⟩, rfl⟩, both.2.2 fun pid last => ?_⟩
  have named : ⟨1, "here:1", "reader"⟩ = pid := by simpa [calls, lastAbout, about] using last
  subst named
  rfl

/-- One actor, subscribed through two objects that name it: it is sent nothing, and with a `RequestFuture`
that sends it would be sent two copies. -/
theorem not_oneCopyEach_twice :
    let calls : List (Call Nat Nat) :=
      [.subscribe "news" (some ⟨1, "here:1", "reader"⟩), .subscribe "news" (some ⟨2, "here:1", "reader"⟩)]
    ¬ OneCopyEach (requester .plain ⟨9, "here:1", "future9"⟩ (ActorContext.new none none () true : ActorContext Nat Nat Unit Unit))
        (run ⟨0, "here:1", "$pubsub-delivery"⟩ calls) calls "news" (.user 7) ∧
      ¬ OneCopyEach (fun _ _ => .ok ()) (run ⟨0, "here:1", "$pubsub-delivery"⟩ calls) calls "news" (.user 7) := by
  intro calls
  constructor
  · intro copies
    obtain ⟨sent, member, _⟩ := (copies.names ("here:1", "reader")).2 ⟨⟨2, "here:1", "reader"⟩, rfl⟩
    exact absurd member List.not_mem_nil
  · exact fun copies => absurd copies.once (by decide)

end PubSub

end Protoactor.Cluster
