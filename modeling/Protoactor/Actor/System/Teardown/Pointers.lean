import Protoactor.Actor.System.Teardown

/-!
# Pointers that are gone

A system that has not been shut down has its components, one that has been has none, so
a call goes wrong exactly where it comes after the shutdown and touches a component. Sends are
harmless as a rule: what the registry does not find is a null then, which nobody follows.
-/

namespace Protoactor.Actor.Teardown
set_option autoImplicit false
open Lib EventStream

variable {U K M P : Type} {s t : State U K M P} {l : Label U K M P} {ls : List (Label U K M P)}

/-- The process behind the PID is a `DeadLetterProcess`, which somebody has kept and registered. -/
def leadsToDeadLetter (s : State U K M P) (pid : PID) : Prop := (s.registry.get (some pid)).1 = some .deadLetter

/-- The calls that follow a pointer to a component. -/
def touches (s : State U K M P) : Label U K M P → Prop
  | .shutdown | .add _ _ | .remove _ | .registerAddressResolver _ => False
  | .pidSend _ pid _ => leadsToDeadLetter s pid
  | .send pid _ | .stop pid => ∃ target, pid = some target ∧ leadsToDeadLetter s target
  | .respond messageOrEnvelope _ => ∀ sender, (unwrapEnvelope messageOrEnvelope).2.2 = some sender → leadsToDeadLetter s sender
  | .localSend _ pid _ => s.registry.find pid.id = some (some .deadLetter)
  | .deadLetterSend _ _ _ | .newDeadLetterProcess | .subscribeToTopologyEvents => True
  | .startManager k => (s.managers k).stopped = false
  | .stopManager k => (s.managers k).stopped = false ∧ (s.managers k).endpointSub ≠ none
  | .newMemberList k => s.memberLists k = none
  | .deleteMemberList k => ∃ list, s.memberLists k = some list ∧ list.gossipSub ≠ none
  | .updateTopology k topology => s.memberLists k ≠ none ∧ topology ≠ none

/-- The system is not shut down yet, or the call touches none of its components. -/
def careful (s : State U K M P) (l : Label U K M P) : Prop := s.stopped = true → ¬ touches s l

attribute [local simp] touches

/-! ## The components of a system -/

structure Inv (s : State U K M P) : Prop where
  stream : s.eventStream.isSome = !s.stopped
  home : s.registry.deadLetter = if s.stopped then none else some .deadLetter

/-- What a call that touches a component, or does not, leaves behind. -/
structure Calls (touched : Prop) (s s' : State U K M P) : Prop where
  stopped : s'.stopped = s.stopped
  stream : s'.eventStream.isSome = s.eventStream.isSome
  home : s'.registry.deadLetter = s.registry.deadLetter
  fault : s'.fault = none ↔ (s.stopped = true → ¬ touched)

theorem Calls.inv {touched : Prop} {s' : State U K M P} (calls : Calls touched s s') (inv : Inv s) : Inv s' where
  stream := by rw [calls.stream, calls.stopped, inv.stream]
  home := by rw [calls.home, calls.stopped, inv.home]

theorem Calls.congr {touched touched' : Prop} {s' : State U K M P} (same : touched ↔ touched') (calls : Calls touched s s') :
    Calls touched' s s' := ⟨calls.stopped, calls.stream, calls.home, by rw [← same, calls.fault]⟩

/-- A call that leaves the components alone. -/
theorem calls_idle {touched : Prop} (sound : s.fault = none) (idle : ¬ touched) : Calls touched s s :=
  ⟨rfl, rfl, rfl, fun _ _ => idle, fun _ => sound⟩

section Streams

variable (inv : Inv s) (sound : s.fault = none)

include inv sound

theorem calls_stream {touched : Prop} (touch : touched)
    (f : EventStream (Event U K M) Subscriber → EventStream (Event U K M) Subscriber) : Calls touched s (s.onStream f) := by
  have stream := inv.stream
  unfold State.onStream
  split
  · rename_i gone
    have stopped : s.stopped = true := by simpa [gone] using stream
    refine ⟨rfl, rfl, rfl, ?_⟩
    simp [stopped, touch]
  · rename_i present
    have running : s.stopped = false := by simpa [present] using stream
    refine ⟨rfl, ?_, rfl, ?_⟩
    · simp [present]
    · simp [sound, running]

theorem calls_publish {touched : Prop} (touch : touched) (evt : Event U K M) : Calls touched s (s.publish evt) := by
  have calls := calls_stream inv sound touch id
  exact ⟨calls.stopped, calls.stream, calls.home, calls.fault⟩

theorem calls_deadLetterSend {touched : Prop} (touch : touched) (kind : Kind) (pid : Option PID) (message : Ptr U K) :
    Calls touched s (s.deadLetterSend kind pid message) := by
  cases kind with
  | user => exact calls_publish inv sound touch _
  | system => exact calls_publish inv sound touch _

theorem calls_deliver (process : Option (Recipient P)) (kind : Kind) (pid : Option PID) (message : Ptr U K) :
    Calls (process = some .deadLetter) s (s.deliver process kind pid message) := by
  unfold State.deliver
  split
  · exact calls_deadLetterSend inv sound rfl kind pid message
  · exact calls_idle sound nofun
  · exact calls_idle sound nofun

theorem calls_pidSend (kind : Kind) (pid : PID) (message : Ptr U K) :
    Calls (leadsToDeadLetter s pid) s (s.pidSend kind pid message) := calls_deliver inv sound _ kind _ message

theorem calls_send (pid : Option PID) (message : Ptr U K) : Calls (touches s (.send pid message)) s (s.send pid message) := by
  cases pid with
  | none => exact calls_idle sound nofun
  | some target => exact (calls_pidSend inv sound .user target _).congr (by simp)

theorem calls_stop (pid : Option PID) : Calls (touches s (.stop pid)) s (s.stop pid) := by
  cases pid with
  | none => exact calls_idle sound nofun
  | some target => exact (calls_pidSend inv sound .system target _).congr (by simp)

theorem calls_respond (messageOrEnvelope response : Ptr U K) :
    Calls (touches s (.respond messageOrEnvelope response)) s (s.respond messageOrEnvelope response) := by
  unfold State.respond
  rcases here : unwrapEnvelope messageOrEnvelope with ⟨header, message, target⟩
  cases target with
  | some sender => exact (calls_send inv sound (some sender) response).congr (by simp [here])
  | none =>
    have home := inv.home
    cases stopped : s.stopped with
    | true =>
      rw [stopped, if_pos rfl] at home
      simp only [home]
      refine ⟨stopped.symm, rfl, rfl, ?_⟩
      simp [stopped, here]
    | false =>
      rw [stopped, if_neg Bool.false_ne_true] at home
      simp only [home]
      exact (calls_deliver inv sound (some .deadLetter) .user none response).congr (by simp [here])

theorem calls_localSend (kind : Kind) (pid : PID) (message : Ptr U K) :
    Calls (touches s (.localSend kind pid message)) s (s.localSend kind pid message) := by
  unfold State.localSend ProcessRegistry.getLocal
  cases here : s.registry.find pid.id with
  | none => exact calls_idle sound (by simp [here])
  | some process => exact (calls_deliver inv sound process kind (some pid) message).congr (by simp [here])

theorem calls_startManager (k : Nat) : Calls (touches s (.startManager k)) s (s.startManager k) := by
  unfold State.startManager
  split
  · rename_i stopped
    exact calls_idle sound (by simp [stopped])
  · rename_i running
    have touch : touches s (.startManager k : Label U K M P) := by simpa using running
    obtain ⟨same, stream, home, fault⟩ := calls_stream (s := s.setManager k ⟨false, s.nextSubscription⟩)
      ⟨inv.stream, inv.home⟩ sound touch (·.subscribeAs .endpointManager)
    exact ⟨same, stream, home, fault⟩

theorem calls_stopManager (k : Nat) : Calls (touches s (.stopManager k)) s (s.stopManager k) := by
  unfold State.stopManager
  split
  · rename_i stopped
    exact calls_idle sound (by simp [stopped])
  · rename_i running
    split
    · rename_i nothing
      have idle : Calls (touches s (.stopManager k)) s s := calls_idle sound (by simp [nothing])
      exact ⟨rfl, rfl, rfl, idle.fault⟩
    · rename_i sub subscribed
      have touch : touches s (.stopManager k : Label U K M P) := by simpa [subscribed] using running
      obtain ⟨same, stream, home, fault⟩ := calls_stream (s := s.setManager k ⟨true, none⟩)
        ⟨inv.stream, inv.home⟩ sound touch (·.unsubscribe (some sub))
      exact ⟨same, stream, home, fault⟩

theorem calls_newMemberList (k : Nat) : Calls (touches s (.newMemberList k)) s (s.newMemberList k) := by
  unfold State.newMemberList
  split
  · rename_i list here
    exact calls_idle sound (by simp [here])
  · rename_i free
    have touch : touches s (.newMemberList k : Label U K M P) := free
    obtain ⟨same, stream, home, fault⟩ := calls_stream (s := s.setMemberList k (some ⟨[], s.nextSubscription⟩))
      ⟨inv.stream, inv.home⟩ sound touch (·.subscribeAs .memberList)
    exact ⟨same, stream, home, fault⟩

theorem calls_deleteMemberList (k : Nat) : Calls (touches s (.deleteMemberList k)) s (s.deleteMemberList k) := by
  unfold State.deleteMemberList
  split
  · rename_i free
    exact calls_idle sound (by simp [free])
  · rename_i list here
    split
    · rename_i nothing
      have idle : Calls (touches s (.deleteMemberList k)) s s := calls_idle sound (by simp [here, nothing])
      exact ⟨rfl, rfl, rfl, idle.fault⟩
    · rename_i sub subscribed
      have touch : touches s (.deleteMemberList k : Label U K M P) := ⟨list, here, by simp [subscribed]⟩
      obtain ⟨same, stream, home, fault⟩ := calls_stream (s := s.setMemberList k none) ⟨inv.stream, inv.home⟩ sound touch
        (·.unsubscribe (some sub))
      exact ⟨same, stream, home, fault⟩

theorem calls_updateTopology (k : Nat) (topology : Option (ClusterTopology M)) :
    Calls (touches s (.updateTopology k topology)) s (s.updateTopology k topology) := by
  unfold State.updateTopology
  split
  · rename_i list topology here
    have touch : touches s (.updateTopology k (some topology) : Label U K M P) := ⟨by simp [here], nofun⟩
    obtain ⟨same, stream, home, fault⟩ := calls_publish
      (s := s.setMemberList k (some { list with members := topology.members })) ⟨inv.stream, inv.home⟩ sound touch
      (.clusterTopology topology)
    exact ⟨same, stream, home, fault⟩
  · rename_i absent
    refine calls_idle sound fun ⟨present, given⟩ => ?_
    obtain ⟨list, here⟩ := Option.ne_none_iff_exists'.1 present
    obtain ⟨topology', rfl⟩ := Option.ne_none_iff_exists'.1 given
    exact absent list topology' here rfl

theorem calls_newDeadLetterProcess :
    Calls (touches s .newDeadLetterProcess) s s.newDeadLetterProcess := by
  have home : ((s.registry.add (some .deadLetter) "deadletter").2).deadLetter = s.registry.deadLetter :=
    ProcessRegistry.add_deadLetter ..
  have touch : touches s (.newDeadLetterProcess : Label U K M P) := True.intro
  obtain ⟨same, stream, home', fault⟩ := calls_stream
    (s := { s with registry := (s.registry.add (some .deadLetter) "deadletter").2 })
    ⟨inv.stream, home.trans inv.home⟩ sound touch
    fun stream => (stream.subscribeAs .deadLetterResponse).subscribeAs .deadLetterWatch
  exact ⟨same, stream, home'.trans home, fault⟩

end Streams

/-! ## Runs -/

theorem inv_shutdown : Inv s.shutdown := ⟨rfl, rfl⟩

/-- Every call but the shutdown. -/
theorem calls_perform (inv : Inv s) (sound : s.fault = none) (other : l ≠ .shutdown) : Calls (touches s l) s (s.perform l) := by
  cases l with
  | shutdown => exact absurd rfl other
  | add process id => exact ⟨rfl, rfl, ProcessRegistry.add_deadLetter .., fun _ _ => nofun, fun _ => sound⟩
  | remove pid =>
    refine ⟨rfl, rfl, ?_, fun _ _ => nofun, fun _ => sound⟩
    cases pid <;> rfl
  | registerAddressResolver resolver => exact ⟨rfl, rfl, rfl, fun _ _ => nofun, fun _ => sound⟩
  | pidSend kind pid message => exact calls_pidSend inv sound kind pid message
  | send pid message => exact calls_send inv sound pid message
  | stop pid => exact calls_stop inv sound pid
  | respond messageOrEnvelope response => exact calls_respond inv sound messageOrEnvelope response
  | localSend kind pid message => exact calls_localSend inv sound kind pid message
  | deadLetterSend kind pid message => exact calls_deadLetterSend inv sound True.intro kind pid message
  | newDeadLetterProcess => exact calls_newDeadLetterProcess inv sound
  | subscribeToTopologyEvents => exact calls_stream inv sound True.intro _
  | startManager k => exact calls_startManager inv sound k
  | stopManager k => exact calls_stopManager inv sound k
  | newMemberList k => exact calls_newMemberList inv sound k
  | deleteMemberList k => exact calls_deleteMemberList inv sound k
  | updateTopology k topology => exact calls_updateTopology inv sound k topology

/-- **One call**: it goes well exactly if it is careful, and the components stay as they should be. -/
theorem perform_spec (inv : Inv s) (sound : s.fault = none) :
    Inv (s.perform l) ∧ ((s.perform l).fault = none ↔ careful s l) := by
  by_cases shut : l = .shutdown
  · subst shut
    exact ⟨inv_shutdown, fun _ _ => nofun, fun _ => sound⟩
  · have calls := calls_perform inv sound shut
    exact ⟨calls.inv inv, calls.fault⟩

theorem inv_start : Inv (start : State U K M P) := ⟨rfl, rfl⟩

theorem fault_iff (inv : Inv s) (sound : s.fault = none) (run : Machine.Run step Machine.free s ls t) :
    t.fault = none ↔ Machine.Run step careful s ls t := by
  induction run with
  | nil => exact ⟨fun _ => .nil _, fun _ => sound⟩
  | @cons s s' t l ls moved _ rest ih =>
    have moved' : some (s.perform l) = some s' := by rw [← moved, step, sound]
    cases moved'
    obtain ⟨inv', spec⟩ := perform_spec (l := l) inv sound
    constructor
    · intro fine
      cases fault : (s.perform l).fault with
      | none => exact .cons moved (spec.1 fault) ((ih inv' fault).1 fine)
      | some component =>
        cases rest with
        | nil =>
          rw [fault] at fine
          cases fine
        | cons moved' =>
          rw [step, fault] at moved'
          cases moved'
    · rintro (_ | ⟨moved', allowed, rest'⟩)
      rw [moved] at moved'
      cases moved'
      exact (ih inv' (spec.2 allowed)).2 rest'

/-- **No component is used that is gone**, in exactly the runs whose calls are careful. -/
theorem no_null_use (run : Machine.Run step Machine.free (start : State U K M P) ls t) :
    t.fault = none ↔ Machine.Run step careful (start : State U K M P) ls t := fault_iff inv_start rfl run

/-- A member list that goes before the system, and a message that comes after it. -/
def orderly : List (Label Unit Unit Unit Unit) :=
  [.newMemberList 0, .deleteMemberList 0, .shutdown, .send (some ⟨0, "nonhost", "a"⟩) (.user ())]

theorem no_null_use_orderly : ∃ t, Machine.Run step careful start orderly t := by
  have run : Machine.Run step Machine.free start orderly _ := Machine.free_of_exec rfl
  exact ⟨_, (no_null_use run).1 rfl⟩

/-- An actor that responds to nobody while it drains its mailbox. -/
theorem respond_after_shutdown : ∃ t : State Unit Unit Unit Unit,
    Machine.Run step Machine.free start [.shutdown, .respond (.user ()) (.user ())] t ∧ t.fault = some .deadLetter :=
  ⟨_, Machine.free_of_exec rfl, rfl⟩

end Protoactor.Actor.Teardown
