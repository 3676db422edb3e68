import Protoactor.Cluster.Messages

/-!
# The member list (`src/cluster/member_list.cpp`)

`MemberList` takes over the members of each topology it is sent, and does not look at the sequence
number of the update that brings it. So the last update wins, and that is the newest one only if the
order of the delivery makes it so (`newestWins_iff`).
-/

namespace Protoactor.Cluster
set_option autoImplicit false

structure MemberList where
  members : List Member
  deriving DecidableEq, Repr

namespace MemberList

def getMember (memberId : String) (s : MemberList) : Option Member := s.members.find? (·.id = memberId)

/-- What is published on the event stream, and the list afterwards. -/
def updateTopology (topology : Option ClusterTopology) (s : MemberList) : List ClusterTopology × MemberList :=
  match topology with
  | none => ([], s)
  | some topology => ([topology], { s with members := topology.members })

/-- The message is null here if it is not a `GossipUpdate`; what the value points to is taken to be a topology. -/
def handleGossipUpdate (update : Option (GossipUpdate ClusterTopology)) (s : MemberList) : List ClusterTopology × MemberList :=
  match update with
  | none => ([], s)
  | some update => if update.key ≠ "topology" then ([], s) else s.updateTopology update.value

section
variable {U K : Type}
open Actor.EventStream (Event Effect)

/-- The value of an update as it is on the event stream. -/
def published : Option ClusterTopology → Event U K Member
  | none => .null
  | some topology => .clusterTopology topology

/-- The handler of the event stream does just this. -/
theorem subscriber_handles (update : GossipUpdate ClusterTopology) (s : MemberList) :
    Actor.EventStream.handleGossipUpdate (.gossipUpdate update.key (published update.value) : Event U K Member) =
        .ok ((s.handleGossipUpdate (some update)).1.flatMap fun topology => [.setMembers topology.members, .publish topology]) ∧
      (s.handleGossipUpdate (some update)).2.members =
        ((s.handleGossipUpdate (some update)).1.map fun topology => topology.members).getLastD s.members := by
  unfold handleGossipUpdate
  by_cases topic : update.key = "topology"
  · cases brings : update.value with
    | none => simp [topic, brings, Actor.EventStream.handleGossipUpdate, published, Event.asSystemMessage, Event.isSystem,
        Event.toGossipUpdate, Event.isNull, updateTopology, pure, Except.pure, bind, Except.bind]
    | some topology => simp [topic, brings, Actor.EventStream.handleGossipUpdate, published, Event.asSystemMessage, Event.isSystem,
        Event.toGossipUpdate, Event.isNull, Event.asClusterTopology, Actor.EventStream.updateTopology, updateTopology, pure,
        Except.pure, bind, Except.bind]
  · simp [topic, Actor.EventStream.handleGossipUpdate, Event.asSystemMessage, Event.isSystem, Event.toGossipUpdate, pure,
      Except.pure, bind, Except.bind]

end

/-- One update after another, with all that is published. -/
def deliver (updates : List (GossipUpdate ClusterTopology)) (s : MemberList) : List ClusterTopology × MemberList :=
  updates.foldl
    (fun before update =>
      let handled := before.2.handleGossipUpdate (some update)
      (before.1 ++ handled.1, handled.2)) ([], s)

/-- The updates bring topologies, each with a sequence number of its own. -/
structure Topologies (updates : List (GossipUpdate ClusterTopology)) : Prop where
  key : ∀ update ∈ updates, update.key = "topology"
  value : ∀ update ∈ updates, update.value ≠ none
  distinct : ∀ update ∈ updates, ∀ update' ∈ updates, update.sequenceNumber = update'.sequenceNumber → update = update'

/-- The update with the highest sequence number. -/
def IsNewest (newest : GossipUpdate ClusterTopology) (updates : List (GossipUpdate ClusterTopology)) : Prop :=
  newest ∈ updates ∧ ∀ update ∈ updates, update.sequenceNumber ≤ newest.sequenceNumber

/-- The members that an update brings. -/
def listed (update : GossipUpdate ClusterTopology) : List Member := (update.value.map Actor.EventStream.ClusterTopology.members).getD []

theorem deliver_concat (updates : List (GossipUpdate ClusterTopology)) (update : GossipUpdate ClusterTopology) (s : MemberList) :
    (deliver (updates ++ [update]) s).2 = ((deliver updates s).2.handleGossipUpdate (some update)).2 := by
  unfold deliver
  rw [List.foldl_append]
  rfl

theorem members_handleGossipUpdate {update : GossipUpdate ClusterTopology} (key : update.key = "topology")
    (value : update.value ≠ none) (s : MemberList) : (s.handleGossipUpdate (some update)).2.members = listed update := by
  unfold handleGossipUpdate listed
  cases brings : update.value with
  | none => exact absurd brings value
  | some topology => simp [key, brings, updateTopology]

/-- The last update wins. -/
theorem members_deliver {updates : List (GossipUpdate ClusterTopology)} (topologies : Topologies updates)
    {last : GossipUpdate ClusterTopology} (ends : updates.getLast? = some last) (s : MemberList) :
    (deliver updates s).2.members = listed last := by
  obtain ⟨before, rfl⟩ := List.getLast?_eq_some_iff.1 ends
  have member : last ∈ before ++ [last] := List.mem_append_right before (List.mem_singleton_self last)
  rw [deliver_concat, members_handleGossipUpdate (topologies.key last member) (topologies.value last member)]

/-! ## The newest update -/

theorem exists_newest {updates : List (GossipUpdate ClusterTopology)} (some_ : updates ≠ []) :
    ∃ newest, IsNewest newest updates := by
  induction updates with
  | nil => exact absurd rfl some_
  | cons update rest ih =>
    by_cases alone : rest = []
    · subst alone
      exact ⟨update, by simp [IsNewest]⟩
    · obtain ⟨newest, member, highest⟩ := ih alone
      rcases Int.le_total newest.sequenceNumber update.sequenceNumber with older | newer
      · refine ⟨update, List.mem_cons_self, List.forall_mem_cons.2 ⟨Int.le_refl _, fun other inside => ?_⟩⟩
        exact Int.le_trans (highest other inside) older
      · exact ⟨newest, List.mem_cons_of_mem _ member, List.forall_mem_cons.2 ⟨newer, highest⟩⟩

/-- **The newest update wins**: the members are those of the update with the highest sequence number. -/
def NewestWins (updates : List (GossipUpdate ClusterTopology)) (s : MemberList) : Prop :=
  ∀ newest, IsNewest newest updates → (deliver updates s).2.members = listed newest

/-- The last update brings the same members as the newest one. -/
def EndsNewest (updates : List (GossipUpdate ClusterTopology)) : Prop :=
  ∀ newest last, IsNewest newest updates → updates.getLast? = some last → listed last = listed newest

theorem newestWins_iff {updates : List (GossipUpdate ClusterTopology)} (topologies : Topologies updates) (s : MemberList) :
    NewestWins updates s ↔ EndsNewest updates := by
  constructor
  · intro wins newest last highest ends
    rw [← members_deliver topologies ends s]
    exact wins newest highest
  · intro newestLast newest highest
    obtain ⟨last, ends⟩ := Option.isSome_iff_exists.1 (List.getLast?_isSome.2 (List.ne_nil_of_mem highest.1))
    rw [members_deliver topologies ends s]
    exact newestLast newest last highest ends

/-- **Exactly then**: the newest update wins if and only if the last one brings the same members; and two nodes
that were delivered the same updates, both with such an end, report the same members. -/
theorem members_agree {updates : List (GossipUpdate ClusterTopology)} (topologies : Topologies updates) (s : MemberList) :
    (NewestWins updates s ↔ EndsNewest updates) ∧
    ∀ (updates' : List (GossipUpdate ClusterTopology)) (s' : MemberList), updates ≠ [] →
      (∀ update, update ∈ updates' ↔ update ∈ updates) → EndsNewest updates → EndsNewest updates' →
      (deliver updates' s').2.members = (deliver updates s).2.members := by
  refine ⟨newestWins_iff topologies s, fun updates' s' some_ same ends ends' => ?_⟩
  have topologies' : Topologies updates' := by
    constructor
    case key => exact fun update member => topologies.key update ((same update).1 member)
    case value => exact fun update member => topologies.value update ((same update).1 member)
    case distinct =>
      exact fun update member update' member' => topologies.distinct update ((same update).1 member) update' ((same update').1 member')
  obtain ⟨newest, member, highest⟩ := exists_newest some_
  have here := (newestWins_iff topologies s).2 ends newest ⟨member, highest⟩
  have there := (newestWins_iff topologies' s').2 ends' newest
    ⟨(same newest).2 member, fun update inside => highest update ((same update).1 inside)⟩
  exact there.trans here.symm

/-- Two updates in their order. -/
theorem members_agree_ordered :
    NewestWins [⟨"topology", some ⟨[], [], []⟩, 1, "a"⟩, ⟨"topology", some ⟨[⟨"b", "host", 1, []⟩], [], []⟩, 2, "a"⟩] ⟨[]⟩ :=
  (members_agree (by constructor <;> decide) _).1.2 (by
    intro newest last highest ends
    cases ends
    obtain ⟨member, above⟩ := highest
    have ahead := above _ (List.mem_cons_of_mem _ List.mem_cons_self)
    rcases List.mem_cons.1 member with rfl | member
    · exact absurd ahead (by decide)
    · rw [List.mem_singleton.1 member]
      rfl)

/-- The same updates the other way round: the older one has the last word. -/
theorem not_newestWins_reversed :
    ¬ NewestWins [⟨"topology", some ⟨[⟨"b", "host", 1, []⟩], [], []⟩, 2, "a"⟩, ⟨"topology", some ⟨[], [], []⟩, 1, "a"⟩] ⟨[]⟩ := by
  intro wins
  have members := wins ⟨"topology", some ⟨[⟨"b", "host", 1, []⟩], [], []⟩, 2, "a"⟩ (by unfold IsNewest; decide)
  exact absurd members (by decide)

end MemberList

end Protoactor.Cluster
