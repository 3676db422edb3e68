import Protoactor.Cluster.Gossip

/-!
# Which members an informer holds

`UpdateClusterTopology` takes the members that left out of the state. `MergeState` puts in whomever an
update is about, and does not ask `active_member_ids_`. So the state stays within the latest topology
just where the updates merged since are about its members or the node itself (`withinTopology_iff`).
-/

namespace Protoactor.Cluster
set_option autoImplicit false
open Lib

variable {T V : Type}

namespace Informer

/-- The topology of the last `UpdateClusterTopology` that had one. -/
def latest (calls : List (Informed T V)) : Option ClusterTopology :=
  calls.reverse.findSome? fun
    | .updateClusterTopology topology _ _ => topology
    | _ => none

/-- The node itself or a member of the topology. -/
def Belongs (myId : String) (topology : ClusterTopology) (id : String) : Prop :=
  id = myId ∨ id ∈ topology.members.map Member.id

/-- **Departed members stay out**: in every state from the first topology on there are only the node itself
and members of the latest one. -/
def WithinTopology (myId : String) (calls : List (Informed T V)) : Prop :=
  ∀ before after, calls = before ++ after → ∀ topology, latest before = some topology →
    ∀ id ∈ (run myId before).members, Belongs myId topology id

/-- From the first topology on, each update that is merged is about the node itself or a member of the
latest one. -/
def AllBelong (myId : String) (calls : List (Informed T V)) : Prop :=
  ∀ before update now after, calls = before ++ .mergeState (some update) now :: after →
    ∀ topology, latest before = some topology → Belongs myId topology update.memberId

theorem latest_concat (calls : List (Informed T V)) (call : Informed T V) :
    latest (calls ++ [call]) =
      match call with
      | .updateClusterTopology (some topology) _ _ => some topology
      | _ => latest calls := by
  unfold latest
  rw [List.reverse_append, List.reverse_singleton, List.singleton_append, List.findSome?_cons]
  cases call with
  | updateClusterTopology topology blocked now => cases topology <;> rfl
  | setState now => rfl
  | mergeState update now => rfl

/-! ## Members after each operation -/

theorem mem_iff_held {s : Informer T} {id : String} : id ∈ s.members ↔ (s.held id).isSome = true := by
  rw [held, Option.isSome_map, AList.lookup_isSome]

theorem mem_updateClusterTopology {topology : ClusterTopology} {blocked : List String} {now : T} {s : Informer T} {id : String} :
    id ∈ (s.updateClusterTopology (some topology) blocked now).members →
      Belongs s.myId topology id := by
  rw [mem_iff_held, held_updateClusterTopology]
  unfold Belongs
  intro there
  split at there
  · rename_i me
    exact .inl me
  · split at there
    · rename_i member
      exact .inr member
    · cases there

theorem mem_setState {now : T} {s : Informer T} {id : String} : id ∈ (s.setState now).members ↔ id = s.myId ∨ id ∈ s.members := by
  rw [mem_iff_held, held_setState, mem_iff_held]
  split
  · rename_i me
    simp [me]
  · rename_i other
    simp [other]

theorem mem_mergeState {update : GossipUpdate V} {now : T} {s : Informer T} {id : String} :
    id ∈ (s.mergeState (some update) now).members ↔ id = update.memberId ∨ id ∈ s.members := by
  rw [mem_iff_held, held_mergeState, mem_iff_held]
  unfold offerAt
  split
  · rename_i own
    have same : id = update.memberId := own.symm
    cases held : s.held id with
    | none => simp [offer, same]
    | some number => simp [offer_some, same]
  · rename_i other
    simp [Ne.symm other]

/-! ## Runs -/

theorem within_step {myId : String} {s : Informer T} {topology : Option ClusterTopology} (me : s.myId = myId)
    (within : ∀ t, topology = some t → ∀ id ∈ s.members, Belongs myId t id) (call : Informed T V)
    (belongs : ∀ update now, call = .mergeState (some update) now → ∀ t, topology = some t → Belongs myId t update.memberId) :
    ∀ t, (match call with
        | .updateClusterTopology (some topology) _ _ => some topology
        | _ => topology) = some t → ∀ id ∈ (s.step call).members, Belongs myId t id := by
  subst me
  intro t current id there
  cases call with
  | updateClusterTopology next blocked now =>
    cases next with
    | none => exact within t current id there
    | some next =>
      cases current
      exact mem_updateClusterTopology there
  | setState now =>
    rcases mem_setState.1 there with me | old
    · exact .inl me
    · exact within t current id old
  | mergeState update now =>
    cases update with
    | none => exact within t current id there
    | some update =>
      rcases mem_mergeState.1 there with rfl | old
      · exact belongs update now rfl t current
      · exact within t current id old

theorem within_run {myId : String} {calls : List (Informed T V)} (belong : AllBelong myId calls)
    (before after : List (Informed T V)) (split : calls = before ++ after) :
    ∀ topology, latest before = some topology → ∀ id ∈ (run myId before).members, Belongs myId topology id := by
  induction before using List.reverseRecOn generalizing after with
  | nil => exact fun topology none_ => by cases none_
  | append_singleton before call ih =>
    rw [List.append_assoc] at split
    rw [latest_concat, run_concat]
    refine within_step (run_myId myId before) (ih _ split) call fun update now kind => ?_
    subst kind
    exact belong before update now after split

/-- **Exactly then**: departed members stay out of the state of a run if and only if, from the first
topology on, the updates it merges are about the node itself or members of the latest topology. -/
theorem withinTopology_iff (myId : String) (calls : List (Informed T V)) : WithinTopology myId calls ↔ AllBelong myId calls := by
  constructor
  · intro within before update now after split topology current
    have next := within (before ++ [Informed.mergeState (some update) now]) after (by simpa using split) topology
      (by rw [latest_concat]; exact current)
    rw [run_concat] at next
    exact next update.memberId (mem_mergeState.2 (.inl rfl))
  · exact fun belong before after split => within_run belong before after split

/-- A member has left, and a late update brings it back. -/
theorem not_withinTopology_late : ¬ WithinTopology (V := Unit) "a"
    [.updateClusterTopology (some ⟨[⟨"a", "host", 1, []⟩], [], []⟩) [] (), .mergeState (some ⟨"topology", none, 4, "b"⟩) ()] := by
  intro within
  have back := within _ [] (List.append_nil _).symm ⟨[⟨"a", "host", 1, []⟩], [], []⟩ rfl "b" (by decide)
  exact absurd back (by unfold Belongs; decide)

end Informer

end Protoactor.Cluster
