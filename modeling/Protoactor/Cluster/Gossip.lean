import Mathlib.Data.List.AList
import Mathlib.Data.List.Induction
import Protoactor.Cluster.Messages
import Protoactor.Lib.Newest

/-!
# The informer (`src/cluster/gossip.cpp`)

`Informer` with `state_->members` as an association list. The map never holds a null pointer. `T` is
the type of the times, `V` that of the values of updates; `GetState` and `SendGossip` change nothing,
and `SetState` does not look at its key and value.
-/

namespace Protoactor.Cluster
set_option autoImplicit false
open Lib

variable {T V : Type}

structure GossipMemberState (T : Type) where
  sequenceNumber : Int
  heartbeat : T
  blocked : List String
  topology : Option ClusterTopology
  deriving DecidableEq, Repr

/-- `activeMemberIds` are the keys of `active_member_ids_`. -/
structure Informer (T : Type) where
  myId : String
  localSeqNumber : Int
  members : AList fun _ : String => GossipMemberState T
  activeMemberIds : List String
  otherMembers : List Member

/-- A call. `blocked` is what `get_blocked_members_` answers; an update is null where the message is
not a `GossipUpdate`. -/
inductive Informed (T V : Type) where
  | updateClusterTopology (topology : Option ClusterTopology) (blocked : List String) (now : T)
  | setState (now : T)
  | mergeState (update : Option (GossipUpdate V)) (now : T)

namespace Informer

def new (myId : String) : Informer T := ⟨myId, 0, ∅, [], []⟩

def updateClusterTopology (topology : Option ClusterTopology) (blocked : List String) (now : T) (s : Informer T) : Informer T :=
  match topology with
  | none => s
  | some topology =>
    let active := topology.members.map Member.id
    -- members that left
    let toRemove := s.members.keys.filter fun id => id ≠ s.myId ∧ id ∉ active
    let pruned := toRemove.foldl (fun members id => members.erase id) s.members
    let number := s.localSeqNumber + 1
    { s with
      localSeqNumber := number
      members := pruned.insert s.myId ⟨number, now, blocked, some topology⟩
      activeMemberIds := active
      otherMembers := topology.members }

def setState (now : T) (s : Informer T) : Informer T :=
  let number := s.localSeqNumber + 1
  let mine : GossipMemberState T :=
    match s.members.lookup s.myId with
    | none => ⟨number, now, [], none⟩
    | some mine => { mine with sequenceNumber := number, heartbeat := now }
  { s with localSeqNumber := number, members := s.members.insert s.myId mine }

/-- `MergeState`, and `ReceiveGossip`. -/
def mergeState (update : Option (GossipUpdate V)) (now : T) (s : Informer T) : Informer T :=
  match update with
  | none => s
  | some update =>
    let merged := { s with members := s.members.insert update.memberId ⟨update.sequenceNumber, now, [], none⟩ }
    match s.members.lookup update.memberId with
    | none => merged
    | some member => if member.sequenceNumber < update.sequenceNumber then merged else s

def step (s : Informer T) : Informed T V → Informer T
  | .updateClusterTopology topology blocked now => s.updateClusterTopology topology blocked now
  | .setState now => s.setState now
  | .mergeState update now => s.mergeState update now

/-- Call after call on a new informer. -/
def run (myId : String) (calls : List (Informed T V)) : Informer T := calls.foldl step (new myId)

/-- The sequence number that is held for a member. -/
def held (s : Informer T) (id : String) : Option Int := (s.members.lookup id).map GossipMemberState.sequenceNumber

/-! ## Sequence numbers after each operation -/

theorem lookup_foldl_erase (ids : List String) (members : AList fun _ : String => GossipMemberState T) (id : String) :
    (ids.foldl (fun members id => members.erase id) members).lookup id = if id ∈ ids then none else members.lookup id := by
  induction ids generalizing members with
  | nil => rfl
  | cons gone ids ih =>
    rw [List.foldl_cons, ih]
    by_cases own : id = gone
    · subst own
      simp [AList.lookup_erase]
    · simp [AList.lookup_erase_ne own, own]

theorem held_updateClusterTopology (topology : ClusterTopology) (blocked : List String) (now : T) (s : Informer T) (id : String) :
    (s.updateClusterTopology (some topology) blocked now).held id =
      if id = s.myId then some (s.localSeqNumber + 1) else if id ∈ topology.members.map Member.id then s.held id else none := by
  unfold held updateClusterTopology
  by_cases own : id = s.myId
  · subst own
    simp
  · rw [if_neg own, AList.lookup_insert_ne own, lookup_foldl_erase]
    simp only [List.mem_filter, decide_eq_true_eq]
    by_cases member : id ∈ topology.members.map Member.id
    · simp [member]
    · by_cases there : id ∈ s.members.keys
      · simp [own, member, there]
      · have absent : s.members.lookup id = none := AList.lookup_eq_none.2 fun inside => there (AList.mem_keys.1 inside)
        simp [member, absent]

theorem held_setState (now : T) (s : Informer T) (id : String) :
    (s.setState now).held id = if id = s.myId then some (s.localSeqNumber + 1) else s.held id := by
  unfold held setState
  by_cases own : id = s.myId
  · subst own
    cases s.members.lookup s.myId <;> simp
  · simp [AList.lookup_insert_ne own, own]

theorem held_insert (s : Informer T) (id : String) (state : GossipMemberState T) (k : String) :
    { s with members := s.members.insert id state }.held k = if id = k then some state.sequenceNumber else s.held k := by
  unfold held
  by_cases own : k = id
  · subst own
    simp
  · simp [AList.lookup_insert_ne own, Ne.symm own]

/-- A merge offers its number to the member it is about. -/
theorem held_mergeState (update : GossipUpdate V) (now : T) (s : Informer T) :
    (s.mergeState (some update) now).held = offerAt s.held (update.memberId, update.sequenceNumber) := by
  funext id
  have before : s.held update.memberId = (s.members.lookup update.memberId).map GossipMemberState.sequenceNumber := rfl
  simp only [offerAt, mergeState]
  cases known : s.members.lookup update.memberId with
  | none =>
    simp only [held_insert]
    split
    · rename_i own
      rw [← own, before, known]
      rfl
    · rfl
  | some member =>
    simp only
    by_cases own : update.memberId = id
    · rw [if_pos own, ← own, before, known]
      simp only [Option.map_some, offer]
      split
      · rw [held_insert, if_pos rfl]
      · rw [before, known, Option.map_some]
    · rw [if_neg own]
      split
      · rw [held_insert, if_neg own]
      · rfl

/-! ## Merging -/

/-- `MergeState` of one update after another. -/
def mergeAll (updates : List (GossipUpdate V × T)) (s : Informer T) : Informer T :=
  updates.foldl (fun s update => s.mergeState (some update.1) update.2) s

theorem held_mergeAll (updates : List (GossipUpdate V × T)) (s : Informer T) :
    (mergeAll updates s).held =
      (updates.map fun update => (update.1.memberId, update.1.sequenceNumber)).foldl offerAt s.held := by
  induction updates generalizing s with
  | nil => rfl
  | cons update updates ih =>
    rw [List.map_cons, List.foldl_cons, ← held_mergeState update.1 update.2 s]
    exact ih _

/-- **Merging converges**: after any updates, each member has the greatest of the sequence number it had
and those of the updates about it, and none if there are neither; and two informers with the same numbers
that merge the same updates, in any order and any number of times, have the same numbers again. -/
theorem merging_converges (updates : List (GossipUpdate V × T)) (s : Informer T) :
    (∀ id, Newest ({number | s.held id = some number} ∪
        {number | ∃ update ∈ updates.map Prod.fst, update.memberId = id ∧ update.sequenceNumber = number})
      ((mergeAll updates s).held id)) ∧
    ∀ (updates' : List (GossipUpdate V × T)) (s' : Informer T), s'.held = s.held →
      (∀ update, update ∈ updates'.map Prod.fst ↔ update ∈ updates.map Prod.fst) →
      (mergeAll updates' s').held = (mergeAll updates s).held := by
  have entries : ∀ updates : List (GossipUpdate V × T),
      (updates.map fun update => (update.1.memberId, update.1.sequenceNumber)) =
        (updates.map Prod.fst).map fun update => (update.memberId, update.sequenceNumber) := fun updates => by
    rw [List.map_map]
    rfl
  constructor
  · intro id
    have newest := newest_offers ((updates.map Prod.fst).map fun update => (update.memberId, update.sequenceNumber)) s.held id
    rw [held_mergeAll, entries]
    refine cast (congrArg (Newest · _) ?_) newest
    ext number
    simp [Prod.ext_iff]
  · intro updates' s' held same
    rw [held_mergeAll, held_mergeAll, entries, entries, held]
    refine offers_agree s.held fun entry => ?_
    simp only [List.mem_map (f := fun update : GossipUpdate V => (update.memberId, update.sequenceNumber)), same]

/-- Two updates about one member, in both orders. -/
theorem merging_converges_swapped :
    let older : GossipUpdate Unit × Unit := (⟨"topology", none, -3, "a"⟩, ())
    let newer : GossipUpdate Unit × Unit := (⟨"topology", none, 7, "a"⟩, ())
    (mergeAll [newer, older, older] (new "me" : Informer Unit)).held = (mergeAll [older, newer] (new "me" : Informer Unit)).held :=
  (merging_converges _ _).2 _ _ rfl (by simp [or_comm])

/-! ## Runs -/

theorem run_concat (myId : String) (calls : List (Informed T V)) (call : Informed T V) :
    run myId (calls ++ [call]) = (run myId calls).step call := by
  unfold run
  rw [List.foldl_append]
  rfl

theorem step_myId (s : Informer T) (call : Informed T V) : (s.step call).myId = s.myId := by
  cases call with
  | updateClusterTopology topology blocked now => cases topology <;> rfl
  | setState now => rfl
  | mergeState update now =>
    cases update with
    | none => rfl
    | some update =>
      simp only [step, mergeState]
      split
      · rfl
      · split <;> rfl

theorem run_myId (myId : String) (calls : List (Informed T V)) : (run myId calls).myId = myId := by
  induction calls using List.reverseRecOn with
  | nil => rfl
  | append_singleton calls call ih => rw [run_concat, step_myId, ih]

end Informer

end Protoactor.Cluster
