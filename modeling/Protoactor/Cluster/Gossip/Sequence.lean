import Protoactor.Cluster.Gossip

/-!
# The sequence numbers of an informer

A node counts its own changes in `local_seq_number_` and puts that number into its own entry. But
`MergeState` takes any greater number, also for the own id, and the next change of the node puts the
counter there again. So the numbers go forward just where no merged update is ahead of the node itself
(`advancing_iff`).
-/

namespace Protoactor.Cluster
set_option autoImplicit false
open Lib

variable {T V : Type}

namespace Informer

/-- The own entry carries the counter. -/
def Own (s : Informer T) : Prop := ∀ number, s.held s.myId = some number → number = s.localSeqNumber

/-- An update about the node itself is at its counter, or is behind it and the node has its entry. -/
def Behind (s : Informer T) (update : GossipUpdate V) : Prop :=
  update.memberId = s.myId →
    update.sequenceNumber = s.localSeqNumber ∨ update.sequenceNumber < s.localSeqNumber ∧ s.held s.myId ≠ none

/-- **Numbers never go back**: in every state of the run the own entry carries the counter, and no step
lowers the number of a member that is there before and after it. -/
structure Advancing (myId : String) (calls : List (Informed T V)) : Prop where
  own : ∀ before after, calls = before ++ after → (run myId before).Own
  forward : ∀ before call after, calls = before ++ call :: after → ∀ id number number',
    (run myId before).held id = some number → (run myId (before ++ [call])).held id = some number' → number ≤ number'

/-- Each update that is merged is behind the node where it is about the node. -/
def AllBehind (myId : String) (calls : List (Informed T V)) : Prop :=
  ∀ before update now after, calls = before ++ .mergeState (some update) now :: after → (run myId before).Behind update

/-! ## The counter -/

/-- A call that is a change of the node's own. -/
def changes : Informed T V → Bool
  | .updateClusterTopology topology _ _ => topology.isSome
  | .setState _ => true
  | .mergeState _ _ => false

theorem localSeqNumber_mergeState (update : GossipUpdate V) (now : T) (s : Informer T) :
    (s.mergeState (some update) now).localSeqNumber = s.localSeqNumber := by
  simp only [mergeState]
  split
  · rfl
  · split <;> rfl

/-- The counter counts calls. -/
theorem localSeqNumber_run (myId : String) (calls : List (Informed T V)) :
    (run myId calls).localSeqNumber = calls.countP changes := by
  induction calls using List.reverseRecOn with
  | nil => rfl
  | append_singleton calls call ih =>
    rw [run_concat, List.countP_append, List.countP_singleton, Int.natCast_add, ← ih]
    cases call with
    | updateClusterTopology topology blocked now => cases topology <;> simp [step, updateClusterTopology, changes]
    | setState now => simp [step, setState, changes]
    | mergeState update now =>
      cases update with
      | none => simp [step, mergeState, changes]
      | some update => simp [step, localSeqNumber_mergeState, changes]

/-! ## One call -/

/-- A number that is there before and after a merge has not gone back. -/
theorem offerAt_le {held : String → Option Int} {entry : String × Int} {id : String} {number number' : Int}
    (before : held id = some number) (after : offerAt held entry id = some number') : number ≤ number' := by
  unfold offerAt at after
  split at after
  · rw [before, offer_some] at after
    cases after
    exact le_max_right _ _
  · rw [before] at after
    cases after
    exact le_refl _

/-- What a merge about the node itself leaves in its entry. -/
theorem own_mergeState {s : Informer T} (own : s.Own) (update : GossipUpdate V) (now : T) :
    (s.mergeState (some update) now).Own ↔ s.Behind update := by
  have me : (s.mergeState (some update) now).myId = s.myId := step_myId s (.mergeState (some update) now)
  unfold Own Behind
  rw [me, localSeqNumber_mergeState, held_mergeState]
  unfold offerAt
  by_cases about : update.memberId = s.myId
  · simp only [about, true_implies, if_true]
    cases entry : s.held s.myId with
    | none => simp [offer]
    | some number =>
      have carried := own number entry
      subst carried
      rw [offer_some]
      constructor
      · intro carries
        have le : update.sequenceNumber ≤ s.localSeqNumber := sup_eq_right.1 (carries _ rfl)
        exact (eq_or_lt_of_le le).imp_right fun less => ⟨less, by simp⟩
      · intro behind number carried
        cases carried
        exact max_eq_right (behind.elim le_of_eq fun less => less.1.le)
  · simp only [about, false_implies, if_false, iff_true]
    exact own

theorem own_step {s : Informer T} (own : s.Own) (call : Informed T V)
    (behind : ∀ update now, call = .mergeState (some update) now → s.Behind update) : (s.step call).Own := by
  cases call with
  | updateClusterTopology topology blocked now =>
    cases topology with
    | none => exact own
    | some topology =>
      intro number carried
      rw [step_myId, step, held_updateClusterTopology, if_pos rfl] at carried
      exact (Option.some.inj carried).symm
  | setState now =>
    intro number carried
    rw [step_myId, step, held_setState, if_pos rfl] at carried
    exact (Option.some.inj carried).symm
  | mergeState update now =>
    cases update with
    | none => exact own
    | some update => exact (own_mergeState own update now).2 (behind update now rfl)

theorem forward_step {s : Informer T} (own : s.Own) (call : Informed T V) {id : String} {number number' : Int}
    (before : s.held id = some number) (after : (s.step call).held id = some number') : number ≤ number' := by
  -- the node's own change takes its entry from the counter to the next number
  have counted : id = s.myId → number' = s.localSeqNumber + 1 → number ≤ number' := by
    rintro rfl rfl
    have carried := own number before
    omega
  have kept : s.held id = some number' → number ≤ number' := by
    intro same
    rw [before] at same
    exact (Option.some.inj same).le
  cases call with
  | updateClusterTopology topology blocked now =>
    cases topology with
    | none => exact kept after
    | some topology =>
      rw [step, held_updateClusterTopology] at after
      split at after
      · rename_i me
        exact counted me (Option.some.inj after).symm
      · split at after
        · exact kept after
        · cases after
  | setState now =>
    rw [step, held_setState] at after
    split at after
    · rename_i me
      exact counted me (Option.some.inj after).symm
    · exact kept after
  | mergeState update now =>
    cases update with
    | none => exact kept after
    | some update =>
      rw [step, held_mergeState] at after
      exact offerAt_le before after

/-! ## Runs -/

theorem own_run {myId : String} {calls : List (Informed T V)} (behind : AllBehind myId calls) (before after : List (Informed T V))
    (split : calls = before ++ after) : (run myId before).Own := by
  induction before using List.reverseRecOn generalizing after with
  | nil => exact fun number carried => by cases carried
  | append_singleton before call ih =>
    rw [List.append_assoc] at split
    rw [run_concat]
    refine own_step (ih _ split) call fun update now kind => ?_
    subst kind
    exact behind before update now after split

/-- **Exactly then**: the numbers of a run go forward and the own entry carries the counter if and only if
no update that is merged is ahead of the node it is about, where that is the node itself. -/
theorem advancing_iff (myId : String) (calls : List (Informed T V)) : Advancing myId calls ↔ AllBehind myId calls := by
  constructor
  · intro advancing before update now after split
    have own := advancing.own before _ split
    have next := advancing.own (before ++ [Informed.mergeState (some update) now]) after (by simpa using split)
    rw [run_concat] at next
    exact (own_mergeState own update now).1 next
  · intro behind
    constructor
    case own => exact own_run behind
    case forward =>
      intro before call after split id number number' here there
      rw [run_concat] at there
      exact forward_step (own_run behind before _ split) call here there

/-- The own number from before a restart comes back, and the next change takes it away again. -/
theorem not_advancing_restart : ¬ Advancing (V := Unit) "a"
    [.mergeState (some ⟨"topology", none, 9, "a"⟩) (), .setState ()] := by
  intro advancing
  have back := advancing.forward [.mergeState (some ⟨"topology", none, 9, "a"⟩) ()] (.setState ()) [] rfl "a" 9 1 rfl rfl
  exact absurd back (by decide)

end Informer

end Protoactor.Cluster
