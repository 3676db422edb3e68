import Mathlib.Data.List.GetD
import Protoactor.Lib.Int32
import Protoactor.Lib.Sampling
import Protoactor.Cluster.Gossip.Membership

/-!
# Whom an informer gossips to (`src/cluster/gossip.cpp`)

`SelectRandomMembers` and `SendGossip`; sizes are cast to `int` where the source casts them. What the
distributions answer is a function of the round, and the element type is arbitrary: the loop does not
look at the members, so the same draws select positions in a list of positions.
-/

namespace Protoactor.Cluster
set_option autoImplicit false
open Lib

variable {M T V : Type}

namespace Informer

/-- Where the behaviour of the loop would not be defined. -/
inductive SelectionFault where
  /-- a distribution whose upper bound is below its lower bound -/
  | emptyRange
  /-- an index outside of `available` -/
  | outside
  deriving DecidableEq, Repr

/-- The loop of `SelectRandomMembers` from round `i` on, with `rounds` to go; `draw i` is what `dis(gen)` answers. -/
def selectLoop (draw : Nat → Int) : Nat → Nat → List M → Except SelectionFault (List M)
  | 0, _, _ => .ok []
  | rounds + 1, i, available =>
    if available.isEmpty then .ok []
    else if int32 (available.length - 1) < 0 then .error .emptyRange
    else
      match (if draw i < 0 then none else available[(draw i).toNat]?) with
      | none => .error .outside
      | some member => (selectLoop draw rounds (i + 1) (available.eraseIdx (draw i).toNat)).map (member :: ·)

/-- `select_count` for `n` other members. -/
def selectCount (count : Int32) (n : Nat) : Int := min count.toInt (int32 n)

def selectRandomMembers (draw : Nat → Int) (count : Int32) (otherMembers : List M) : Except SelectionFault (List M) :=
  if otherMembers.isEmpty then .ok [] else selectLoop draw (selectCount count otherMembers.length).toNat 0 otherMembers

/-- The members that `SendGossip` selects. -/
def sendGossip (draw : Nat → Int) (gossipFanOut : Int32) (s : Informer T) : Except SelectionFault (List Member) :=
  if s.otherMembers.isEmpty then .ok [] else selectRandomMembers draw gossipFanOut s.otherMembers

/-- Each draw is within the bounds of its distribution; in round `i` there are `n - i` members available. -/
def WithinBounds (draw : Nat → Int) (count : Int32) (n : Nat) : Prop :=
  ∀ i : Nat, i < selectCount count n → 0 ≤ int32 (n - 1 - i) → 0 ≤ draw i ∧ draw i ≤ int32 (n - 1 - i)

/-- As many different positions of `n` as are asked for, or all of them. -/
structure Selection (count : Int32) (n : Nat) (positions : List Nat) : Prop where
  different : positions.Nodup
  inside : ∀ p ∈ positions, p < n
  number : (positions.length : Int) = min (max count.toInt 0) n

/-- `members` are selected at these positions. -/
def SelectsAt (draw : Nat → Int) (count : Int32) (otherMembers : List M) (positions : List Nat) : Prop :=
  selectRandomMembers draw count (List.range otherMembers.length) = .ok positions ∧
    ∃ members, selectRandomMembers draw count otherMembers = .ok members ∧
      members.map some = positions.map fun p => otherMembers[p]?

/-- **Draws without replacement**: all outcomes of the draws select different positions, and all selections come from some. -/
structure DrawsWithoutReplacement (count : Int32) (otherMembers : List M) : Prop where
  selects : ∀ draw, WithinBounds draw count otherMembers.length →
    ∃ positions, Selection count otherMembers.length positions ∧ SelectsAt draw count otherMembers positions
  every : ∀ positions, Selection count otherMembers.length positions →
    ∃ draw, WithinBounds draw count otherMembers.length ∧ SelectsAt draw count otherMembers positions

/-! ## The loop -/

variable {draw : Nat → Int} {count : Int32} {otherMembers : List M} {ks : List Nat} {out : List M × List M} {n : Nat}

/-- The upper bound in a round that `select_count` allows. -/
theorem bound_eq {i : Nat} (round : (i : Int) < int32 n) : int32 (n - 1 - i) = int32 n - 1 - i := by
  have high := int32_high n
  rw [show (n : Int) - 1 - i = n - (1 + i) by omega, ← int32_sub, int32_of_range (by omega) (by omega)]
  omega

/-- The loop takes the members at the drawn positions out. -/
theorem selectLoop_eq {i : Nat} {l : List M} (drawn : ∀ j k : Nat, ks[j]? = some k → draw (i + j) = k)
    (bounds : ∀ j : Nat, j < ks.length → 0 ≤ int32 (l.length - 1 - j)) (taken : takeOut ks l = some out) :
    selectLoop draw ks.length i l = .ok out.1 := by
  induction ks generalizing i l out with
  | nil =>
    cases taken
    rfl
  | cons k ks ih =>
    obtain ⟨inside, rest, found, first⟩ := takeOut_cons_some taken
    have now : draw i = k := drawn 0 k rfl
    have bound := bounds 0 (Nat.succ_pos _)
    have size : ((l.eraseIdx k).length : Int) = l.length - 1 := by
      rw [List.length_eraseIdx_of_lt inside]
      omega
    have later : selectLoop draw ks.length (i + 1) (l.eraseIdx k) = .ok rest := by
      refine ih (fun j k' there => ?_) (fun j low => ?_) found
      · rw [Nat.add_assoc, Nat.add_comm 1 j]
        exact drawn (j + 1) k' there
      · have next := bounds (j + 1) (Nat.succ_lt_succ low)
        rw [size, show (l.length : Int) - 1 - 1 - j = l.length - 1 - ((j + 1 : Nat) : Int) by omega]
        exact next
    have some : l.isEmpty = false := by
      cases l with
      | nil => cases inside
      | cons x l => rfl
    rw [Nat.cast_zero, Int.sub_zero] at bound
    rw [List.length_cons, selectLoop, some, if_neg Bool.false_ne_true, if_neg (by omega), now, if_neg (by omega), Int.toNat_natCast,
      List.getElem?_eq_getElem inside]
    dsimp only
    rw [later, first]
    rfl

/-- The first member that is selected is the one that is drawn first. -/
theorem selectLoop_first {i rounds : Nat} {l rest : List M} {first : M} (selected : selectLoop draw rounds i l = .ok (first :: rest)) :
    l[(draw i).toNat]? = some first := by
  cases rounds with
  | zero => cases selected
  | succ rounds =>
    rw [selectLoop] at selected
    split at selected
    · cases selected
    · split at selected
      · cases selected
      · split at selected
        · cases selected
        · next member found =>
          split at found
          · cases found
          · cases later : selectLoop draw rounds (i + 1) (l.eraseIdx (draw i).toNat) with
            | error fault =>
              rw [later] at selected
              cases selected
            | ok members =>
              rw [later] at selected
              cases selected
              exact found

/-- The test for no members decides nothing. -/
theorem selectRandomMembers_eq (draw : Nat → Int) (count : Int32) (otherMembers : List M) :
    selectRandomMembers draw count otherMembers = selectLoop draw (selectCount count otherMembers.length).toNat 0 otherMembers := by
  unfold selectRandomMembers
  split
  · next none =>
    rw [List.isEmpty_iff.1 none]
    have zero : (selectCount count 0).toNat = 0 := by
      unfold selectCount
      rw [Nat.cast_zero, int32_zero]
      omega
    rw [List.length_nil, zero, selectLoop]
  · rfl

/-- Draws that answer the positions `ks` in the rounds that there are. -/
structure Answers (draw : Nat → Int) (count : Int32) (n : Nat) (ks : List Nat) : Prop where
  rounds : ks.length = (selectCount count n).toNat
  drawn : ∀ j k : Nat, ks[j]? = some k → draw j = k
  inRange : InRange ks (int32 n).toNat

theorem lt_of_round {i : Nat} (round : i < (selectCount count n).toNat) : (i : Int) < int32 n := by
  unfold selectCount at round
  omega

/-- Within the bounds the draws are positions among the first `int32 n`. -/
theorem answers_of_withinBounds (within : WithinBounds draw count n) : ∃ ks, Answers draw count n ks := by
  have each : ∀ i : Nat, i < (selectCount count n).toNat → 0 ≤ draw i ∧ draw i < int32 n - i := by
    intro i round
    have below := lt_of_round round
    have bounds := within i (by omega)
    rw [bound_eq below] at bounds
    have both := bounds (by omega)
    omega
  refine ⟨(List.range (selectCount count n).toNat).map fun i => (draw i).toNat, ?_, fun j k there => ?_, ?_⟩
  · rw [List.length_map, List.length_range]
  · rw [List.getElem?_map, Option.map_eq_some_iff] at there
    obtain ⟨i, found, rfl⟩ := there
    obtain ⟨round, rfl⟩ := List.getElem?_eq_some_iff.1 found
    rw [List.length_range] at round
    rw [List.getElem_range, Int.toNat_of_nonneg (each j round).1]
  · rw [inRange_iff]
    intro j k there
    rw [List.getElem?_map, Option.map_eq_some_iff] at there
    obtain ⟨i, found, rfl⟩ := there
    obtain ⟨round, rfl⟩ := List.getElem?_eq_some_iff.1 found
    rw [List.length_range] at round
    rw [List.getElem_range]
    have both := each j round
    omega

/-- Positions in range are answered by draws within the bounds. -/
theorem exists_answers (rounds : ks.length = (selectCount count n).toNat) (inRange : InRange ks (int32 n).toNat) :
    ∃ draw, WithinBounds draw count n ∧ Answers draw count n ks := by
  refine ⟨fun i => (ks.getD i 0 : Nat), fun i round _ => ?_, rounds, fun j k there => ?_, inRange⟩
  · have low : i < ks.length := by omega
    have inside := inRange_iff.1 inRange i _ (List.getElem?_eq_getElem low)
    have answer : ks.getD i 0 = ks[i] := List.getD_eq_getElem _ _ low
    dsimp only
    rw [bound_eq (by omega), answer]
    omega
  · rw [List.getD_eq_getElem?_getD, there, Option.getD_some]

/-- What the loop selects is what is taken out. -/
theorem selectRandomMembers_answers (answers : Answers draw count otherMembers.length ks) (taken : takeOut ks otherMembers = some out) :
    selectRandomMembers draw count otherMembers = .ok out.1 := by
  rw [selectRandomMembers_eq, ← answers.rounds]
  refine selectLoop_eq (fun j k there => ?_) (fun j low => ?_) taken
  · rw [Nat.zero_add]
    exact answers.drawn j k there
  · have below : (j : Int) < int32 otherMembers.length := lt_of_round (answers.rounds ▸ low)
    rw [bound_eq below]
    omega

theorem map_getElem?_range (l : List M) : (List.range l.length).map (fun p => l[p]?) = l.map some := by
  refine List.ext_getElem (by simp) fun p there here => ?_
  rw [List.length_map] at here
  rw [List.getElem_map, List.getElem_range, List.getElem_map, List.getElem?_eq_getElem here]

/-- The draws select members at the positions that they select among positions. -/
theorem selectsAt_of_answers (answers : Answers draw count otherMembers.length ks) {positions left : List Nat}
    (taken : takeOut ks (List.range otherMembers.length) = some (positions, left)) : SelectsAt draw count otherMembers positions := by
  have answers' : Answers draw count (List.range otherMembers.length).length ks := by rwa [List.length_range]
  refine ⟨selectRandomMembers_answers answers' taken, ?_⟩
  have members := takeOut_map (fun p => otherMembers[p]?) ks (List.range otherMembers.length)
  rw [map_getElem?_range, takeOut_map, taken, Option.map_some, Option.map_eq_some_iff] at members
  obtain ⟨out, found, same⟩ := members
  exact ⟨out.1, selectRandomMembers_answers answers found, congrArg Prod.fst same⟩

/-- Whatever the draws answer, they select different positions, and as many as there are rounds. -/
theorem selected_of_answers (answers : Answers draw count otherMembers.length ks) :
    ∃ positions, positions.Nodup ∧ (∀ p ∈ positions, p < otherMembers.length) ∧
      positions.length = (selectCount count otherMembers.length).toNat ∧ SelectsAt draw count otherMembers positions := by
  have size := int32_le otherMembers.length
  have inRange : InRange ks (List.range otherMembers.length).length := by
    rw [List.length_range]
    exact answers.inRange.mono (by omega)
  obtain ⟨⟨positions, left⟩, taken⟩ := exists_takeOut inRange
  have whole := takeOut_perm taken
  refine ⟨positions, ?_, fun p member => ?_, ?_, selectsAt_of_answers answers taken⟩
  · exact (List.nodup_append.1 (whole.nodup_iff.2 List.nodup_range)).1
  · exact List.mem_range.1 (whole.mem_iff.1 (List.mem_append_left left member))
  · exact (takeOut_length taken).trans answers.rounds

/-! ## When nothing is cut off -/

/-- The count is exact where the cast of the size is, and where nothing is asked for. -/
theorem selectCount_exact (exact_ : n < 2 ^ 31 ∨ count.toInt ≤ 0) : ((selectCount count n).toNat : Int) = min (max count.toInt 0) n := by
  unfold selectCount
  rcases exact_ with small | nothing
  · rw [int32_of_range (by omega) (by omega)]
    omega
  · omega

/-- From a larger list not even the last position can be drawn first. -/
theorem last_not_drawn (large : 2 ^ 31 ≤ n) (within : WithinBounds draw count n) (some : 0 < selectCount count n) :
    (draw 0).toNat ≠ n - 1 := by
  have positive : 0 < int32 n := by
    unfold selectCount at some
    omega
  have high := int32_high n
  have bounds := within 0 some
  rw [bound_eq positive, Nat.cast_zero] at bounds
  omega

/-- All positions that are asked for, from the last one downwards. -/
theorem exists_downwards (large : 0 < n) (some : 0 < count.toInt) : ∃ rest, Selection count n ((n - 1) :: rest) := by
  obtain ⟨size, rfl⟩ : ∃ size, n = size + 1 := ⟨n - 1, by omega⟩
  obtain ⟨asked, more⟩ : ∃ asked : Nat, count.toInt = asked + 1 := ⟨count.toInt.toNat - 1, by omega⟩
  have below : ∀ p ∈ (List.range size).reverse.take asked, p < size := fun p member =>
    List.mem_range.1 (List.mem_reverse.1 (List.mem_of_mem_take member))
  refine ⟨(List.range size).reverse.take asked, ?_, fun p member => ?_, ?_⟩
  · refine List.nodup_cons.2 ⟨fun inside => Nat.lt_irrefl size (below size inside), ?_⟩
    exact (List.nodup_reverse.2 List.nodup_range).sublist (List.take_sublist _ _)
  · rcases List.mem_cons.1 member with rfl | inside
    · omega
    · have low := below p inside
      omega
  · rw [List.length_cons, List.length_take, List.length_reverse, List.length_range]
    omega

/-- From `2 ^ 31` members on the selection of the last one is not drawn. -/
theorem exact_of_draws (draws : DrawsWithoutReplacement count otherMembers) : otherMembers.length < 2 ^ 31 ∨ count.toInt ≤ 0 := by
  by_contra large
  have large : 2 ^ 31 ≤ otherMembers.length ∧ 0 < count.toInt := by omega
  obtain ⟨rest, downwards⟩ := exists_downwards (show 0 < otherMembers.length by omega) large.2
  obtain ⟨draw, within, selected, -⟩ := draws.every _ downwards
  obtain ⟨ks, answers⟩ := answers_of_withinBounds within
  obtain ⟨positions, -, -, length, again, -⟩ := selected_of_answers answers
  have same : positions = _ := Except.ok.inj (again.symm.trans selected)
  rw [same, List.length_cons] at length
  rw [selectRandomMembers_eq] at selected
  have first := selectLoop_first selected
  obtain ⟨inside, drawn⟩ := List.getElem?_eq_some_iff.1 first
  rw [List.getElem_range] at drawn
  exact last_not_drawn large.1 within (by omega) drawn

/-- Where the count is exact, some draws select these positions. -/
theorem exists_selectsAt (exact_ : otherMembers.length < 2 ^ 31 ∨ count.toInt ≤ 0) {positions : List Nat}
    (selection : Selection count otherMembers.length positions) :
    ∃ draw, WithinBounds draw count otherMembers.length ∧ SelectsAt draw count otherMembers positions := by
  have number := selectCount_exact exact_
  have choice : positions.Subperm (List.range otherMembers.length) :=
    List.subperm_of_subset selection.different fun p member => List.mem_range.2 (selection.inside p member)
  obtain ⟨ks, left, inRange, taken⟩ := exists_takeOut_of_subperm choice
  have rounds : ks.length = (selectCount count otherMembers.length).toNat := by
    have length : positions.length = ks.length := takeOut_length taken
    have asked := selection.number
    omega
  have near : InRange ks (int32 otherMembers.length).toNat := by
    rcases exact_ with small | nothing
    · rw [int32_of_range (by omega) (by omega), Int.toNat_natCast]
      rwa [List.length_range] at inRange
    · have none : ks = [] := List.eq_nil_of_length_eq_zero (by omega)
      rw [none]
      exact True.intro
  obtain ⟨draw, within, answers⟩ := exists_answers rounds near
  exact ⟨draw, within, selectsAt_of_answers answers taken⟩

/-- **Exactly below `2 ^ 31` members**, or where nothing is asked for. -/
theorem drawsWithoutReplacement_iff (count : Int32) (otherMembers : List M) :
    DrawsWithoutReplacement count otherMembers ↔ otherMembers.length < 2 ^ 31 ∨ count.toInt ≤ 0 := by
  refine ⟨exact_of_draws, fun exact_ => ⟨fun draw within => ?_, fun positions selection => exists_selectsAt exact_ selection⟩⟩
  obtain ⟨ks, answers⟩ := answers_of_withinBounds within
  obtain ⟨positions, different, inside, length, selects⟩ := selected_of_answers answers
  exact ⟨positions, ⟨different, inside, by rw [length, selectCount_exact exact_]⟩, selects⟩

/-- A list as long as this is empty for the loop. -/
theorem not_drawsWithoutReplacement :
    ¬ DrawsWithoutReplacement 1 (List.replicate (2 ^ 31) (⟨"a", "host", 1, []⟩ : Member)) := by
  intro draws
  have none : (selectCount 1 (2 ^ 31)).toNat = 0 := by decide
  have within : WithinBounds (fun _ => 0) 1 (List.replicate (2 ^ 31) (⟨"a", "host", 1, []⟩ : Member)).length :=
    fun _ _ bound => ⟨Int.le_refl 0, bound⟩
  obtain ⟨positions, selection, selected, -⟩ := draws.selects _ within
  have number := selection.number
  rw [selectRandomMembers_eq, List.length_range, List.length_replicate, none] at selected
  cases selected
  rw [List.length_nil, List.length_replicate] at number
  exact absurd number (by decide)

/-! ## The targets of the gossip -/

/-- The members of the latest topology, nobody before the first one. -/
def latestMembers (calls : List (Informed T V)) : List Member := ((latest calls).map Actor.EventStream.ClusterTopology.members).getD []

/-- **To others, each once**: different members, none of them the node itself, as many as asked for or all. -/
structure GoesToOthers (myId : String) (gossipFanOut : Int32) (members targets : List Member) : Prop where
  among : ∀ target ∈ targets, target ∈ members
  different : (targets.map Member.id).Nodup
  others : ∀ target ∈ targets, target.id ≠ myId
  number : targets.length = (min gossipFanOut.toInt (members.countP fun member => member.id ≠ myId)).toNat

variable {members : List Member} {myId : String} {fanOut : Int32}

theorem otherMembers_run (myId : String) (calls : List (Informed T V)) : (run myId calls).otherMembers = latestMembers calls := by
  unfold latestMembers
  induction calls using List.reverseRecOn with
  | nil => rfl
  | append_singleton calls call ih =>
    rw [run_concat, latest_concat]
    cases call with
    | updateClusterTopology topology blocked now =>
      cases topology with
      | none => exact ih
      | some topology => rfl
    | setState now => exact ih
    | mergeState update now =>
      cases update with
      | none => exact ih
      | some update =>
        simp only [step, mergeState]
        split
        · exact ih
        · split <;> exact ih

theorem sendGossip_eq (draw : Nat → Int) (fanOut : Int32) (s : Informer T) :
    sendGossip draw fanOut s = selectRandomMembers draw fanOut s.otherMembers := by
  unfold sendGossip
  split
  · next none =>
    unfold selectRandomMembers
    rw [if_pos none]
  · rfl

/-- The targets are among the first `int32 n` members, whatever is drawn. -/
theorem targets_of_withinBounds (within : WithinBounds draw fanOut members.length) :
    ∃ targets left, selectRandomMembers draw fanOut members = .ok targets ∧
      (targets ++ left).Perm (members.take (int32 members.length).toNat) ∧
      targets.length = (selectCount fanOut members.length).toNat := by
  have size := int32_le members.length
  obtain ⟨ks, answers⟩ := answers_of_withinBounds within
  have first : (members.take (int32 members.length).toNat).length = (int32 members.length).toNat := by
    rw [List.length_take]
    omega
  have inRange : InRange ks (members.take (int32 members.length).toNat).length := by
    rw [first]
    exact answers.inRange
  obtain ⟨out, taken⟩ := exists_takeOut inRange
  have whole := takeOut_append inRange (members.drop (int32 members.length).toNat)
  rw [List.take_append_drop, taken, Option.map_some] at whole
  have selected := selectRandomMembers_answers answers whole
  exact ⟨out.1, out.2, selected, takeOut_perm taken, (takeOut_length taken).trans answers.rounds⟩

/-- At most one member is the node itself. -/
theorem length_le_countP (distinct : (members.map Member.id).Nodup) (myId : String) :
    members.length ≤ members.countP (fun member => member.id ≠ myId) + 1 := by
  have own := List.nodup_iff_count_le_one.1 distinct myId
  have split := @List.length_eq_countP_add_countP _ (fun member : Member => decide (member.id ≠ myId)) members
  rw [List.count_eq_countP, List.countP_map] at own
  have same : members.countP (fun member => decide ¬ decide (member.id ≠ myId) = true) = members.countP ((· == myId) ∘ Member.id) :=
    List.countP_congr fun member _ => by simp
  omega

/-- The own id is not that of a member who can be drawn, and the count is not cut off. -/
structure OwnIdApart (myId : String) (fanOut : Int32) (members : List Member) : Prop where
  apart : myId ∉ (members.take (int32 members.length).toNat).map Member.id
  whole : members.length < 2 ^ 31 ∨ fanOut.toInt ≤ int32 members.length

theorem number_of_apart (distinct : (members.map Member.id).Nodup) (apart : OwnIdApart myId fanOut members) (some : 0 < fanOut.toInt) :
    (selectCount fanOut members.length).toNat = (min fanOut.toInt (members.countP fun member => member.id ≠ myId)).toNat := by
  have high := fanOut.toInt_lt
  unfold selectCount
  by_cases small : members.length < 2 ^ 31
  · have away := apart.apart
    rw [int32_of_range (by omega) (by omega), Int.toNat_natCast, List.take_length] at away
    have all : members.countP (fun member => member.id ≠ myId) = members.length :=
      List.countP_eq_length.2 fun member inside => decide_eq_true fun own => away (List.mem_map.2 ⟨member, inside, own⟩)
    rw [all, int32_of_range (by omega) (by omega)]
  · have others := length_le_countP distinct myId
    have whole := apart.whole.resolve_left small
    omega

/-- A member that can be drawn is drawn first by some draws. -/
theorem exists_first {p : Nat} (inside : p < members.length) (reach : (p : Int) < int32 members.length) (some : 0 < fanOut.toInt) :
    ∃ draw, WithinBounds draw fanOut members.length ∧ ∀ targets, selectRandomMembers draw fanOut members = .ok targets →
      targets.length = (selectCount fanOut members.length).toNat → members[p] ∈ targets := by
  refine ⟨fun i => if i = 0 then p else 0, fun i round bound => ?_, fun targets selected length => ?_⟩
  · rw [bound_eq (by unfold selectCount at round; omega)] at bound ⊢
    dsimp only
    split <;> omega
  · cases targets with
    | nil =>
      rw [List.length_nil] at length
      unfold selectCount at length
      omega
    | cons first rest =>
      rw [selectRandomMembers_eq] at selected
      have found := selectLoop_first selected
      rw [if_pos rfl, Int.toNat_natCast, List.getElem?_eq_getElem inside] at found
      rw [Option.some.inj found]
      exact List.mem_cons_self

/-- If the own id could be drawn, or the count were cut off, some draws would go wrong. -/
theorem ownIdApart_of_goes (distinct : (members.map Member.id).Nodup) (some : 0 < fanOut.toInt)
    (goes : ∀ draw, WithinBounds draw fanOut members.length → ∃ targets,
      selectRandomMembers draw fanOut members = .ok targets ∧ GoesToOthers myId fanOut members targets) :
    OwnIdApart myId fanOut members := by
  constructor
  case apart =>
    intro own
    obtain ⟨member, inside, own⟩ := List.mem_map.1 own
    obtain ⟨p, low, rfl⟩ := List.getElem_of_mem inside
    rw [List.length_take] at low
    obtain ⟨draw, within, drawn⟩ := exists_first (show p < members.length by omega) (by omega) some
    obtain ⟨targets, selected, good⟩ := goes draw within
    obtain ⟨again, -, found, -, length⟩ := targets_of_withinBounds within
    have same : again = targets := Except.ok.inj (found.symm.trans selected)
    rw [List.getElem_take] at own
    exact good.others _ (drawn targets selected (same ▸ length)) own
  case whole =>
    by_contra cut
    have within : WithinBounds (fun _ => 0) fanOut members.length := fun _ _ bound => ⟨Int.le_refl 0, bound⟩
    obtain ⟨targets, selected, good⟩ := goes _ within
    obtain ⟨again, -, found, -, length⟩ := targets_of_withinBounds within
    have same : again = targets := Except.ok.inj (found.symm.trans selected)
    have number := good.number
    have others := length_le_countP distinct myId
    have high := fanOut.toInt_lt
    rw [← same, length] at number
    unfold selectCount at number
    omega

/-- Whatever is drawn, the targets are others if the own id cannot be drawn. -/
theorem goes_of_ownIdApart {draw : Nat → Int} (distinct : (members.map Member.id).Nodup)
    (condition : fanOut.toInt ≤ 0 ∨ OwnIdApart myId fanOut members) (within : WithinBounds draw fanOut members.length) :
    ∃ targets, selectRandomMembers draw fanOut members = .ok targets ∧ GoesToOthers myId fanOut members targets := by
  obtain ⟨targets, left, selected, whole, length⟩ := targets_of_withinBounds within
  have among : ∀ target ∈ targets, target ∈ members.take (int32 members.length).toNat :=
    fun target inside => whole.mem_iff.1 (List.mem_append_left left inside)
  have different : (targets.map Member.id).Nodup := by
    have first : ((members.take (int32 members.length).toNat).map Member.id).Nodup :=
      distinct.sublist ((List.take_sublist _ _).map _)
    rw [← (whole.map Member.id).nodup_iff, List.map_append] at first
    exact (List.nodup_append.1 first).1
  refine ⟨targets, selected, fun target inside => List.mem_of_mem_take (among target inside), different, ?_, ?_⟩
  · intro target inside own
    rcases condition with nothing | apart
    · have none : targets = [] := List.eq_nil_of_length_eq_zero (by unfold selectCount at length; omega)
      rw [none] at inside
      cases inside
    · exact apart.apart (List.mem_map.2 ⟨target, among target inside, own⟩)
  · rw [length]
    by_cases nothing : fanOut.toInt ≤ 0
    · unfold selectCount
      omega
    · exact number_of_apart distinct (condition.resolve_left nothing) (by omega)

/-- **Exactly then**: the fan-out is not positive, or the topology does not list the node itself. -/
theorem goesToOthers_iff (myId : String) (calls : List (Informed T V)) (fanOut : Int32)
    (distinct : ((latestMembers calls).map Member.id).Nodup) :
    (∀ draw, WithinBounds draw fanOut (run myId calls).otherMembers.length → ∃ targets,
      sendGossip draw fanOut (run myId calls) = .ok targets ∧ GoesToOthers myId fanOut (latestMembers calls) targets) ↔
      fanOut.toInt ≤ 0 ∨ OwnIdApart myId fanOut (latestMembers calls) := by
  simp only [sendGossip_eq, otherMembers_run]
  constructor
  · intro goes
    exact or_iff_not_imp_left.2 fun some => ownIdApart_of_goes distinct (by omega) goes
  · exact fun condition draw within => goes_of_ownIdApart distinct condition within

/-- A call of `UpdateClusterTopology` with members of these ids. -/
def topologyOf (ids : List String) : Informed Unit Unit :=
  .updateClusterTopology (some ⟨ids.map fun id => ⟨id, "host", 1, []⟩, [], []⟩) [] ()

theorem goesToOthers_iff_two : ∃ targets, sendGossip (fun _ => 0) 3 (run "a" [topologyOf ["b", "c"]]) = .ok targets ∧
    GoesToOthers "a" 3 (latestMembers [topologyOf ["b", "c"]]) targets :=
  (goesToOthers_iff "a" [topologyOf ["b", "c"]] 3 (by decide)).2 (.inr ⟨by decide, .inl (by decide)⟩) (fun _ => 0)
    fun _ _ bound => ⟨Int.le_refl 0, bound⟩

/-- A node that is alone in its topology gossips to itself. -/
theorem not_goesToOthers : WithinBounds (fun _ => 0) 3 (run "a" [topologyOf ["a"]]).otherMembers.length ∧
    sendGossip (fun _ => 0) 3 (run "a" [topologyOf ["a"]]) = .ok [⟨"a", "host", 1, []⟩] ∧
    ¬ GoesToOthers "a" 3 (latestMembers [topologyOf ["a"]]) [⟨"a", "host", 1, []⟩] := by
  refine ⟨fun _ _ bound => ⟨Int.le_refl 0, bound⟩, by decide, fun goes => ?_⟩
  exact goes.others _ List.mem_cons_self rfl
end Informer

end Protoactor.Cluster
