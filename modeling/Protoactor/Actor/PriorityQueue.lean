import Mathlib.Data.List.Perm.Basic
import Protoactor.Actor.Queue

/-!
# The priority queue (`src/queue/priority_queue.cpp`)

`PriorityQueue` against the other implementation of `Queue`, `UnboundedQueue`. `Push` gives every item the
priority `0`, and of items of one priority `std::priority_queue` may take any. `Pop` waits as long as the
queue is empty; in a sequence of calls it then never returns.
-/

namespace Protoactor.Actor
set_option autoImplicit false

variable {M : Type}

structure PriorityQueueItem (M : Type) where
  message : Option M
  priority : Int
  deriving DecidableEq, Repr

/-- `operator<`. -/
def PriorityQueueItem.less (item other : PriorityQueueItem M) : Prop := item.priority < other.priority

/-- The items, in no order. -/
abbrev PriorityQueue (M : Type) := List (PriorityQueueItem M)

/-- A call of a method of `Queue`. -/
inductive QueueCall (M : Type) where
  | push (message : Option M)
  | pop
  deriving DecidableEq, Repr

namespace PriorityQueue

/-- `Push`. -/
def push (message : Option M) (q : PriorityQueue M) : PriorityQueue M := ⟨message, 0⟩ :: q

def messages (q : PriorityQueue M) : List (Option M) := q.map PriorityQueueItem.message

/-- `Pop` returns: it takes out an item that is less than no other. -/
inductive Pops : PriorityQueue M → Option M → PriorityQueue M → Prop where
  | top {before after : PriorityQueue M} {item : PriorityQueueItem M} (top : ∀ other ∈ before ++ after, ¬ item.less other) :
      Pops (before ++ item :: after) item.message (before ++ after)

/-- The calls return, and `answers` are those of the calls of `Pop`. -/
inductive Runs : PriorityQueue M → List (QueueCall M) → List (Option M) → PriorityQueue M → Prop where
  | nil {q : PriorityQueue M} : Runs q [] [] q
  | push {q q' : PriorityQueue M} {message : Option M} {calls : List (QueueCall M)} {answers : List (Option M)}
      (rest : Runs (push message q) calls answers q') : Runs q (.push message :: calls) answers q'
  | pop {q q' q'' : PriorityQueue M} {message : Option M} {calls : List (QueueCall M)} {answers : List (Option M)}
      (pops : Pops q message q') (rest : Runs q' calls answers q'') : Runs q (.pop :: calls) (message :: answers) q''

end PriorityQueue

/-- The same calls on an `UnboundedQueue`: the answers, and what is left. -/
def Queue.serve (q : Queue M) : List (QueueCall M) → List (Option M) × Queue M
  | [] => ([], q)
  | .push message :: calls => (q.push message).serve calls
  | .pop :: calls => (q.pop.1 :: (Queue.serve q.pop.2 calls).1, (Queue.serve q.pop.2 calls).2)

/-- The items that are pushed. -/
def pushed : List (QueueCall M) → List (Option M)
  | [] => []
  | .push message :: calls => message :: pushed calls
  | .pop :: calls => pushed calls

namespace PriorityQueue

/-- **In the place of an `UnboundedQueue`** with the contents `f`: however ties are resolved, every call returns, nothing is lost
or duplicated, and the answers are those of the other queue. -/
structure Interchangeable (q : PriorityQueue M) (f : Queue M) (calls : List (QueueCall M)) : Prop where
  returns : ∀ done rest answers q', calls = done ++ .pop :: rest → Runs q done answers q' → ∃ message q'', Pops q' message q''
  conserved : ∀ done rest answers q', calls = done ++ rest → Runs q done answers q' → (messages q ++ pushed done).Perm (answers ++ messages q')
  answers : ∀ done rest answers q', calls = done ++ rest → Runs q done answers q' → answers = (f.serve done).1

/-! ## One call -/

variable {q q' : PriorityQueue M} {f : Queue M} {message : Option M} {calls : List (QueueCall M)} {answers : List (Option M)}

/-- All items have the priority that `Push` gives them. -/
def Even (q : PriorityQueue M) : Prop := ∀ item ∈ q, item.priority = 0

theorem even_push (even : Even q) (message : Option M) : Even (q.push message) := List.forall_mem_cons.2 ⟨rfl, even⟩

theorem pops_perm (pops : Pops q message q') : (message :: messages q').Perm (messages q) := by
  cases pops with
  | top top =>
    unfold messages
    rw [List.map_append, List.map_append, List.map_cons]
    exact List.perm_middle.symm

theorem pops_even (even : Even q) (pops : Pops q message q') : Even q' := by
  cases pops with
  | top top => exact fun other inside => even other (List.perm_middle.mem_iff.2 (.tail _ inside))

/-- Of items of one priority any can be taken. -/
theorem pops_of_mem (even : Even q) (inside : message ∈ messages q) : ∃ q', Pops q message q' := by
  obtain ⟨item, there, rfl⟩ := List.mem_map.1 inside
  obtain ⟨before, after, rfl⟩ := List.append_of_mem there
  refine ⟨_, .top fun other member => ?_⟩
  have first := even item there
  have second := even other (List.perm_middle.mem_iff.2 (.tail _ member))
  unfold PriorityQueueItem.less
  omega

theorem runs_conserved (run : Runs q calls answers q') : (messages q ++ pushed calls).Perm (answers ++ messages q') := by
  induction run with
  | @nil q => exact .of_eq (List.append_nil _)
  | push rest ih => exact List.perm_middle.trans ih
  | pop pops rest ih => exact ((pops_perm pops).symm.append_right _).trans (ih.cons _)

/-! ## A sequence of calls -/

/-- At every call of `Pop` there are items, all of them the same. -/
def Uniform (f : Queue M) (calls : List (QueueCall M)) : Prop :=
  ∀ done rest, calls = done ++ .pop :: rest → (f.serve done).2 ≠ [] ∧ ∀ x ∈ (f.serve done).2, ∀ y ∈ (f.serve done).2, x = y

theorem uniform_push : Uniform f (.push message :: calls) ↔ Uniform (f.push message) calls := by
  constructor
  · intro uniform done rest split
    exact uniform (.push message :: done) rest (congrArg _ split)
  · intro uniform done rest split
    cases done with
    | nil => cases split
    | cons call done =>
      obtain ⟨rfl, tails⟩ := List.cons.inj split
      exact uniform done rest tails

theorem uniform_pop : Uniform f (.pop :: calls) ↔ (f ≠ [] ∧ ∀ x ∈ f, ∀ y ∈ f, x = y) ∧ Uniform f.pop.2 calls := by
  constructor
  · intro uniform
    exact ⟨uniform [] calls rfl, fun done rest split => uniform (.pop :: done) rest (congrArg _ split)⟩
  · rintro ⟨now, later⟩ done rest split
    cases done with
    | nil => exact now
    | cons call done =>
      obtain ⟨rfl, tails⟩ := List.cons.inj split
      exact later done rest tails

/-- Such calls find in the priority queue what they find in the other one. -/
theorem runs_agree (run : Runs q calls answers q') (even : Even q) (same : (messages q).Perm f) (uniform : Uniform f calls) :
    answers = (f.serve calls).1 ∧ Even q' ∧ (messages q').Perm (f.serve calls).2 := by
  induction run generalizing f with
  | nil => exact ⟨rfl, even, same⟩
  | @push q _ message _ _ rest ih =>
    have grown : (messages (q.push message)).Perm (f.push message) := (same.cons message).trans (List.perm_append_singleton message f).symm
    exact ih (even_push even message) grown (uniform_push.1 uniform)
  | @pop q q₁ _ message _ _ pops rest ih =>
    obtain ⟨⟨some, equal⟩, later⟩ := uniform_pop.1 uniform
    obtain ⟨first, others, rfl⟩ := List.exists_cons_of_ne_nil some
    have taken := (pops_perm pops).trans same
    obtain rfl : message = first := equal message (taken.subset (.head _)) first (.head _)
    obtain ⟨answers, even', left⟩ := ih (pops_even even pops) taken.cons_inv later
    refine ⟨?_, even', left⟩
    rw [answers]
    rfl

theorem interchangeable_of_uniform (even : Even q) (same : (messages q).Perm f) (uniform : Uniform f calls) : Interchangeable q f calls := by
  have cut : ∀ done rest, calls = done ++ rest → Uniform f done := by
    rintro done rest split before after rfl
    exact uniform before (after ++ rest) (by rw [split, List.append_assoc]; rfl)
  refine ⟨fun done rest answers q' split run => ?_, fun done rest answers q' split run => runs_conserved run,
    fun done rest answers q' split run => (runs_agree run even same (cut done rest split)).1⟩
  obtain ⟨-, even', left⟩ := runs_agree run even same (cut done _ split)
  obtain ⟨first, others, contents⟩ := List.exists_cons_of_ne_nil (uniform done rest split).1
  rw [contents] at left
  obtain ⟨q'', pops⟩ := pops_of_mem even' (left.symm.subset (.head _))
  exact ⟨first, q'', pops⟩

theorem uniform_of_interchangeable (even : Even q) (same : (messages q).Perm f) (agree : Interchangeable q f calls) : Uniform f calls := by
  induction calls generalizing q f with
  | nil =>
    intro done rest split
    cases List.append_eq_nil_iff.1 split.symm |>.2
  | cons call calls ih =>
    cases call with
    | push message =>
      have grown : (messages (q.push message)).Perm (f.push message) := (same.cons message).trans (List.perm_append_singleton message f).symm
      refine uniform_push.2 (ih (even_push even message) grown ⟨?_, ?_, ?_⟩)
      · intro done rest answers q' split run
        exact agree.returns (.push message :: done) rest answers q' (congrArg _ split) (.push run)
      · exact fun done rest answers q' split run => runs_conserved run
      · intro done rest answers q' split run
        exact agree.answers (.push message :: done) rest answers q' (congrArg _ split) (.push run)
    | pop =>
      obtain ⟨some, q₁, returned⟩ := agree.returns [] calls [] q rfl .nil
      have content : some ∈ f := same.subset ((pops_perm returned).subset (.head _))
      cases f with
      | nil => cases content
      | cons first others =>
        -- whatever can be taken has to be the first
        have only : ∀ x ∈ first :: others, x = first := by
          intro x inside
          obtain ⟨q', pops⟩ := pops_of_mem even (same.symm.subset inside)
          exact (List.cons.inj (agree.answers [.pop] calls [x] q' rfl (.pop pops .nil))).1
        obtain ⟨q', pops⟩ := pops_of_mem even (same.symm.subset (.head _))
        refine uniform_pop.2 ⟨⟨List.cons_ne_nil _ _, fun x insideX y insideY => (only x insideX).trans (only y insideY).symm⟩, ?_⟩
        refine ih (pops_even even pops) ((pops_perm pops).trans same).cons_inv ⟨?_, ?_, ?_⟩
        · intro done rest answers q'' split run
          exact agree.returns (.pop :: done) rest (first :: answers) q'' (congrArg _ split) (.pop pops run)
        · exact fun done rest answers q'' split run => runs_conserved run
        · intro done rest answers q'' split run
          exact (List.cons.inj (agree.answers (.pop :: done) rest (first :: answers) q'' (congrArg _ split) (.pop pops run))).2

/-- **A priority queue keeps the contract** exactly while every `Pop` finds items and all of them are the same. -/
theorem interchangeable_iff (calls : List (QueueCall M)) : Interchangeable [] [] calls ↔ Uniform [] calls :=
  ⟨uniform_of_interchangeable nofun (.refl _), interchangeable_of_uniform nofun (.refl _)⟩

/-- `Pop` of an empty queue does not return, and the second of two items may come out first. -/
theorem not_interchangeable : ¬ Interchangeable (M := Nat) [] [] [.pop] ∧
    (∃ q, Runs (M := Nat) [] [.push (some 1), .push (some 2), .pop] [some 2] q) ∧
    ¬ Interchangeable (M := Nat) [] [] [.push (some 1), .push (some 2), .pop] := by
  have takes : Pops (M := Nat) [⟨some 2, 0⟩, ⟨some 1, 0⟩] (some 2) [⟨some 1, 0⟩] := by
    refine @Pops.top Nat [] [⟨some 1, 0⟩] ⟨some 2, 0⟩ fun other inside => ?_
    cases List.mem_singleton.1 inside
    exact Int.lt_irrefl 0
  have second : Runs (M := Nat) [] [.push (some 1), .push (some 2), .pop] [some 2] [⟨some 1, 0⟩] := .push (.push (.pop takes .nil))
  refine ⟨fun agree => ?_, ⟨_, second⟩, fun agree => ?_⟩
  · obtain ⟨message, q, pops⟩ := agree.returns [] [] [] [] rfl .nil
    cases (pops_perm pops).length_eq
  · cases agree.answers _ [] _ _ rfl second

end PriorityQueue

end Protoactor.Actor
