import Protoactor.Actor.Context
import Protoactor.Actor.Supervision

/-!
# Who decides about a failure

A failure is reported by `EscalateFailure` of the failing actor's context and climbs the tree of
contexts: each ancestor handles the `Failure` that its child's context has sent it, and what
it sends in turn goes to its own parent. `Decided` is what a supervised failure
comes to: an ancestor's strategy answers with a directive, and the directive reaches the
failing child. `HandleFailure` passes every failure on without asking the strategy
(`Props::GetSupervisor` has no caller), and at the top, where the parent is null, it is dropped.
-/

namespace Protoactor.Actor
set_option autoImplicit false

variable {U K σ C : Type}

/-- `EscalateFailure`. -/
def ActorContext.escalateFailure (reason message : Ptr U K) (c : ActorContext U K σ C) : ActorContext U K σ C :=
  match c.parent with
  | none => c
  | some parent => c.post (some parent) .system (.failure c.self reason message none)

/-- A context with the strategy configured in its `Props`. -/
structure Supervised (U K σ C : Type) where
  context : ActorContext U K σ C
  supervisionStrategy : Option (SupervisorStrategy U K)

namespace Supervised

/-- `Props::GetSupervisor`. -/
def getSupervisor (n : Supervised U K σ C) : SupervisorStrategy U K :=
  n.supervisionStrategy.getD defaultSupervisorStrategy

/-- What the context has sent between two states of it. -/
def sentSince (before after : ActorContext U K σ C) : List (Sent U K) := after.sent.drop before.sent.length

/-- The ancestors, nearest first, each handle what the one below has sent them. -/
def climb (beh : Behaviour U K σ C) : List (Supervised U K σ C) → List (Sent U K) → Option (List (Supervised U K σ C))
  | [], _ => some []
  | above, [] => some above
  | n :: above, sent :: _ => do
    let c ← n.context.invokeSystemMessage beh sent.message
    return { n with context := c } :: (← climb beh above (sentSince n.context c))

/-- The ancestors after the actor with the context `c` has reported a failure. -/
def report (beh : Behaviour U K σ C) (reason message : Ptr U K) (c : ActorContext U K σ C)
    (ancestors : List (Supervised U K σ C)) : Option (List (Supervised U K σ C)) :=
  climb beh ancestors (sentSince c (c.escalateFailure reason message))

/-- `ancestors` is the way up from a context with the given parent pointer. -/
def Lineage : Option PID → List (Supervised U K σ C) → Prop
  | none, [] => True
  | some parent, n :: above => n.context.self = some parent ∧ Lineage n.context.parent above
  | none, _ :: _ | some _, [] => False

theorem Lineage.top {ancestors : List (Supervised U K σ C)} (line : Lineage none ancestors) : ancestors = [] := by
  cases ancestors with
  | nil => rfl
  | cons n above => cases line

/-- The last ancestor has no parent. -/
theorem Lineage.last {start : Option PID} {below : List (Supervised U K σ C)} {n : Supervised U K σ C}
    (line : Lineage start (below ++ [n])) : n.context.parent = none := by
  induction below generalizing start with
  | nil =>
    cases start with
    | none => cases line
    | some _ =>
      obtain ⟨-, higher⟩ := line
      cases top : n.context.parent with
      | none => rfl
      | some _ =>
        rw [top] at higher
        cases higher
  | cons first below ih =>
    cases start with
    | none => cases line
    | some _ => exact ih line.2

/-- One ancestor has answered: its strategy was asked, did not escalate, and something has
reached the failing child. -/
def Decided (child : PID) (before after : List (Supervised U K σ C)) : Prop :=
  ∃ (i : Nat) (n n' : Supervised U K σ C) (f : ChildFailure U K) (rs : Option RestartStatistics),
    before[i]? = some n ∧ after[i]? = some n' ∧ child ∈ (n.getSupervisor.handleFailure f rs).1.targets ∧
      ∃ sent ∈ sentSince n.context n'.context, sent.target = some child

/-- `HandleFailure` on every ancestor: the failure goes to the parent, if there is one. -/
def passOn (failure : Ptr U K) (n : Supervised U K σ C) : Supervised U K σ C :=
  { n with context := n.context.handleFailure failure }

theorem sentSince_handleFailure (failure : Ptr U K) (c : ActorContext U K σ C) :
    sentSince c (c.handleFailure failure) = match c.parent with
      | none => []
      | some parent => [⟨some parent, .system, failure⟩] := by
  unfold ActorContext.handleFailure sentSince
  cases c.parent <;> simp [ActorContext.post]

theorem invokeSystemMessage_failure (beh : Behaviour U K σ C) (who : PID) (reason message : Ptr U K) (parent : Option PID)
    (c : ActorContext U K σ C) :
    c.invokeSystemMessage beh (.failure (some who) reason message parent) =
      some (c.handleFailure (.failure (some who) reason message parent)) := rfl

/-- A failure climbs to the top, passed on by everybody on the way. -/
theorem climb_failure (beh : Behaviour U K σ C) {who : PID} {reason message : Ptr U K} {handler target : Option PID}
    {ancestors : List (Supervised U K σ C)} {parent : PID} (line : Lineage (some parent) ancestors) :
    climb beh ancestors [⟨target, .system, .failure (some who) reason message handler⟩] =
      some (ancestors.map (passOn (.failure (some who) reason message handler))) := by
  induction ancestors generalizing parent target with
  | nil => cases line
  | cons n above ih =>
    obtain ⟨-, higher⟩ := line
    simp only [climb, invokeSystemMessage_failure, Option.bind_eq_bind, Option.bind_some, sentSince_handleFailure]
    cases top : n.context.parent with
    | none =>
      rw [top] at higher
      obtain rfl := higher.top
      rfl
    | some next =>
      rw [top] at higher
      simp only [ih higher]
      rfl

/-- A report reaches every ancestor. -/
theorem report_climbs (beh : Behaviour U K σ C) {who : PID} {c : ActorContext U K σ C} (reason message : Ptr U K)
    {ancestors : List (Supervised U K σ C)} (named : c.self = some who) (line : Lineage c.parent ancestors) :
    report beh reason message c ancestors =
      some (ancestors.map (passOn (.failure (some who) reason message none))) := by
  unfold report ActorContext.escalateFailure
  cases top : c.parent with
  | none =>
    rw [top] at line
    obtain rfl := line.top
    rfl
  | some parent =>
    rw [top] at line
    simpa [sentSince, ActorContext.post, named] using climb_failure beh line

/-- In a lineage the parent of every ancestor is the next one, so nothing goes to a PID
that is none of theirs. -/
theorem Lineage.parent_mem {start : Option PID} {ancestors : List (Supervised U K σ C)} (line : Lineage start ancestors)
    {n : Supervised U K σ C} (member : n ∈ ancestors) {parent : PID} (up : n.context.parent = some parent) :
    ∃ above ∈ ancestors, above.context.self = some parent := by
  induction ancestors generalizing start with
  | nil => cases member
  | cons first above ih =>
    cases start with
    | none => cases line
    | some _ =>
      obtain ⟨-, higher⟩ := line
      rcases List.mem_cons.1 member with rfl | later
      · rw [up] at higher
        cases above with
        | nil => cases higher
        | cons next _ => exact ⟨next, by simp, higher.1⟩
      · obtain ⟨found, inside, same⟩ := ih higher later
        exact ⟨found, List.mem_cons_of_mem first inside, same⟩

/-- **No failure is ever decided.** Whatever strategies the ancestors have, a reported failure
is passed on by all of them and reaches the failing child in no form; the last one, which
has no parent, drops it. -/
theorem never_decided (beh : Behaviour U K σ C) {child : PID} {c : ActorContext U K σ C} (reason message : Ptr U K)
    {ancestors : List (Supervised U K σ C)} (named : c.self = some child) (line : Lineage c.parent ancestors)
    (tree : ∀ n ∈ ancestors, n.context.self ≠ some child) :
    report beh reason message c ancestors = some (ancestors.map (passOn (.failure (some child) reason message none))) ∧
    ¬ Decided child ancestors (ancestors.map (passOn (.failure (some child) reason message none))) ∧
    ∀ n ∈ ancestors.getLast?, passOn (.failure (some child) reason message none) n = n := by
  refine ⟨report_climbs beh reason message named line, ?_, ?_⟩
  · rintro ⟨i, n, n', f, rs, here, there, -, sent, inside, target⟩
    rw [List.getElem?_map, here, Option.map_some] at there
    cases there
    simp only [passOn, sentSince_handleFailure] at inside
    split at inside
    · cases inside
    · rename_i parent up
      obtain ⟨above, member, same⟩ := line.parent_mem (List.mem_of_getElem? here) up
      rw [List.mem_singleton.1 inside] at target
      exact tree above member (same.trans target)
  · intro n last
    obtain ⟨split, rfl⟩ := List.getLast?_eq_some_iff.1 last
    simp [passOn, ActorContext.handleFailure, line.last]

/-- A child under a parent under a root, the parent with a strategy that always restarts. -/
def familyTree : List (Supervised Nat Nat Unit Unit) :=
  [⟨.new (some ⟨1, "nonhost", "p"⟩) (some ⟨2, "nonhost", "r"⟩) () true, some .restarting⟩,
    ⟨.new (some ⟨2, "nonhost", "r"⟩) none () true, none⟩]

/-- The failing child. -/
def failingChild : ActorContext Nat Nat Unit Unit :=
  .new (some ⟨0, "nonhost", "c"⟩) (some ⟨1, "nonhost", "p"⟩) () true

theorem never_decided_family :
    let failure : Ptr Nat Nat := .failure (some ⟨0, "nonhost", "c"⟩) (.user 1) (.user 2) none
    report ActorContext.idle (.user 1) (.user 2) failingChild familyTree = some (familyTree.map (passOn failure)) ∧
    ¬ Decided ⟨0, "nonhost", "c"⟩ familyTree (familyTree.map (passOn failure)) ∧
    ∀ n ∈ familyTree.getLast?, passOn failure n = n :=
  never_decided ActorContext.idle (c := failingChild) (.user 1) (.user 2) rfl ⟨rfl, rfl, trivial⟩ (by decide)

/-- The parent has only passed the failure on and the root has done nothing, so the child is left
without a directive. -/
theorem failure_is_dropped :
    ∃ after, report ActorContext.idle (.user 1) (.user 2) failingChild familyTree = some after ∧
      after.map (fun n => n.context.sent) =
        [[⟨some ⟨2, "nonhost", "r"⟩, .system, .failure (some ⟨0, "nonhost", "c"⟩) (.user 1) (.user 2) none⟩], []] ∧
      ¬ Decided ⟨0, "nonhost", "c"⟩ familyTree after := by
  refine ⟨_, rfl, rfl, ?_⟩
  rintro ⟨i, n, n', f, rs, here, there, -, sent, inside, target⟩
  match i, here, there with
  | 0, rfl, rfl =>
    rw [List.mem_singleton.1 inside] at target
    cases target
  | 1, rfl, rfl => cases inside

end Supervised

end Protoactor.Actor
