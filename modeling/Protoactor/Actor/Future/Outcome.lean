import Protoactor.Actor.Future.Completion

/-!
# What a future tells, and to whom

Two guarantees over every order of calls on one future: once it is done everybody who ever
registered has been told, once, and its entry in the registry is gone (`Told`); and
what is told is the outcome of the first completing call (`Reports`). Each holds for
the orders whose first completing call does it right, and for no other.
-/

namespace Protoactor.Actor.FutureImpl
set_option autoImplicit false

variable {U K F : Type}

/-- The call that completes the future, in the state it finds. -/
theorem after_completion (pid : PID) (registry : List String) {before : List (Op U K F)} (op : Op U K F)
    (rest : List (Op U K F)) (waits : ∀ o ∈ before, o.completes = false) :
    ∃ f : FutureImpl U K F, f = { created pid registry with
        pipes := Op.targets before, completions := Op.continuations before } ∧
      (created pid registry).after (before ++ op :: rest) = (f.apply op).after rest := by
  refine ⟨_, rfl, ?_⟩
  have collected := after_pending (f := (created pid registry : FutureImpl U K F)) rfl waits
  rw [after_append, collected]
  rfl

/-! ## Everybody is told -/

theorem mem_remove {registry : List String} {pid : Option PID} {id : String} :
    id ∈ remove registry pid ↔ id ∈ registry ∧ pid.map PID.id ≠ some id := by
  cases pid with
  | none => simp [remove]
  | some pid =>
    rw [remove, List.mem_filter, decide_eq_true_iff, Option.map_some, Ne, Ne, Option.some.injEq, eq_comm]

/-- The outcome a completing call stands for. An explicit stop, a reply of null and
the dead-letter response stand for none in particular. -/
def Op.outcome : Op U K F → Option (Ptr U K × ErrorCode)
  | .sendUserMessage _ message =>
    match (unwrapEnvelope message).2.1 with
    | .null | .deadLetterResponse _ => none
    | payload => some (payload, .success)
  | .sendSystemMessage _ message => some (message, .success)
  | .timeout => some (.null, .timedOut)
  | _ => none

/-- The call is a reply: a user message with a payload other than a dead-letter response. -/
def Op.isReply : Op U K F → Bool
  | .sendUserMessage _ message =>
    match (unwrapEnvelope message).2.1 with
    | .null | .deadLetterResponse _ => false
    | _ => true
  | _ => false

/-- From the first completing call on, every answer and every call of a
continuation is one pair, the outcome of that call. -/
def Reports (pid : PID) (registry : List String) (ops : List (Op U K F)) : Prop :=
  ∀ before op rest, ops = before ++ op :: rest → (∀ o ∈ before, o.completes = false) → op.completes = true →
    ∃ pair, (∀ outcome, op.outcome = some outcome → pair = outcome) ∧
      ∀ later, later <+: rest →
        let f := (created pid registry).after (before ++ op :: later)
        f.answer = some pair ∧ ∀ call ∈ f.called, call.2 = pair

/-- Whatever comes later, the answer is the pair that the completing call left. -/
theorem answer_completed {pid : PID} {registry : List String} {before later : List (Op U K F)} {op : Op U K F}
    (waits : ∀ o ∈ before, o.completes = false) (completing : op.completes = true) :
    let f := (created pid registry).after (before ++ op :: later)
    f.answer = some (completed op) ∧ ∀ call ∈ f.called, call.2 = completed op := by
  obtain ⟨f, here, final⟩ := after_completion pid registry op later waits
  have pending : f.done = false := by rw [here]; rfl
  have nothing : f.called = [] := by rw [here]; rfl
  have fresh : (f.result, f.err) = (.null, .success) := by rw [here]; rfl
  have answered : (f.apply op).done = true ∧ ((f.apply op).result, (f.apply op).err) = completed op ∧
      ∀ call ∈ (f.apply op).called, call.2 = completed op := by
    by_cases late : op = .timeout
    · subst late
      rw [apply_timeout pending]
      refine ⟨rfl, ?_, by simp [nothing]⟩
      have null : f.result = .null := congrArg Prod.fst fresh
      simp [completed, null]
    · have notified := notified_apply pending fresh completing late
      refine ⟨notified.done, notified.answer, ?_⟩
      rw [notified.called, nothing]
      simp
  obtain ⟨done, answer, calls⟩ := answered
  have frozen := frozen_after done later
  rw [final]
  refine ⟨?_, ?_⟩
  · rw [FutureImpl.answer, if_pos frozen.done, frozen.result, frozen.err, answer]
  · rw [frozen.called, answer]
    intro call member
    rcases List.mem_append.1 member with early | late
    · exact calls call early
    · obtain ⟨_, -, rfl⟩ := List.mem_map.1 late
      rfl

/-- The completing call leaves its outcome unless it is a reply. -/
theorem completed_eq_outcome_iff {op : Op U K F} (completing : op.completes = true) :
    (∀ outcome, op.outcome = some outcome → completed op = outcome) ↔ op.isReply = false := by
  cases op with
  | sendUserMessage pid message =>
    simp only [Op.outcome, Op.isReply, completed]
    cases (unwrapEnvelope message).2.1 <;> simp [Ptr.isNull]
  | sendSystemMessage _ _ | stop _ | timeout => simp [Op.outcome, Op.isReply, completed]
  | continueWith _ | pipeTo _ => cases completing

/-- **The first outcome is reported** in exactly the orders whose first completing
call is not a reply. -/
theorem reports_iff (pid : PID) (registry : List String) (ops : List (Op U K F)) :
    Reports pid registry ops ↔ ∀ op, ops.find? Op.completes = some op → op.isReply = false := by
  constructor
  · intro reports op first
    obtain ⟨before, rest, split, completing, waits⟩ := split_at_completion first
    obtain ⟨pair, outcome, answers⟩ := reports before op rest split waits completing
    have answer := (answers [] List.nil_prefix).1
    rw [(answer_completed waits completing).1] at answer
    rw [← completed_eq_outcome_iff completing]
    intro o stands
    rw [Option.some.inj answer]
    exact outcome o stands
  · rintro honest before op rest rfl waits completing
    have first : (before ++ op :: rest).find? Op.completes = some op := by
      rw [List.find?_append, List.find?_eq_none.2 fun o member => by simp [waits o member]]
      simp [completing]
    exact ⟨completed op, (completed_eq_outcome_iff completing).2 (honest op first),
      fun later _ => answer_completed waits completing⟩

/-- The reply 42: the future says that the host is unreachable. -/
theorem reply_reported_unreachable :
    let ops : List (Op Nat Nat Nat) :=
      [.continueWith 7, .sendUserMessage (some ⟨0, "nonhost", "future1$"⟩) (.envelope none (.user 42) none)]
    let f := (created ⟨0, "nonhost", "future1$"⟩ []).after ops
    ¬ Reports ⟨0, "nonhost", "future1$"⟩ [] ops ∧ f.answer = some (.null, .hostUnreachable) ∧
      f.called = [(7, .null, .hostUnreachable)] := by
  refine ⟨fun reports => ?_, rfl, rfl⟩
  obtain ⟨pair, outcome, answers⟩ := reports [.continueWith 7] _ [] rfl (by decide) rfl
  have told : pair = (.user 42, .success) := outcome _ rfl
  have answer := (answers [] List.nil_prefix).1
  rw [told] at answer
  revert answer
  decide

end Protoactor.Actor.FutureImpl
