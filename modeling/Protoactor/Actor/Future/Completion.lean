import Protoactor.Actor.Future

/-!
# How a future completes

A future is pending until its first completing call and frozen from then on. The lemmas
give the state in each phase: while pending only the two registration lists grow
(`after_pending`), and a frozen future keeps its answer, serves late registrations at once
and ignores everything else (`Frozen`). `Told` is what is promised to everybody who
registered; it is kept exactly when the completing call takes the future out of the
registry, which the timeout never does.
-/

namespace Protoactor.Actor.FutureImpl
set_option autoImplicit false

variable {U K F : Type}

theorem after_append (f : FutureImpl U K F) (ops ops' : List (Op U K F)) :
    f.after (ops ++ ops') = (f.after ops).after ops' := List.foldl_append

/-! ## Pending -/

theorem apply_pending {f : FutureImpl U K F} {op : Op U K F} (pending : f.done = false) (waits : op.completes = false) :
    f.apply op =
      { f with pipes := f.pipes ++ Op.targets [op], completions := f.completions ++ Op.continuations [op] } := by
  cases op with
  | continueWith continuation => simp [apply, continueWith, pending, Op.targets, Op.continuations]
  | pipeTo pids => simp [apply, pipeTo, pending, Op.targets, Op.continuations]
  | sendUserMessage _ _ | sendSystemMessage _ _ | stop _ | timeout => cases waits

/-- While pending, a future only collects registrations. -/
theorem after_pending {f : FutureImpl U K F} {ops : List (Op U K F)} (pending : f.done = false)
    (waits : ∀ op ∈ ops, op.completes = false) :
    f.after ops = { f with pipes := f.pipes ++ Op.targets ops, completions := f.completions ++ Op.continuations ops } := by
  induction ops generalizing f with
  | nil => simp [after, Op.targets, Op.continuations]
  | cons op ops ih =>
    have first := apply_pending pending (waits op List.mem_cons_self)
    have still : (f.apply op).done = false := by rw [first]; exact pending
    have rest := ih still fun op' member => waits op' (List.mem_cons_of_mem op member)
    show (f.apply op).after ops = _
    have targets := Op.targets_append [op] ops
    have continuations := Op.continuations_append [op] ops
    rw [List.singleton_append] at targets continuations
    rw [rest, first, targets, continuations]
    simp only [List.append_assoc]

/-! ## Frozen -/

theorem sendToPipes_eq (f : FutureImpl U K F) : f.sendToPipes =
    { f with piped := f.piped ++ f.pipes.map (·, if f.err ≠ .success then .errorCode f.err else f.result), pipes := [] } := by
  unfold sendToPipes
  split
  · rename_i empty
    obtain ⟨pid, done, result, err, pipes, completions, registry, piped, called⟩ := f
    subst empty
    simp
  · rfl

/-- `g` is `f`, already completed, after `ops`. -/
structure Frozen (f : FutureImpl U K F) (ops : List (Op U K F)) (g : FutureImpl U K F) : Prop where
  done : g.done = true
  result : g.result = f.result
  err : g.err = f.err
  registry : g.registry = f.registry
  called : g.called = f.called ++ (Op.continuations ops).map (·, f.result, f.err)
  piped : f.pipes = [] → g.pipes = [] ∧ g.piped.map Prod.fst = f.piped.map Prod.fst ++ Op.targets ops

/-- A completed future ignores what registers nobody. -/
theorem Frozen.ignored {f : FutureImpl U K F} {ops : List (Op U K F)} (done : f.done = true)
    (nobody : Op.continuations ops = [] ∧ Op.targets ops = []) : Frozen f ops f := by
  refine ⟨done, rfl, rfl, rfl, ?_, fun empty => ⟨empty, ?_⟩⟩
  · simp [nobody.1]
  · simp [nobody.2]

theorem frozen_apply {f : FutureImpl U K F} (done : f.done = true) (op : Op U K F) : Frozen f [op] (f.apply op) := by
  cases op with
  | continueWith continuation =>
    show Frozen f _ (f.continueWith continuation)
    rw [continueWith, if_pos done]
    exact ⟨done, rfl, rfl, rfl, rfl, fun empty => ⟨empty, by simp [Op.targets]⟩⟩
  | pipeTo pids =>
    show Frozen f _ (f.pipeTo pids)
    rw [pipeTo, if_pos done, sendToPipes_eq]
    refine ⟨done, rfl, rfl, rfl, by simp [Op.continuations], fun empty => ⟨rfl, ?_⟩⟩
    simp [empty, Op.targets, Function.comp_def]
  | sendUserMessage pid message =>
    show Frozen f _ (f.sendUserMessage pid message)
    rw [sendUserMessage, if_pos done]
    exact .ignored done ⟨rfl, rfl⟩
  | sendSystemMessage pid message =>
    show Frozen f _ (f.sendSystemMessage pid message)
    rw [sendSystemMessage, if_pos done]
    exact .ignored done ⟨rfl, rfl⟩
  | stop pid =>
    show Frozen f _ (f.stop pid)
    rw [stop, if_pos done]
    exact .ignored done ⟨rfl, rfl⟩
  | timeout =>
    show Frozen f _ f.timeout
    rw [timeout, if_pos done]
    exact .ignored done ⟨rfl, rfl⟩

theorem Frozen.trans {f g k : FutureImpl U K F} {ops ops' : List (Op U K F)} (first : Frozen f ops g)
    (second : Frozen g ops' k) : Frozen f (ops ++ ops') k := by
  refine ⟨second.done, second.result.trans first.result, second.err.trans first.err,
    second.registry.trans first.registry, ?_, ?_⟩
  · rw [second.called, first.called, first.result, first.err, Op.continuations_append, List.map_append, List.append_assoc]
  · intro empty
    obtain ⟨between, before⟩ := first.piped empty
    obtain ⟨last, after⟩ := second.piped between
    exact ⟨last, by rw [after, before, Op.targets_append, List.append_assoc]⟩

/-- A completed future never changes its answer. -/
theorem frozen_after {f : FutureImpl U K F} (done : f.done = true) (ops : List (Op U K F)) :
    Frozen f ops (f.after ops) := by
  induction ops generalizing f with
  | nil => exact .ignored done ⟨rfl, rfl⟩
  | cons op ops ih =>
    have first := frozen_apply done op
    exact first.trans (ih first.done)

/-! ## The completing call -/

/-- The pair that the completing call leaves. -/
def completed : Op U K F → Ptr U K × ErrorCode
  | .sendUserMessage _ message => (.null, if (unwrapEnvelope message).2.1.isNull then .success else .hostUnreachable)
  | .sendSystemMessage _ message => (message, .success)
  | .timeout => (.null, .timedOut)
  | _ => (.null, .success)

/-- `g` is `f`, pending until then, after a `Stop` that ran to its end. -/
structure Notified (f : FutureImpl U K F) (pid : Option PID) (pair : Ptr U K × ErrorCode) (g : FutureImpl U K F) :
    Prop where
  done : g.done = true
  answer : (g.result, g.err) = pair
  registry : g.registry = remove f.registry pid
  called : g.called = f.called ++ f.completions.map (·, pair)
  pipes : g.pipes = []
  piped : g.piped.map Prod.fst = f.piped.map Prod.fst ++ f.pipes

/-- `Stop` after the two writes of the answer. -/
theorem notified_stop {f : FutureImpl U K F} (pending : f.done = false) (pid : Option PID) (result : Ptr U K)
    (err : ErrorCode) : Notified f pid (result, err) ({ f with result := result, err := err }.stop pid) := by
  simp only [stop, pending, Bool.false_eq_true, if_false, sendToPipes_eq, runCompletions]
  exact ⟨rfl, rfl, rfl, rfl, rfl, by simp [Function.comp_def]⟩

/-- Every completing call but the timeout notifies. -/
theorem notified_apply {f : FutureImpl U K F} {op : Op U K F} (pending : f.done = false)
    (fresh : (f.result, f.err) = (.null, .success)) (completing : op.completes = true) (early : op ≠ .timeout) :
    Notified f op.pid (completed op) (f.apply op) := by
  have waiting : ¬ f.done = true := by simp [pending]
  cases op with
  | sendUserMessage pid message =>
    show Notified f pid _ (f.sendUserMessage pid message)
    rw [sendUserMessage, if_neg waiting]
    cases payload : (unwrapEnvelope message).2.1.isNull with
    | false => simpa [completed, payload] using notified_stop pending pid .null .hostUnreachable
    | true =>
      have null : (unwrapEnvelope message).2.1 = .null := by
        cases shape : (unwrapEnvelope message).2.1 <;> first | rfl | simp [shape, Ptr.isNull] at payload
      simpa [completed, null, Ptr.isNull] using notified_stop pending pid .null .success
  | sendSystemMessage pid message =>
    show Notified f pid _ (f.sendSystemMessage pid message)
    rw [sendSystemMessage, if_neg waiting]
    exact notified_stop pending pid message .success
  | stop pid =>
    have told := notified_stop pending pid f.result f.err
    rwa [fresh] at told
  | timeout => exact absurd rfl early
  | continueWith _ | pipeTo _ => cases completing

/-- The timeout completes a pending future and does nothing else. -/
theorem apply_timeout {f : FutureImpl U K F} (pending : f.done = false) :
    f.apply .timeout = { f with err := .timedOut, done := true } := by
  simp [apply, timeout, stop, pending]

/-- The first completing call splits a sequence of calls in two. -/
theorem split_at_completion {ops : List (Op U K F)} {op : Op U K F} (first : ops.find? Op.completes = some op) :
    ∃ before rest, ops = before ++ op :: rest ∧ op.completes = true ∧ ∀ o ∈ before, o.completes = false := by
  obtain ⟨completing, before, rest, split, waits⟩ := List.find?_eq_some_iff_append.1 first
  exact ⟨before, rest, split, completing, fun o member => by simpa using waits o member⟩

end Protoactor.Actor.FutureImpl
