import Protoactor.Actor.Future.Locking.Discipline

/-!
# Self-deadlock

Careful runs never make a thread wait for itself, and each step of whoever has the lock is
paid for by the weight of its stack. The other steps are the ways into a self-deadlock.
-/

namespace Protoactor.Actor.FutureImpl.Locking
set_option autoImplicit false
open Lib

variable {U K F : Type}

variable {s s' : State U K F} {l : Label U K F}

/-! ## Progress -/

/-- The steps that are left to the thread while it has the lock. -/
def State.remaining (s : State U K F) (n : Nat) : Nat :=
  if s.owner = some n then weight s.future (s.threads[n]?.getD []) else 0

theorem Inside.weight_pos {f : FutureImpl U K F} {stack : List (Frame U K F)} (inside : Inside f stack) : 0 < weight f stack := by
  cases inside with
  | @entered call calm =>
    show 0 < weight f ([Frame.body call] ++ [Frame.unlock])
    rw [weight_guard]
    omega
  | running inner =>
    rw [weight_guard]
    omega

/-- A step of the owner is paid for, and those of the others cost nothing. -/
theorem remaining_step {n : Nat} (disciplined : Disciplined s) (own : s.owner = some n) (allowed : careful s l = true)
    (act : step s l = some s') : (if l.actor = some n then 1 else 0) + s'.remaining n ≤ s.remaining n := by
  obtain ⟨stack, here, inside⟩ := disciplined.owner n own
  have before : s.remaining n = weight s.future stack := by simp [State.remaining, own, here]
  have holder : ∀ {m}, s.owner = some m → m = n := by
    intro m other
    rw [own] at other
    exact (Option.some.inj other).symm
  have positive := inside.weight_pos
  rw [before]
  cases moves disciplined allowed act with
  | call call =>
    have after : ({ s with threads := s.threads ++ [[.lock call]] } : State U K F).remaining n = weight s.future stack := by
      simp [State.remaining, own, pool_grow here]
    simp [Label.actor, after]
  | enter free _ _ | look free _ =>
    rw [free] at own
    cases own
  | sleep other _ | leave other _ | throw other =>
    cases holder other
    simp only [State.remaining, Label.actor, reduceCtorEq, if_false, if_true, Nat.add_zero]
    omega
  | @inside _ m stack₀ stack' f' actor other there still less same =>
    cases holder other
    rw [here] at there
    cases there
    have after : ({ s.put n stack' with future := f' } : State U K F).remaining n = weight f' stack' := by
      simp [State.remaining, State.put, own, pool_put here]
    rw [after, if_pos actor]
    omega

theorem bounded_run {n : Nat} {ls : List (Label U K F)} (disciplined : Disciplined s)
    (run : Machine.Run step (fun t l => careful t l = true ∧ t.owner = some n) s ls s') :
    ls.countP (·.actor = some n) + s'.remaining n ≤ s.remaining n := by
  induction run with
  | nil => simp
  | @cons s s₁ s' l ls act allowed _ ih =>
    have here := remaining_step disciplined allowed.2 allowed.1 act
    have later := ih (disciplined_keeps _ _ _ disciplined allowed.1 act)
    rw [List.countP_cons]
    simp only [decide_eq_true_eq]
    omega

/-- What an owner does next. -/
theorem owner_moves {n : Nat} {stack : List (Frame U K F)} (here : s.threads[n]? = some stack) (inside : Inside s.future stack) :
    ∃ l : Label U K F, l.actor = some n ∧ (step s l).isSome := by
  cases inside with
  | @entered call calm =>
    refine ⟨.thread n, rfl, ?_⟩
    simp only [step, here]
    cases call with
    | result =>
      simp only [State.advance]
      split <;> rfl
    | op op => rfl
  | @running frames inner =>
    cases frames with
    | nil =>
      refine ⟨.thread n, rfl, ?_⟩
      simp only [step, here]
      rfl
    | cons frame frames =>
      have kind := inner frame List.mem_cons_self
      by_cases foreign : frame = .callback
      · subst foreign
        refine ⟨.callback n .returns, rfl, ?_⟩
        simp only [step, here]
        rfl
      · refine ⟨.thread n, rfl, ?_⟩
        simp only [step, here, List.cons_append]
        rw [advance_inner _ kind foreign, Option.isSome_map]
        exact inner_runs kind foreign

theorem Disciplined.live (disciplined : Disciplined s) : Live (fun s l => careful s l = true) s where
  free := by
    rintro n ⟨own, call, below, here⟩
    obtain ⟨stack, there, inside⟩ := disciplined.owner n own
    rw [here] at there
    cases there
    rcases inside_cons inside with ⟨call', same, -⟩ | ⟨same, -⟩ | ⟨kind, -⟩
    · cases same
    · cases same
    · cases kind
  moves := by
    intro n stack here some
    cases owner : s.owner with
    | none =>
      right
      refine ⟨.thread n, rfl, ?_⟩
      cases disciplined.others n stack here (by simp [owner]) with
      | ended => exact absurd rfl some
      | calling call => simp [step, here, State.advance, owner]
      | asleep => simp [step, here, State.advance, owner]
    | some m =>
      by_cases same : m = n
      · subst same
        obtain ⟨stack', there, inside⟩ := disciplined.owner m owner
        exact .inr (owner_moves there inside)
      · exact .inl ⟨m, same, rfl⟩
  ends := by
    intro n own
    refine ⟨s.remaining n, fun ls s' run => ?_⟩
    have bound := bounded_run disciplined run
    omega
  released := by
    intro n ended own
    obtain ⟨stack, there, inside⟩ := disciplined.owner n own
    rw [ended] at there
    cases there
    exact absurd inside.weight_pos (by simp [weight])

theorem disciplined_start (pid : PID) (registry : List String) : Disciplined (start pid registry : State U K F) :=
  ⟨nofun, nofun⟩

/-- An operation that will lock again has taken the lock. -/
theorem deadlock_of_reenters {n : Nat} {op : Op U K F} {below : List (Frame U K F)} (again : reenters op = true)
    (pending : s.future.done = false) (own : s.owner = some n) (here : s.threads[n]? = some (.body (.op op) :: below)) :
    ∃ s', step s (.thread n) = some s' ∧ s'.SelfDeadlock n := by
  have nested : ∃ f' pid, statements s.future op = (f', [.lock (.op (.stop pid))]) := by
    cases op with
    | sendUserMessage pid message =>
      simp only [statements, pending, Bool.false_eq_true, if_false]
      split <;> exact ⟨_, _, rfl⟩
    | sendSystemMessage pid message | timeout =>
      simp only [statements, pending, Bool.false_eq_true, if_false]
      exact ⟨_, _, rfl⟩
    | stop pid | pipeTo pids | continueWith continuation => cases again
  obtain ⟨f', pid, nested⟩ := nested
  refine ⟨{ s.put n (.lock (.op (.stop pid)) :: below) with future := f' }, ?_, own, .op (.stop pid), below, ?_⟩
  · simp [step, here, State.advance, Frame.run, nested]
  · exact pool_put here _

/-- **No thread locks `mutex_` twice**, in every run whose steps are careful, and every
operation gets to its end; a step that is not careful deadlocks its thread at once or in its
next step. -/
theorem deadlock_free {pid : PID} {registry : List String} {ls : List (Label U K F)}
    (run : Machine.Run step (fun s l => careful s l = true) (start pid registry) ls s) :
    Live (fun s l => careful s l = true) s ∧ ∀ l s', step s l = some s' → careful s l = false →
      ∃ n, s'.SelfDeadlock n ∨ ∃ s'', step s' (.thread n) = some s'' ∧ s''.SelfDeadlock n := by
  have disciplined := run.keeps disciplined_keeps (disciplined_start pid registry)
  refine ⟨disciplined.live, fun l s' act careless => ?_⟩
  cases l with
  | call call => cases careless
  | thread n =>
    refine ⟨n, .inr ?_⟩
    simp only [careful] at careless
    split at careless
    · rename_i op below here
      have facts : s.future.done = false ∧ reenters op = true := by simpa using careless
      simp only [step, here, State.advance] at act
      split at act
      · cases act
      · cases act
        exact deadlock_of_reenters facts.2 facts.1 rfl (pool_put here _)
    · cases careless
  | callback n outcome =>
    refine ⟨n, .inl ?_⟩
    cases outcome with
    | returns | throws => cases careless
    | calls call =>
      simp only [step] at act
      split at act
      · rename_i below here
        cases act
        exact ⟨disciplined.callback_owner here, call, _, pool_put here _⟩
      · cases act

/-- A continuation that returns, called by `Stop`. -/
theorem deadlock_free_stop : ∃ s, Machine.Run step (fun s l => careful s l = true) (start ⟨1, "nonhost", "future1"⟩ [])
      (.call (.op (.continueWith 7)) :: List.replicate 3 (.thread 0) ++ .call (.op (.stop none)) :: List.replicate 5 (.thread 1) ++
        [.callback 1 .returns, .thread 1, .thread 1]) s ∧
    Live (fun s l => careful s l = true) s ∧ ∀ l (s' : State Nat Nat Nat), step s l = some s' → careful s l = false →
      ∃ n, s'.SelfDeadlock n ∨ ∃ s'', step s' (.thread n) = some s'' ∧ s''.SelfDeadlock n := by
  have run : ∃ s : State Nat Nat Nat, Machine.Run step (fun s l => careful s l = true) (start ⟨1, "nonhost", "future1"⟩ [])
      (Label.call (.op (.continueWith 7)) :: List.replicate 3 (.thread 0) ++ Label.call (.op (.stop none)) :: List.replicate 5 (.thread 1) ++
        [Label.callback 1 .returns, .thread 1, .thread 1]) s := ⟨_, Machine.run_of_execChecked rfl⟩
  obtain ⟨s, run⟩ := run
  exact ⟨s, run, deadlock_free run⟩

/-- A reply: `SendSystemMessage` calls `Stop` with the mutex held. -/
theorem reply_deadlocks : ¬ ∀ (ls : List (Label Nat Nat Nat)) (s : State Nat Nat Nat),
    Machine.Run step Machine.free (start ⟨1, "nonhost", "future1"⟩ []) ls s → Live Machine.free s := by
  intro all
  have reply : ∃ s : State Nat Nat Nat, Machine.exec step (.call (.op (.sendSystemMessage none (.user 5))) :: List.replicate 2 (.thread 0))
      (start ⟨1, "nonhost", "future1"⟩ []) = some s ∧ s.SelfDeadlock 0 := ⟨_, rfl, rfl, _, _, rfl⟩
  obtain ⟨s, ran, deadlock⟩ := reply
  exact (all _ s (Machine.free_of_exec ran)).free 0 deadlock

/-! ## One operation after the other -/

/-- The callback leaves by an exception. -/
def Label.throws : Label U K F → Bool
  | .callback _ .throws => true
  | _ => false

/-- The future as it is once the owner of the lock is through. -/
def State.settled (s : State U K F) : FutureImpl U K F :=
  match s.owner with
  | none => s.future
  | some n => settle s.future (s.threads[n]?.getD [])

theorem settled_owner {n : Nat} {stack : List (Frame U K F)} (own : s.owner = some n) (here : s.threads[n]? = some stack) :
    s.settled = settle s.future stack := by
  simp [State.settled, own, here]

/-- **Serialization**: if no callback throws, what is done under the lock are the operations
of the future, each as if it took one step, in the order in which they took the lock. -/
theorem serial {pid : PID} {registry : List String} {ls : List (Label U K F)}
    (run : Machine.Run step (fun s l => careful s l = true ∧ l.throws = false) (start pid registry) ls s) :
    s.settled = (created pid registry).after s.entered := by
  have keeps : Machine.Keeps step (fun (s : State U K F) l => careful s l = true ∧ l.throws = false)
      fun s => Disciplined s ∧ s.settled = (created pid registry).after s.entered := by
    refine (disciplined_keeps.mono fun s l ok => ok.1).with ?_
    intro s l s' disciplined settled ⟨allowed, returns⟩ act
    cases moves disciplined allowed act with
    | call call =>
      by_cases owned : ∃ n, s.owner = some n
      · obtain ⟨n, owner⟩ := owned
        obtain ⟨stack, here, -⟩ := disciplined.owner n owner
        have there := pool_grow here [[.lock call]]
        rw [settled_owner owner here] at settled
        exact (settled_owner (s := { s with threads := s.threads ++ [[.lock call]] }) owner there).trans settled
      · have free : s.owner = none := Option.eq_none_iff_forall_ne_some.2 fun n own => owned ⟨n, own⟩
        simpa [State.settled, free] using settled
    | @enter n op free here calm =>
      have after : s.future = (created pid registry).after s.entered := by simpa [State.settled, free] using settled
      rw [settled_owner rfl (pool_put here _)]
      simp [FutureImpl.after, settle, Frame.settle, State.put, after]
    | @look n stack free here =>
      have after : s.future = (created pid registry).after s.entered := by simpa [State.settled, free] using settled
      rw [settled_owner rfl (pool_put here _)]
      simp [settle, Frame.settle, State.put, after]
    | sleep own here | leave own here =>
      rw [settled_owner own here] at settled
      exact settled
    | @inside _ n stack stack' f' actor own here still less same =>
      have there := pool_put here stack'
      rw [settled_owner own here] at settled
      exact (settled_owner (s := { s.put n stack' with future := f' }) own there).trans (same.trans settled)
    | throw own => cases returns
  exact (run.keeps keeps ⟨disciplined_start pid registry, rfl⟩).2

end Protoactor.Actor.FutureImpl.Locking
