import Protoactor.Actor.Dispatcher
import Protoactor.Actor.Mailbox.Delivery
import Protoactor.Lib.Simulation

/-!
# What a mailbox sees of the pool (`dispatcher.cpp`, `thread_pool.cpp`, `mailbox.cpp`)

The machine of one mailbox knows of its dispatcher only that a task is pending until it is started
or dropped. On the pool a task is pending in its queue, or with a worker that has popped it. So each
run of all the mailboxes on one pool is, for each mailbox, a run of its own machine
(`projected_run`), and what holds of a mailbox alone holds of it there. A task is dropped only where
the pool has been shut down.
-/

namespace Protoactor.Actor.Dispatcher
set_option autoImplicit false
open Lib

variable {M : Type} {h : Nat → Handlers} {s s' : State M} {i : Nat}

/-- A worker has popped a task of the mailbox and not begun it. -/
def tookFor (i : Nat) : ThreadPool.Worker Nat → Bool
  | .taken _ j => j = i
  | _ => false

/-- The tasks of the mailbox that are pending. -/
def waiting (i : Nat) (pool : ThreadPool Nat) : Nat := pool.queue.count i + pool.workers.countP (tookFor i)

/-- The mailbox alone. -/
def view (i : Nat) (s : State M) : Interleaving.State M :=
  ⟨(s.slots i).box, (s.slots i).posts.map Post.call, waiting i s.pool, (s.slots i).calls⟩

/-- What a post sees of its next step: where the pool is shut down its task is dropped. -/
def seenPost (s : State M) (n : Nat) (p : Post M) : List (Interleaving.Label M) :=
  if p.call.pc = .dispatch then
    if p.admitted then if s.pool.stop || s.pool.stopNow then [.poster n, .lose] else [.poster n]
    else if s.pool.stop then [.poster n, .lose] else []
  else [.poster n]

/-- **The steps of the mailbox** that a step of the pool and all the mailboxes is. -/
def seen (i : Nat) (s : State M) : Label M → List (Interleaving.Label M)
  | .post j k message => if j = i then [.post k message] else []
  | .poster j n => if j = i then ((s.slots i).posts[n]?.map (seenPost s n)).getD [] else []
  | .run w =>
    match s.pool.workers[w]? with
    | some (.taken _ j) => if j = i then [.start] else []
    | _ => []
  | .worker w =>
    match s.at_ w with
    | some (j, _) => if j = i then [.worker (s.place w)] else []
    | none => []
  | .raise w =>
    match s.at_ w with
    | some (j, _) => if j = i then [.raise (s.place w)] else []
    | none => []
  | .shutdownNow _ => if s.pool.stop then [] else .replicate (s.pool.queue.count i) .lose
  | _ => []

theorem view_withPool (pool : ThreadPool Nat) : view i (s.withPool pool) = { view i s with scheduled := waiting i pool } := rfl

theorem view_put_ne {j : Nat} (a : Slot M) (other : ¬j = i) : view i (s.put j a) = view i s := by
  have apart : ¬i = j := fun same => other same.symm
  unfold view State.put
  simp only [if_neg apart]

theorem view_put (a : Slot M) : view i (s.put i a) = ⟨a.box, a.posts.map Post.call, waiting i s.pool, a.calls⟩ := by
  unfold view State.put
  simp only [if_true]

/-! ## Pending tasks -/

theorem waiting_submit (j : Nat) (pool : ThreadPool Nat) :
    waiting i (pool.submit (some j)) =
      if pool.stop || pool.stopNow then waiting i pool else if j = i then waiting i pool + 1 else waiting i pool := by
  unfold ThreadPool.submit waiting
  dsimp only
  split
  · rfl
  · rw [List.count_append, List.count_singleton]
    by_cases same : j = i
    · subst same
      simp only [beq_self_eq_true, if_true]
      omega
    · simp only [beq_iff_eq, if_neg same, Nat.add_zero]

/-- The tasks after a worker has changed its place. -/
theorem waiting_set {pool : ThreadPool Nat} {w : Nat} {a b : ThreadPool.Worker Nat} (here : pool.workers[w]? = some a) :
    pool.queue.count i + (pool.workers.set w b).countP (tookFor i) + (if tookFor i a then 1 else 0) =
      waiting i pool + if tookFor i b then 1 else 0 := by
  have count := pool_count here b (tookFor i)
  unfold waiting
  omega

/-- A step of the pool that neither brings a task in, drops one, nor begins one. -/
theorem waiting_step {pool pool' : ThreadPool Nat} {l : ThreadPool.Label Nat} (moved : pool.step l = some pool')
    (calm : ∀ task worker w, l ≠ .submit task ∧ l ≠ .shutdownNow worker ∧ l ≠ .run w) : waiting i pool' = waiting i pool := by
  cases ThreadPool.change_of_step moved with
  | refuse task => exact absurd rfl (calm task none 0).1
  | accept task => exact absurd rfl (calm (some task) none 0).1
  | shutdownNow worker => exact absurd rfl (calm none worker 0).2.1
  | run w => exact absurd rfl (calm none none w).2.2
  | shutdown | late | join | joinEnd | joinSelf => rfl
  | sleep w worker => exact waiting_set worker
  | leave w worker => exact waiting_set worker
  | wake w worker => exact waiting_set worker
  | finish w n task threw worker => exact waiting_set worker
  | pop w task queue worker head =>
    have moves : queue.count i + (pool.workers.set w (.taken pool.left.length task)).countP (tookFor i) = waiting i pool := by
      have count := waiting_set (i := i) (b := .taken pool.left.length task) worker
      simp only [head, List.count_cons, tookFor, beq_iff_eq, decide_eq_true_eq, Bool.false_eq_true, if_false] at count
      split at count <;> omega
    exact moves

/-- A task is begun. -/
theorem waiting_run {pool pool' : ThreadPool Nat} {w n j : Nat} (here : pool.workers[w]? = some (.taken n j))
    (moved : pool.step (.run w) = some pool') : waiting i pool' + (if j = i then 1 else 0) = waiting i pool := by
  cases ThreadPool.change_of_step moved with
  | run w n' task worker =>
    rw [here] at worker
    cases worker
    have count := waiting_set (i := i) (b := .running n j) here
    simp only [tookFor, decide_eq_true_eq, Bool.false_eq_true, if_false] at count
    exact count
  | late worker l call =>
    rcases call with call | call
    · cases call
    · cases call

theorem waiting_shutdownNow {pool pool' : ThreadPool Nat} {worker : Option Nat} (moved : pool.step (.shutdownNow worker) = some pool') :
    waiting i pool' + (if pool.stop then 0 else pool.queue.count i) = waiting i pool := by
  cases ThreadPool.change_of_step moved with
  | shutdownNow _ open_ =>
    rw [open_]
    show List.count i [] + pool.workers.countP (tookFor i) + pool.queue.count i = waiting i pool
    unfold waiting
    rw [List.count_nil]
    omega
  | late _ _ _ stopped =>
    rw [stopped]
    rfl

/-! ## Steps -/

/-- Dropping the tasks that are pending one after the other. -/
theorem exec_lose (g : Handlers) (v : Interleaving.State M) (n : Nat) :
    Machine.exec (Interleaving.step g) (.replicate n .lose) { v with scheduled := v.scheduled + n } = some v := by
  induction n with
  | zero => rfl
  | succ n ih =>
    have first : Interleaving.step g { v with scheduled := v.scheduled + (n + 1) } .lose = some { v with scheduled := v.scheduled + n } := rfl
    rw [List.replicate_succ, Machine.exec_cons first]
    exact ih

theorem view_setPost (b : DefaultMailbox M) (n : Nat) (p : Post M) :
    view i (s.put i ({ s.slots i with box := b }.setPost n p)) =
      { view i s with box := b, posts := (view i s).posts.set n p.call } := by
  rw [view_put]
  unfold Slot.setPost view
  simp only [List.map_set]

/-- The call of the dispatcher, for the mailbox alone. -/
theorem handed {n : Nat} {c : PostCall M} {g : Handlers} {v : Interleaving.State M} (call : v.posts[n]? = some c)
    (pc : c.pc = .dispatch) : Interleaving.step g v (.poster n) =
      some { v with posts := v.posts.set n { c with pc := .returned }, scheduled := v.scheduled + 1 } := by
  simp only [Interleaving.step, call, pc]

/-- `DefaultDispatcherImpl::Schedule`. -/
theorem exec_schedule {g : Handlers} {n : Nat} {p : Post M} (call : (view i s).posts[n]? = some p.call) (pc : p.call.pc = .dispatch) :
    Machine.exec (Interleaving.step g) (seenPost s n p) (view i s) = some (view i (s.schedule i n p)) := by
  have first := handed (g := g) call pc
  have dropped : Interleaving.step g { view i s with
      posts := (view i s).posts.set n { p.call with pc := .returned }, scheduled := (view i s).scheduled + 1 } .lose =
      some { view i s with posts := (view i s).posts.set n { p.call with pc := .returned } } := rfl
  have returned := view_setPost (s := s) (i := i) (s.slots i).box n p.returned
  unfold seenPost State.schedule
  rw [if_pos pc]
  split
  · have after : view i ((s.put i ((s.slots i).setPost n p.returned)).withPool (s.pool.submit (some i))) =
        { view i s with
          posts := (view i s).posts.set n { p.call with pc := .returned }, scheduled := waiting i (s.pool.submit (some i)) } := by
      have put := view_withPool (s := s.put i ((s.slots i).setPost n p.returned)) (i := i) (s.pool.submit (some i))
      exact put.trans (congrArg (fun v : Interleaving.State M => { v with scheduled := waiting i (s.pool.submit (some i)) }) returned)
    rw [after, waiting_submit]
    split
    · rw [Machine.exec_cons first, Machine.exec_cons dropped]
      rfl
    · rw [if_pos rfl, Machine.exec_cons first]
      rfl
  · split
    · rw [Machine.exec_cons first, Machine.exec_cons dropped]
      exact congrArg some returned.symm
    · have kept := view_setPost (s := s) (i := i) (s.slots i).box n { p with admitted := true }
      have same : (view i s).posts.set n p.call = (view i s).posts := by
        obtain ⟨bound, here⟩ := List.getElem?_eq_some_iff.1 call
        rw [← here]
        exact List.set_getElem_self bound
      rw [same] at kept
      exact congrArg some kept.symm

/-- A post to the mailbox. -/
theorem exec_poster {n : Nat} {p : Post M} (here : (s.slots i).posts[n]? = some p) (moved : step h s (.poster i n) = some s') :
    Machine.exec (Interleaving.step (h i)) (seenPost s n p) (view i s) = some (view i s') := by
  have call : (view i s).posts[n]? = some p.call := by
    show ((s.slots i).posts.map Post.call)[n]? = some p.call
    rw [List.getElem?_map, here]
    rfl
  simp only [step, here] at moved
  split at moved
  · cases moved
    exact exec_schedule call ‹_›
  · rename_i pc
    obtain ⟨⟨b, c⟩, act, rfl⟩ := Option.map_eq_some_iff.1 moved
    have one : Interleaving.step (h i) (view i s) (.poster n) = some
        { view i s with box := b, posts := (view i s).posts.set n c } := by
      simp only [Interleaving.step, call]
      exact Option.map_eq_some_iff.2 ⟨(b, c), act, rfl⟩
    unfold seenPost
    rw [if_neg pc, view_setPost, Machine.exec_cons one]
    rfl

/-- A post to another mailbox. -/
theorem view_poster {j n : Nat} (other : ¬j = i) (moved : step h s (.poster j n) = some s') : view i s' = view i s := by
  simp only [step] at moved
  split at moved
  · cases moved
  · rename_i p here
    split at moved
    · cases moved
      unfold State.schedule
      split
      · rw [view_withPool, view_put_ne _ other, waiting_submit, if_neg other, ite_self]
        rfl
      · split
        · exact view_put_ne _ other
        · exact view_put_ne _ other
    · obtain ⟨_, -, rfl⟩ := Option.map_eq_some_iff.1 moved
      exact view_put_ne _ other

/-- A step of the pool that the mailbox does not see. -/
theorem view_pool {l : ThreadPool.Label Nat} (moved : (s.pool.step l).map (fun pool => s.withPool pool) = some s')
    (calm : ∀ task worker w, l ≠ .submit task ∧ l ≠ .shutdownNow worker ∧ l ≠ .run w) : view i s' = view i s := by
  obtain ⟨pool, step, rfl⟩ := Option.map_eq_some_iff.1 moved
  rw [view_withPool, waiting_step step calm]
  rfl

/-- What a worker is at is a call on its mailbox. -/
theorem call_of_at {w j : Nat} {c : Worker M} (at_ : s.at_ w = some (j, c)) : (s.slots j).calls[s.place w]? = some c := by
  unfold State.at_ at at_
  split at at_
  · split at at_
    · obtain ⟨c', here, same⟩ := Option.map_eq_some_iff.1 at_
      cases same
      exact here
    · cases at_
  · cases at_

/-- A worker begins a task. -/
theorem exec_run {w : Nat} (moved : step h s (.run w) = some s') :
    Machine.exec (Interleaving.step (h i)) (seen i s (.run w)) (view i s) = some (view i s') := by
  simp only [step] at moved
  split at moved
  · rename_i n j here
    obtain ⟨pool, begun, rfl⟩ := Option.map_eq_some_iff.1 moved
    have fewer := waiting_run (i := i) here begun
    simp only [seen, here]
    by_cases own : j = i
    · subst own
      rw [if_pos rfl] at fewer ⊢
      have pending : (view j s).scheduled = waiting j pool + 1 := fewer.symm
      have started : Interleaving.step (h j) (view j s) .start =
          some { view j s with scheduled := waiting j pool, calls := (view j s).calls ++ [Worker.processMessages (h j)] } := by
        simp only [Interleaving.step, pending]
      rw [Machine.exec_cons started]
      unfold view State.put
      simp only [if_true]
      rfl
    · rw [if_neg own, Nat.add_zero] at fewer
      rw [if_neg own]
      have apart : ¬i = j := fun same => own same.symm
      unfold view State.put
      simp only [if_neg apart, fewer]
      rfl
  · cases moved

/-- What a worker does in the call it is in. -/
theorem exec_worker {w : Nat} (moved : step h s (.worker w) = some s') :
    Machine.exec (Interleaving.step (h i)) (seen i s (.worker w)) (view i s) = some (view i s') := by
  simp only [step] at moved
  split at moved
  · rename_i j c at_
    obtain ⟨⟨b, c'⟩, act, rfl⟩ := Option.map_eq_some_iff.1 moved
    simp only [seen, at_]
    split
    · rename_i own
      subst own
      have here : (view j s).calls[s.place w]? = some c := call_of_at at_
      have one : Interleaving.step (h j) (view j s) (.worker (s.place w)) =
          some { view j s with box := b, calls := (view j s).calls.set (s.place w) c' } := by
        simp only [Interleaving.step, here]
        exact Option.map_eq_some_iff.2 ⟨(b, c'), act, rfl⟩
      rw [Machine.exec_cons one, view_put]
      rfl
    · exact congrArg some (view_put_ne _ ‹_›).symm
  · cases moved

theorem exec_raise {w : Nat} (moved : step h s (.raise w) = some s') :
    Machine.exec (Interleaving.step (h i)) (seen i s (.raise w)) (view i s) = some (view i s') := by
  simp only [step] at moved
  split at moved
  · rename_i j c at_
    split at moved
    · rename_i inside
      cases moved
      simp only [seen, at_]
      split
      · rename_i own
        subst own
        have here : (view j s).calls[s.place w]? = some c := call_of_at at_
        have one : Interleaving.step (h j) (view j s) (.raise (s.place w)) =
            some { view j s with calls := (view j s).calls.set (s.place w) { c with pc := .threw } } := by
          simp only [Interleaving.step, here]
          rw [if_pos inside]
        unfold State.setCall
        rw [Machine.exec_cons one, view_put]
        rfl
      · exact congrArg some (view_put_ne _ ‹_›).symm
    · cases moved
  · cases moved

/-- **Each step** is what its mailbox sees of it, and nothing to the others. -/
theorem exec_seen {l : Label M} (moved : step h s l = some s') :
    Machine.exec (Interleaving.step (h i)) (seen i s l) (view i s) = some (view i s') := by
  cases l with
  | post j k message =>
    cases moved
    simp only [seen]
    split
    · rename_i same
      subst same
      rw [view_put, List.map_append]
      rfl
    · rw [view_put_ne _ ‹_›]
      rfl
  | poster j n =>
    simp only [seen]
    split
    · rename_i same
      subst same
      cases here : (s.slots j).posts[n]? with
      | none =>
        simp only [step, here] at moved
        cases moved
      | some p => exact exec_poster here moved
    · exact congrArg some (view_poster ‹_› moved).symm
  | run w => exact exec_run moved
  | worker w => exact exec_worker moved
  | raise w => exact exec_raise moved
  | finish w =>
    simp only [step] at moved
    split at moved
    · split at moved
      · exact congrArg some (view_pool moved (by simp)).symm
      · cases moved
    · cases moved
  | lock w => exact congrArg some (view_pool moved (by simp)).symm
  | wake w => exact congrArg some (view_pool moved (by simp)).symm
  | shutdown worker => exact congrArg some (view_pool moved (by simp)).symm
  | shutdownNow worker =>
    obtain ⟨pool, shut, rfl⟩ := Option.map_eq_some_iff.1 moved
    have dropped := waiting_shutdownNow (i := i) shut
    rw [view_withPool]
    simp only [seen]
    split
    · rename_i stopped
      rw [if_pos stopped, Nat.add_zero] at dropped
      rw [dropped]
      rfl
    · rename_i open_
      rw [if_neg open_] at dropped
      have all := exec_lose (h i) { view i s with scheduled := waiting i pool } (s.pool.queue.count i)
      simp only [dropped] at all
      exact all
  | join c => exact congrArg some (view_pool moved (by simp)).symm

/-! ## The pool alone -/

/-- **Each step** is at most one of the pool. -/
theorem pool_step {l : Label M} (moved : step h s l = some s') :
    s'.pool = s.pool ∨ ∃ l' : ThreadPool.Label Nat, s.pool.step l' = some s'.pool := by
  have lifted : ∀ {l' : ThreadPool.Label Nat}, (s.pool.step l').map (fun pool => s.withPool pool) = some s' →
      ∃ l' : ThreadPool.Label Nat, s.pool.step l' = some s'.pool := by
    intro l' known
    obtain ⟨pool, stepped, rfl⟩ := Option.map_eq_some_iff.1 known
    exact ⟨l', stepped⟩
  cases l with
  | post j k message =>
    cases moved
    exact .inl rfl
  | poster j n =>
    simp only [step] at moved
    split at moved
    · cases moved
    · split at moved
      · cases moved
        unfold State.schedule
        split
        · exact .inr ⟨.submit (some j), rfl⟩
        · split
          · exact .inl rfl
          · exact .inl rfl
      · obtain ⟨_, -, rfl⟩ := Option.map_eq_some_iff.1 moved
        exact .inl rfl
  | run w =>
    simp only [step] at moved
    split at moved
    · obtain ⟨pool, stepped, rfl⟩ := Option.map_eq_some_iff.1 moved
      exact .inr ⟨.run w, stepped⟩
    · cases moved
  | worker w =>
    simp only [step] at moved
    split at moved
    · obtain ⟨_, -, rfl⟩ := Option.map_eq_some_iff.1 moved
      exact .inl rfl
    · cases moved
  | raise w =>
    simp only [step] at moved
    split at moved
    · split at moved
      · cases moved
        exact .inl rfl
      · cases moved
    · cases moved
  | finish w =>
    simp only [step] at moved
    split at moved
    · split at moved
      · exact .inr (lifted moved)
      · cases moved
    · cases moved
  | lock | wake | shutdown | shutdownNow | join => exact .inr (lifted moved)

/-- `ShutdownNow` stops the pool as well. -/
def Flagged (pool : ThreadPool Nat) : Prop := pool.stopNow = true → pool.stop = true

/-- A pool that was stopped stays so. -/
theorem pool_flags {l : ThreadPool.Label Nat} {pool pool' : ThreadPool Nat} (moved : pool.step l = some pool') (flagged : Flagged pool) :
    Flagged pool' ∧ (pool.stop = true → pool'.stop = true) := by
  cases ThreadPool.change_of_step moved with
  | shutdown | shutdownNow => exact ⟨fun _ => rfl, fun _ => rfl⟩
  | _ => exact ⟨flagged, id⟩

theorem flags_step {l : Label M} (moved : step h s l = some s') (flagged : Flagged s.pool) :
    Flagged s'.pool ∧ (s.pool.stop = true → s'.pool.stop = true) := by
  rcases pool_step moved with same | ⟨l', stepped⟩
  · rw [same]
    exact ⟨flagged, id⟩
  · exact pool_flags stepped flagged

theorem flags_keeps (ok : State M → Label M → Prop) : Machine.Keeps (step h) ok fun s => Flagged s.pool :=
  fun _ _ _ flagged _ moved => (flags_step moved flagged).1

theorem stop_of_seenPost {n : Nat} {p : Post M} (flagged : Flagged s.pool) (lost : .lose ∈ seenPost s n p) :
    p.call.pc = .dispatch ∧ s.pool.stop = true := by
  unfold seenPost at lost
  split at lost
  · rename_i pc
    refine ⟨pc, ?_⟩
    split at lost
    · split at lost
      · rename_i closed
        rcases Bool.or_eq_true_iff.1 closed with stopped | now
        · exact stopped
        · exact flagged now
      · simp at lost
    · split at lost
      · assumption
      · simp at lost
  · simp at lost

/-- Tasks are dropped where the pool is shut down, and nowhere else. -/
theorem stopped_of_lose {l : Label M} (moved : step h s l = some s') (flagged : Flagged s.pool) (lost : .lose ∈ seen i s l) :
    s'.pool.stop = true := by
  cases l with
  | poster j n =>
    simp only [seen] at lost
    split at lost
    · cases here : (s.slots i).posts[n]? with
      | none => simp [here] at lost
      | some p =>
        rw [here] at lost
        exact (flags_step moved flagged).2 (stop_of_seenPost flagged lost).2
    · simp at lost
  | shutdownNow worker =>
    obtain ⟨pool, shut, rfl⟩ := Option.map_eq_some_iff.1 moved
    cases ThreadPool.change_of_step shut with
    | shutdownNow => rfl
    | late _ _ _ stopped => exact stopped
  | post j k message =>
    simp only [seen] at lost
    split at lost <;> simp at lost
  | run w | worker w | raise w =>
    simp only [seen] at lost
    split at lost
    · split at lost <;> simp at lost
    · simp at lost
  | finish | lock | wake | shutdown | join => cases lost

theorem view_start (numThreads : Nat) (cpuCount : Int) : view i (State.start numThreads cpuCount : State M) = Interleaving.init := by
  have none_ : (ThreadPool.new numThreads cpuCount : ThreadPool Nat).workers.countP (tookFor i) = 0 :=
    pool_none (fun _ member => List.eq_of_mem_replicate member) rfl
  unfold view waiting State.start
  simp only [none_]
  rfl

/-- The run of a mailbox, from any state. -/
theorem projected_from {ls : List (Label M)} (run : Machine.Run (step h) Machine.free s ls s') (flagged : Flagged s.pool) (i : Nat) :
    ∃ ls', Machine.Run (Interleaving.step (h i)) Machine.free (view i s) ls' (view i s') ∧
      (s'.pool.stop = false → .lose ∉ ls') ∧ (s.pool.stop = true → s'.pool.stop = true) := by
  induction run with
  | nil => exact ⟨[], .nil _, fun _ => List.not_mem_nil, id⟩
  | @cons s s₁ t l ls moved _ _ ih =>
    obtain ⟨flagged', kept⟩ := flags_step moved flagged
    obtain ⟨ls', later, whole, still⟩ := ih flagged'
    refine ⟨seen i s l ++ ls', (Machine.free_of_exec (exec_seen moved)).append later, fun open_ member => ?_, still ∘ kept⟩
    rcases List.mem_append.1 member with now | after
    · rw [still (stopped_of_lose moved flagged now)] at open_
      cases open_
    · exact whole open_ after

/-- **A mailbox on a pool** is a mailbox alone: whatever the workers, the other mailboxes and the callers of `Shutdown` do,
it makes a run of its own machine, in which no task is dropped as long as the pool has not been shut down. -/
theorem projected_run {numThreads : Nat} {cpuCount : Int} {ls : List (Label M)}
    (run : Machine.Run (step h) Machine.free (State.start numThreads cpuCount) ls s) (i : Nat) :
    ∃ ls', Machine.Run (Interleaving.step (h i)) Machine.free Interleaving.init ls' (view i s) ∧
      (s.pool.stop = false → .lose ∉ ls') := by
  obtain ⟨ls', alone, whole, -⟩ := projected_from run nofun i
  rw [view_start] at alone
  exact ⟨ls', alone, whole⟩

/-- A post to the mailbox that hands its task to the pool. -/
def postTo (i n m : Nat) : List (Label Nat) := .post i .user (some m) :: .replicate 5 (.poster i n)

/-- One worker and two mailboxes. -/
theorem projected_run_two : ∃ s : State Nat, (s.slots 1).box.user.invoked = [8] ∧ s.pool.stop = false ∧
    ∃ ls', Machine.Run (Interleaving.step ⟨300⟩) Machine.free Interleaving.init ls' (view 1 s) ∧ .lose ∉ ls' := by
  obtain ⟨s, run, seen⟩ := Machine.run_of_any
    (p := fun s : State Nat => decide ((s.slots 1).box.user.invoked = [8] ∧ s.pool.stop = false))
    (show (Machine.exec (step fun _ => ⟨300⟩) (postTo 0 0 7 ++ postTo 1 0 8 ++ [.lock 0, .run 0] ++ .replicate 13 (.worker 0) ++
      [.finish 0, .lock 0, .run 0] ++ .replicate 5 (.worker 0)) (State.start 1 8)).any _ = true by decide)
  obtain ⟨invoked, open_⟩ := of_decide_eq_true seen
  obtain ⟨ls', alone, whole⟩ := projected_run run 1
  exact ⟨s, invoked, open_, ls', alone, whole open_⟩

end Protoactor.Actor.Dispatcher
