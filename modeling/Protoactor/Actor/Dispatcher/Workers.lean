import Protoactor.Actor.Dispatcher.Projection
import Protoactor.Actor.Mailbox.Order

/-!
# The workers of the pool in the mailboxes (`dispatcher.cpp`, `mailbox.cpp`)

Every `ProcessMessages` call that is not over is the task that some worker is running, and no two
workers are in one call. With the exclusion of the mailbox this says that no two workers of the pool
are between taking and giving up the processing right of one mailbox (`one_worker`), though several
may be in its calls. A worker whose handler waits inside a `Shutdown` has not given the right up.
-/

namespace Protoactor.Actor.Dispatcher
set_option autoImplicit false
open Lib

variable {M : Type} {h : Nat → Handlers} {s s' : State M} {i : Nat}

/-- The worker runs a task of the mailbox. -/
def RunsFor (pool : ThreadPool Nat) (w i : Nat) : Prop := ∃ n, pool.workers[w]? = some (.running n i)

/-- The call that the worker is in is between taking and giving up the processing right of the mailbox. -/
def Holding (s : State M) (w i : Nat) : Prop :=
  RunsFor s.pool w i ∧ ∃ c, (s.slots i).calls[s.place w]? = some c ∧ c.holds = true

/-- Calls and workers belong together. -/
structure Placed (s : State M) : Prop where
  /-- a call that is not over is with a worker -/
  worked : ∀ i n c, (s.slots i).calls[n]? = some c → c.finished = false → ∃ w, RunsFor s.pool w i ∧ s.place w = n
  known : ∀ w i, RunsFor s.pool w i → s.place w < (s.slots i).calls.length
  distinct : ∀ w v i, RunsFor s.pool w i → RunsFor s.pool v i → s.place w = s.place v → w = v

namespace Placed

theorem start (numThreads : Nat) (cpuCount : Int) : Placed (State.start numThreads cpuCount : State M) := by
  have none_ : ∀ w i, ¬RunsFor (State.start numThreads cpuCount : State M).pool w i := by
    rintro w i ⟨n, here⟩
    cases List.eq_of_mem_replicate (List.mem_of_getElem? here)
  constructor
  case worked => exact fun _ _ _ here => nomatch here
  case known => exact fun w i runs => absurd runs (none_ w i)
  case distinct => exact fun w _ i runs => absurd runs (none_ w i)

/-- The calls and who runs them are as they were. -/
theorem same (placed : Placed s) (runs : ∀ w i, RunsFor s'.pool w i ↔ RunsFor s.pool w i)
    (calls : ∀ i, (s'.slots i).calls = (s.slots i).calls) (place : s'.place = s.place) : Placed s' := by
  constructor
  case worked =>
    intro i n c here busy
    rw [calls] at here
    rw [place]
    obtain ⟨w, at_, index⟩ := placed.worked i n c here busy
    exact ⟨w, (runs w i).2 at_, index⟩
  case known =>
    intro w i at_
    rw [calls, place]
    exact placed.known w i ((runs w i).1 at_)
  case distinct =>
    rw [place]
    exact fun w v i at_ at' => placed.distinct w v i ((runs w i).1 at_) ((runs v i).1 at')

end Placed

/-- A worker changes its place without a task begun. -/
theorem runsFor_set {pool : ThreadPool Nat} {w : Nat} {a : ThreadPool.Worker Nat} (b : ThreadPool.Worker Nat)
    (here : pool.workers[w]? = some a) (before : ∀ n i, a ≠ .running n i) (after : ∀ n i, b ≠ .running n i) (v i : Nat) :
    (∃ n, (pool.workers.set w b)[v]? = some (.running n i)) ↔ RunsFor pool v i := by
  by_cases own : w = v
  · subst own
    constructor
    · rintro ⟨n, now⟩
      rw [pool_put here b] at now
      exact absurd (Option.some.inj now) (after n i)
    · rintro ⟨n, past⟩
      rw [here] at past
      exact absurd (Option.some.inj past) (before n i)
  · rw [List.getElem?_set_ne own]
    rfl

/-- Tasks are begun and ended by their own steps. -/
theorem runsFor_step {pool pool' : ThreadPool Nat} {l : ThreadPool.Label Nat} (moved : pool.step l = some pool')
    (calm : ∀ w threw, l ≠ .run w ∧ l ≠ .finish w threw) (v i : Nat) : RunsFor pool' v i ↔ RunsFor pool v i := by
  cases ThreadPool.change_of_step moved with
  | run w => exact absurd rfl (calm w false).1
  | finish w n task threw => exact absurd rfl (calm w threw).2
  | refuse | accept | shutdown | shutdownNow | late | join | joinEnd | joinSelf => exact Iff.rfl
  | sleep w worker => exact runsFor_set .asleep worker nofun nofun v i
  | leave w worker => exact runsFor_set .returned worker nofun nofun v i
  | pop w task queue worker => exact runsFor_set (.taken _ task) worker nofun nofun v i
  | wake w worker => exact runsFor_set .ready worker nofun nofun v i

/-- A worker that is at a call runs a task of its mailbox. -/
theorem runsFor_of_at {w : Nat} {c : Worker M} (at_ : s.at_ w = some (i, c)) : RunsFor s.pool w i := by
  unfold State.at_ at at_
  split at at_
  · rename_i n j here
    split at at_
    · obtain ⟨c', -, same⟩ := Option.map_eq_some_iff.1 at_
      cases same
      exact ⟨n, here⟩
    · cases at_
  · cases at_

/-- A worker writes the call it is in. -/
theorem Placed.written (placed : Placed s) {w : Nat} {c : Worker M} (at_ : s.at_ w = some (i, c)) (b : DefaultMailbox M) (c' : Worker M) :
    Placed (s.put i { s.slots i with box := b, calls := (s.slots i).calls.set (s.place w) c' }) := by
  have runs : RunsFor s.pool w i := runsFor_of_at at_
  constructor
  case worked =>
    intro j n d here busy
    by_cases own : j = i
    · subst own
      simp only [State.put, if_true] at here
      by_cases same : s.place w = n
      · exact ⟨w, runs, same⟩
      · rw [List.getElem?_set_ne same] at here
        exact placed.worked j n d here busy
    · simp only [State.put, if_neg own] at here
      exact placed.worked j n d here busy
  case known =>
    intro v j runs
    have bound := placed.known v j runs
    by_cases own : j = i
    · subst own
      simpa [State.put] using bound
    · simpa [State.put, own] using bound
  case distinct => exact placed.distinct

/-- A worker begins a task. -/
theorem Placed.begun (placed : Placed s) {w n : Nat} {pool : ThreadPool Nat} (here : s.pool.workers[w]? = some (.taken n i))
    (begun : s.pool.step (.run w) = some pool) (c : Worker M) :
    Placed { s.put i { s.slots i with calls := (s.slots i).calls ++ [c] } with
      pool := pool, place := fun v => if v = w then (s.slots i).calls.length else s.place v } := by
  have workers : pool.workers = s.pool.workers.set w (.running n i) := by
    simp only [ThreadPool.step, here] at begun
    cases begun
    rfl
  have others : ∀ v j, RunsFor pool v j → v ≠ w → RunsFor s.pool v j := by
    rintro v j ⟨k, runs⟩ other
    rw [workers, List.getElem?_set_ne (Ne.symm other)] at runs
    exact ⟨k, runs⟩
  have own : ∀ j, RunsFor pool w j → j = i := by
    rintro j ⟨k, runs⟩
    rw [workers, pool_put here] at runs
    cases runs
    rfl
  constructor
  case worked =>
    intro j m d at_ busy
    have older : (s.slots j).calls[m]? = some d → ∃ v, RunsFor pool v j ∧ (if v = w then (s.slots i).calls.length else s.place v) = m := by
      intro old
      obtain ⟨v, ⟨k, runs⟩, index⟩ := placed.worked j m d old busy
      have other : v ≠ w := by
        rintro rfl
        rw [here] at runs
        cases runs
      refine ⟨v, ⟨k, ?_⟩, ?_⟩
      · rw [workers, List.getElem?_set_ne (Ne.symm other)]
        exact runs
      · rw [if_neg other]
        exact index
    by_cases same : j = i
    · subst same
      simp only [State.put, if_true] at at_
      rcases Nat.lt_or_ge m (s.slots j).calls.length with before | after
      · rw [List.getElem?_append_left before] at at_
        exact older at_
      · have last : m = (s.slots j).calls.length := by
          have bound := (List.getElem?_eq_some_iff.1 at_).1
          rw [List.length_append, List.length_singleton] at bound
          omega
        refine ⟨w, ⟨n, ?_⟩, ?_⟩
        · rw [workers]
          exact pool_put here _
        · rw [last]
          exact if_pos rfl
    · simp only [State.put, if_neg same] at at_
      exact older at_
  case known =>
    intro v j runs
    by_cases mine : v = w
    · subst mine
      have same := own j runs
      subst same
      simp [State.put]
    · have bound := placed.known v j (others v j runs mine)
      by_cases same : j = i
      · subst same
        simp only [State.put, if_neg mine, if_true, List.length_append, List.length_singleton]
        omega
      · simpa only [State.put, if_neg mine, if_neg same] using bound
  case distinct =>
    have apart : ∀ v, RunsFor pool v i → v ≠ w → s.place v ≠ (s.slots i).calls.length := by
      intro v runs other same
      have bound := placed.known v i (others v i runs other)
      omega
    intro v u j runs runs' same
    change (if v = w then (s.slots i).calls.length else s.place v) = if u = w then (s.slots i).calls.length else s.place u at same
    by_cases mine : v = w
    · by_cases mine' : u = w
      · rw [mine, mine']
      · subst mine
        have task := own j runs
        subst task
        rw [if_pos rfl, if_neg mine'] at same
        exact absurd same.symm (apart u runs' mine')
    · by_cases mine' : u = w
      · subst mine'
        have task := own j runs'
        subst task
        rw [if_neg mine, if_pos rfl] at same
        exact absurd same (apart v runs mine)
      · rw [if_neg mine, if_neg mine'] at same
        exact placed.distinct v u j (others v j runs mine) (others u j runs' mine') same

/-- A worker ends its task, which is over. -/
theorem Placed.ended (placed : Placed s) {w : Nat} {c : Worker M} {pool : ThreadPool Nat} (at_ : s.at_ w = some (i, c))
    (over_ : c.finished = true) (ended : s.pool.step (.finish w false) = some pool) : Placed (s.withPool pool) := by
  obtain ⟨n, here⟩ := runsFor_of_at at_
  have workers : pool.workers = s.pool.workers.set w .ready := by
    simp only [ThreadPool.step, here] at ended
    split at ended
    · cases ended
      rfl
    · cases ended
  have others : ∀ v j, RunsFor pool v j → v ≠ w ∧ RunsFor s.pool v j := by
    rintro v j ⟨k, runs⟩
    have other : v ≠ w := by
      rintro rfl
      rw [workers, pool_put here] at runs
      cases runs
    rw [workers, List.getElem?_set_ne (Ne.symm other)] at runs
    exact ⟨other, k, runs⟩
  constructor
  case worked =>
    intro j m d at' busy
    obtain ⟨v, ⟨k, runs⟩, index⟩ := placed.worked j m d at' busy
    have other : v ≠ w := by
      rintro rfl
      rw [here] at runs
      cases runs
      have mine := call_of_at at_
      rw [index] at mine
      rw [show (s.slots i).calls[m]? = some d from at'] at mine
      cases mine
      rw [over_] at busy
      cases busy
    refine ⟨v, ⟨k, ?_⟩, index⟩
    rw [show (s.withPool pool).pool.workers = _ from workers, List.getElem?_set_ne (Ne.symm other)]
    exact runs
  case known => exact fun v j runs => placed.known v j (others v j runs).2
  case distinct => exact fun v u j runs runs' => placed.distinct v u j (others v j runs).2 (others u j runs').2

/-- A post touches neither calls nor workers. -/
theorem Placed.posted (placed : Placed s) {j n : Nat} (moved : step h s (.poster j n) = some s') : Placed s' := by
  have kept : ∀ (b : DefaultMailbox M) (p : Post M) (k : Nat),
      ((s.put j ({ s.slots j with box := b }.setPost n p)).slots k).calls = (s.slots k).calls := by
    intro b p k
    by_cases own : k = j
    · subst own
      simp [State.put, Slot.setPost]
    · simp [State.put, own]
  simp only [step] at moved
  split at moved
  · cases moved
  · rename_i p here
    split at moved
    · cases moved
      unfold State.schedule
      split
      · refine placed.same (fun w i => ?_) (kept _ _) rfl
        exact runsFor_step (l := .submit (some j)) rfl (by simp) w i
      · split
        · exact placed.same (fun _ _ => Iff.rfl) (kept _ _) rfl
        · exact placed.same (fun _ _ => Iff.rfl) (kept _ _) rfl
    · obtain ⟨_, -, rfl⟩ := Option.map_eq_some_iff.1 moved
      exact placed.same (fun _ _ => Iff.rfl) (kept _ _) rfl

theorem placed_keeps : Machine.Keeps (step h) Machine.free (Placed (M := M)) := by
  intro s l s' placed _ moved
  have calm : ∀ {l' : ThreadPool.Label Nat}, (s.pool.step l').map (fun pool => s.withPool pool) = some s' →
      (∀ w threw, l' ≠ .run w ∧ l' ≠ .finish w threw) → Placed s' := by
    intro l' known others
    obtain ⟨pool, stepped, rfl⟩ := Option.map_eq_some_iff.1 known
    exact placed.same (runsFor_step stepped others) (fun _ => rfl) rfl
  cases l with
  | post j k message =>
    cases moved
    refine placed.same (fun _ _ => Iff.rfl) (fun i => ?_) rfl
    by_cases own : i = j
    · subst own
      simp [State.put]
    · simp [State.put, own]
  | poster j n => exact placed.posted moved
  | run w =>
    simp only [step] at moved
    split at moved
    · obtain ⟨pool, begun, rfl⟩ := Option.map_eq_some_iff.1 moved
      exact placed.begun ‹_› begun _
    · cases moved
  | worker w =>
    simp only [step] at moved
    split at moved
    · obtain ⟨⟨b, c'⟩, -, rfl⟩ := Option.map_eq_some_iff.1 moved
      exact placed.written ‹_› b c'
    · cases moved
  | raise w =>
    simp only [step] at moved
    split at moved
    · rename_i j c at_
      split at moved
      · cases moved
        exact placed.written at_ (s.slots j).box _
      · cases moved
    · cases moved
  | finish w =>
    simp only [step] at moved
    split at moved
    · split at moved
      · obtain ⟨pool, ended, rfl⟩ := Option.map_eq_some_iff.1 moved
        exact placed.ended ‹_› ‹_› ended
      · cases moved
    · cases moved
  | lock | wake | shutdown | shutdownNow | join => exact calm moved (by simp)

/-- **One worker to a mailbox**: of all the workers of a pool at most one is between taking and giving up the processing right
of a mailbox, whatever the posts, the other mailboxes and the callers of `Shutdown` do, and what it has invoked is what was
pushed first. -/
theorem one_worker {numThreads : Nat} {cpuCount : Int} {ls : List (Label M)}
    (run : Machine.Run (step h) Machine.free (State.start numThreads cpuCount) ls s) (i : Nat) :
    (∀ w v, Holding s w i → Holding s v i → w = v) ∧
      ∀ k, ((s.slots i).box.lane k).invoked <+: ((s.slots i).box.lane k).pushed.filterMap id := by
  obtain ⟨ls', alone, -⟩ := projected_run run i
  have placed := run.keeps placed_keeps (Placed.start numThreads cpuCount)
  constructor
  · rintro w v ⟨runs, c, here, holds⟩ ⟨runs', d, there, holds'⟩
    have one : (s.slots i).calls.countP Worker.holds ≤ 1 := Interleaving.Exclusive.one_call (Interleaving.exclusive_run alone) rfl
    have same : s.place w = s.place v := index_unique one here there holds holds'
    exact placed.distinct w v i runs runs' same
  · intro k
    obtain ⟨-, inOrder⟩ := alone.keeps Interleaving.inOrder_keeps ⟨Interleaving.exclusive_init, Interleaving.inOrder_init⟩
    exact (inOrder k).invoked

/-- Two workers, two mailboxes, a handler that waits inside `Shutdown` for the other worker, and a second post to its
mailbox. -/
def twoOfTwo : List (Label Nat) :=
  postTo 0 0 7 ++ postTo 1 0 8 ++ [.lock 1, .lock 0, .run 0, .run 1] ++ .replicate 5 (.worker 1) ++
    [.shutdown (some 1), .post 0 .user (some 9), .poster 0 1, .poster 0 1, .poster 0 1]

/-- Worker 1 waits inside a handler of mailbox 0. -/
def inShutdown (s : State Nat) : Bool :=
  s.at_ 1 == none && s.pool.workers[1]? == some (.running 0 0) && (s.slots 0).calls[s.place 1]?.any Worker.holds

theorem one_worker_two : ∃ s : State Nat, s.at_ 1 = none ∧ Holding s 1 0 ∧
    (∀ w v, Holding s w 0 → Holding s v 0 → w = v) ∧
      ∀ k, ((s.slots 0).box.lane k).invoked <+: ((s.slots 0).box.lane k).pushed.filterMap id := by
  obtain ⟨s, run, seen⟩ := Machine.run_of_any
    (show (Machine.exec (step fun _ => ⟨300⟩) twoOfTwo (State.start 2 8)).any inShutdown = true by decide)
  simp only [inShutdown, Bool.and_eq_true, beq_iff_eq, Option.any_eq_true] at seen
  obtain ⟨⟨waits, runs⟩, c, here, holds⟩ := seen
  exact ⟨s, waits, ⟨⟨0, runs⟩, c, here, holds⟩, one_worker run 0⟩

end Protoactor.Actor.Dispatcher
