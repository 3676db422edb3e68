import Protoactor.Actor.Dispatcher.Notified
import Protoactor.Actor.Mailbox.Cascade

/-!
# Everything that was posted is processed (`dispatcher.cpp`, `thread_pool.cpp`, `mailbox.cpp`)

The steps that the posts, the workers and the calls that join can make are bounded as long as nobody
posts and nobody wakes a worker without notification: `left` weighs the posts, the messages in the
queues, the tasks and the calls of the workers by the steps that they can still cause. With
`stuck_delivered` the mailboxes come to rest, and at rest all that was posted has been invoked
(`comes_to_rest`).
-/

namespace Protoactor.Actor.Dispatcher
set_option autoImplicit false
open Lib

variable {M : Type} {h : Nat → Handlers} {s t : State M} {i N : Nat}

/-! ## What is left to do -/

/-- The steps left to a `ProcessMessages` call, but for those that the messages in the queues cost. -/
def callLeft (c : Worker M) : Nat := 10 * (maxRounds - c.round) + c.pc.rank

/-- A bound for those of a new call. -/
def callLimit : Nat := 10 * maxRounds + 9

def Post.left (p : Post M) : Nat :=
  p.call.pc.rank + if p.call.pc = .returned then 0 else callLimit + if p.admitted then 0 else 1

def Slot.left (a : Slot M) : Nat := 10 * a.box.size + (a.posts.map Post.left).sum

def workerLeft (s : State M) (w : Nat) : Nat :=
  match s.pool.workers[w]? with
  | some .ready => 1
  | some (.taken _ _) => callLimit + 3
  | some (.running _ i) => 2 + (((s.slots i).calls[s.place w]?).map callLeft).getD 0
  | _ => 0

def slotsLeft (N : Nat) (s : State M) : Nat := ((List.range N).map fun i => (s.slots i).left).sum

def workersLeft (s : State M) : Nat := ((List.range s.pool.workers.length).map (workerLeft s)).sum

def callersLeft (pool : ThreadPool Nat) : Nat := (pool.callers.map (ThreadPool.Caller.rest pool.workers.length)).sum

/-- All that is left to do on the first `N` mailboxes and in the pool. -/
def left (N : Nat) (s : State M) : Nat :=
  slotsLeft N s + (callLimit + 3) * s.pool.queue.length + workersLeft s + callersLeft s.pool

/-- A call that goes around again has used up a round. -/
theorem callLeft_nextRound (g : Handlers) (c : Worker M) :
    callLeft (Worker.nextRound g { c with round := c.round + 1 }) < 10 * (maxRounds - c.round) + 2 := by
  unfold callLeft Worker.nextRound
  split
  · rename_i more
    have round : (Worker.processLoop g { c with round := c.round + 1 }).round = c.round + 1 := by
      unfold Worker.processLoop Worker.iterate
      split <;> rfl
    have low : (Worker.processLoop g { c with round := c.round + 1 }).pc.rank ≤ 9 := Worker.rank_iterate _
    have more' : c.round + 1 < maxRounds := more
    rw [round]
    omega
  · show 10 * (maxRounds - (c.round + 1)) + 1 < 10 * (maxRounds - c.round) + 2
    omega

/-- A step of a call lowers what is left of it and of its mailbox. -/
theorem callLeft_step {g : Handlers} {b b' : DefaultMailbox M} {c c' : Worker M} (act : c.step g b = some (b', c')) :
    10 * b'.size + callLeft c' < 10 * b.size + callLeft c := by
  by_cases tail : c.pc = .reacquire
  · have here : callLeft c = 10 * (maxRounds - c.round) + 2 := by
      unfold callLeft
      rw [tail]
      rfl
    rw [here]
    cases Worker.act act with
    | reacquire => exact Nat.add_lt_add_left (callLeft_nextRound g c) (10 * b.size)
    | overtaken =>
      show 10 * b.size + (10 * (maxRounds - c.round) + 1) < 10 * b.size + (10 * (maxRounds - c.round) + 2)
      omega
    | take pc | miss pc | fetchSub pc | invoke pc | handled pc | suspended pc | active pc | storeIdle pc | loadSys pc | loadUser pc
    | again pc | drained pc =>
      rw [tail] at pc
      cases pc
  · have lower := (Worker.step_rank act tail).1
    have same : c'.round = c.round := by
      cases Worker.act act with
      | reacquire pc => exact absurd pc tail
      | @miss k => cases k <;> rfl
      | handled =>
        unfold Worker.iterate
        split <;> rfl
      | _ => rfl
    unfold callLeft
    rw [same]
    omega

theorem callLeft_new (g : Handlers) : callLeft (Worker.processMessages g : Worker M) ≤ callLimit := by
  have low := Worker.rank_processMessages (h := g) (M := M)
  unfold callLeft callLimit
  omega

/-! ## Mailboxes that nobody has posted to -/

/-- Only the first `N` mailboxes have been posted to. -/
def Within (N : Nat) (s : State M) : Prop := ∀ i, N ≤ i → view i s = Interleaving.init

/-- A mailbox that nobody posts to makes no steps. -/
theorem init_exec {g : Handlers} {ls : List (Interleaving.Label M)} {v : Interleaving.State M}
    (run : Machine.exec (Interleaving.step g) ls Interleaving.init = some v) (silent : ∀ k message, .post k message ∉ ls) :
    v = Interleaving.init := by
  cases ls with
  | nil =>
    cases run
    rfl
  | cons l ls =>
    cases l with
    | post k message => exact absurd List.mem_cons_self (silent k message)
    | poster | start | lose | worker | raise => cases run

theorem post_of_seen {l : Label M} {k : Kind} {message : Option M} (member : .post k message ∈ seen i s l) : l = .post i k message := by
  cases l with
  | post j k' message' =>
    simp only [seen] at member
    split at member
    · rename_i own
      cases List.mem_singleton.1 member
      rw [own]
    · cases member
  | poster j n =>
    simp only [seen] at member
    split at member
    · cases here : (s.slots i).posts[n]? with
      | none => simp [here] at member
      | some p =>
        simp only [here, Option.map_some, Option.getD_some, seenPost] at member
        repeat' split at member
        all_goals simp at member
    · cases member
  | run | worker | raise | shutdownNow =>
    simp only [seen] at member
    repeat' split at member
    all_goals simp at member
  | finish | lock | wake | shutdown | join => cases member

theorem within_step {l : Label M} (within : Within N s) (moved : step h s l = some t) (silent : ∀ i k message, l ≠ .post i k message) :
    Within N t := by
  intro i late
  have seen_ := exec_seen (i := i) moved
  rw [within i late] at seen_
  exact init_exec seen_ fun k message member => silent i k message (post_of_seen member)

theorem within_post {j : Nat} {k : Kind} {message : Option M} (within : Within N s) (moved : step h s (.post j k message) = some t) :
    Within (max N (j + 1)) t := by
  intro i late
  have seen_ := exec_seen (i := i) moved
  rw [within i (by omega)] at seen_
  refine init_exec seen_ fun k' message' member => ?_
  cases post_of_seen member
  omega

theorem within_keeps : Machine.Keeps (step h) Orderly fun s : State M => ∃ N, Within N s := by
  intro s l t ⟨N, within⟩ _ moved
  by_cases posts : ∃ i k message, l = .post i k message
  · obtain ⟨j, k, message, rfl⟩ := posts
    exact ⟨max N (j + 1), within_post within moved⟩
  · exact ⟨N, within_step within moved fun i k message same => posts ⟨i, k, message, same⟩⟩

/-! ## Every step lowers it -/

/-- One mailbox changes. -/
theorem slotsLeft_change (inside : i < N) (others : ∀ j, j ≠ i → t.slots j = s.slots j) :
    slotsLeft N t + (s.slots i).left = slotsLeft N s + (t.slots i).left :=
  range_sum (f := fun j => (s.slots j).left) (g := fun j => (t.slots j).left) inside fun j other => congrArg Slot.left (others j other)

theorem slots_put (a : Slot M) (s : State M) : (∀ j, j ≠ i → (s.put i a).slots j = s.slots j) ∧ (s.put i a).slots i = a :=
  ⟨fun _ other => if_neg other, if_pos rfl⟩

/-- One mailbox is written. -/
theorem slotsLeft_put (inside : i < N) (a : Slot M) : slotsLeft N (s.put i a) + (s.slots i).left = slotsLeft N s + a.left := by
  obtain ⟨others, own⟩ := slots_put a s
  have change := slotsLeft_change inside others
  rwa [own] at change

/-- One worker changes what is left to it. -/
theorem workersLeft_change {w : Nat} {a : ThreadPool.Worker Nat} (here : s.pool.workers[w]? = some a)
    (length : t.pool.workers.length = s.pool.workers.length) (others : ∀ v, v ≠ w → workerLeft t v = workerLeft s v) :
    workersLeft t + workerLeft s w = workersLeft s + workerLeft t w := by
  have inside : w < s.pool.workers.length := (List.getElem?_eq_some_iff.1 here).1
  unfold workersLeft
  rw [length]
  exact range_sum inside others

/-- A worker that is where it was, in a call that is what it was. -/
theorem workerLeft_same {v : Nat} (worker : t.pool.workers[v]? = s.pool.workers[v]?)
    (call : ∀ i, RunsFor s.pool v i → (t.slots i).calls[t.place v]? = (s.slots i).calls[s.place v]?) : workerLeft t v = workerLeft s v := by
  unfold workerLeft
  rw [worker]
  cases here : s.pool.workers[v]? with
  | none => rfl
  | some a =>
    cases a with
    | running n i =>
      dsimp only
      rw [call i ⟨n, here⟩]
    | ready | asleep | taken | returned => rfl

theorem workerLeft_running {w n : Nat} {c : Worker M} (here : s.pool.workers[w]? = some (.running n i))
    (call : (s.slots i).calls[s.place w]? = some c) : workerLeft s w = 2 + callLeft c := by
  simp only [workerLeft, here, call, Option.map_some, Option.getD_some]

theorem workersLeft_same (workers : t.pool.workers = s.pool.workers) (place : t.place = s.place)
    (calls : ∀ i, (t.slots i).calls = (s.slots i).calls) : workersLeft t = workersLeft s := by
  have same : workerLeft t = workerLeft s := funext fun w => workerLeft_same (by rw [workers]) fun i _ => by rw [calls, place]
  unfold workersLeft
  rw [workers, same]

/-- The others are where they were. -/
theorem workerLeft_other {pool : ThreadPool Nat} {w v : Nat} {b : ThreadPool.Worker Nat} (workers : pool.workers = s.pool.workers.set w b)
    (other : v ≠ w) : workerLeft (s.withPool pool) v = workerLeft s v := by
  refine workerLeft_same ?_ fun _ _ => rfl
  show pool.workers[v]? = _
  rw [workers, List.getElem?_set_ne (Ne.symm other)]

/-- A post to a mailbox is on it. -/
theorem inside_of_post (within : Within N s) {n : Nat} {p : Post M} (here : (s.slots i).posts[n]? = some p) : i < N := by
  by_contra late
  have none_ : (s.slots i).posts.map Post.call = [] := congrArg Interleaving.State.posts (within i (Nat.not_lt.1 late))
  rw [List.map_eq_nil_iff.1 none_] at here
  cases here

theorem inside_of_call (within : Within N s) {n : Nat} {c : Worker M} (here : (s.slots i).calls[n]? = some c) : i < N := by
  by_contra late
  have none_ : (s.slots i).calls = [] := congrArg Interleaving.State.calls (within i (Nat.not_lt.1 late))
  rw [none_] at here
  cases here

theorem inside_of_taken (within : Within N s) {w n : Nat} (here : s.pool.workers[w]? = some (.taken n i)) : i < N := by
  by_contra late
  have none_ : waiting i s.pool = 0 := congrArg Interleaving.State.scheduled (within i (Nat.not_lt.1 late))
  have some_ : 0 < s.pool.workers.countP (tookFor i) := List.countP_pos_iff.2 ⟨_, List.mem_of_getElem? here, by simp [tookFor]⟩
  unfold waiting at none_
  omega

/-- A post is written, with the box of its mailbox. -/
theorem slotLeft_post (a : Slot M) {n : Nat} {p p' : Post M} (here : a.posts[n]? = some p) (b : DefaultMailbox M) :
    ({ a with box := b }.setPost n p').left + 10 * a.box.size + p.left = a.left + 10 * b.size + p'.left := by
  have sum := pool_sum here p' Post.left
  unfold Slot.left Slot.setPost
  dsimp only
  omega

theorem workersLeft_setPost (n : Nat) (p : Post M) (b : DefaultMailbox M) :
    workersLeft (s.put i ({ s.slots i with box := b }.setPost n p)) = workersLeft s := by
  refine workersLeft_same rfl rfl fun j => ?_
  by_cases same : j = i
  · subst same
    simp [State.put, Slot.setPost]
  · simp [State.put, same]

/-- A post that goes on without the pool. -/
theorem left_setPost (inside : i < N) {n : Nat} {p p' : Post M} (here : (s.slots i).posts[n]? = some p) (b : DefaultMailbox M)
    (lower : 10 * b.size + p'.left < 10 * (s.slots i).box.size + p.left) :
    left N (s.put i ({ s.slots i with box := b }.setPost n p')) < left N s := by
  have slots := slotsLeft_put inside ({ s.slots i with box := b }.setPost n p') (s := s)
  have own : ({ s.slots i with box := b }.setPost n p').left + 10 * (s.slots i).box.size + p.left = (s.slots i).left + 10 * b.size + p'.left :=
    slotLeft_post (s.slots i) here b
  have pool : (s.put i ({ s.slots i with box := b }.setPost n p')).pool = s.pool := rfl
  unfold left
  rw [workersLeft_setPost, pool]
  omega

theorem submit_same (pool : ThreadPool Nat) (i : Nat) :
    (pool.submit (some i)).workers = pool.workers ∧ (pool.submit (some i)).callers = pool.callers := by
  unfold ThreadPool.submit
  dsimp only
  split <;> exact ⟨rfl, rfl⟩

/-- What a task and a notification cost. -/
theorem poolLeft_submit {woken : Option Nat} {pool : ThreadPool Nat} (moved : s.pool.notifying (.submit i woken) = some pool) :
    (callLimit + 3) * pool.queue.length + workersLeft (s.withPool pool) + callersLeft pool ≤
      (callLimit + 3) * s.pool.queue.length + workersLeft s + callersLeft s.pool + (callLimit + 4) := by
  obtain ⟨workers, callers⟩ := submit_same s.pool i
  have queued : (s.pool.stop || s.pool.stopNow) = false → (callLimit + 3) * (s.pool.submit (some i)).queue.length =
      (callLimit + 3) * s.pool.queue.length + (callLimit + 3) := by
    intro open_
    simp only [ThreadPool.submit, open_, Bool.false_eq_true, if_false, List.length_append, List.length_singleton, Nat.mul_add, Nat.mul_one]
  cases ThreadPool.notice_of_notifying moved with
  | refused => exact Nat.le_add_right _ _
  | unheard _ open_ =>
    have same : workersLeft (s.withPool (s.pool.submit (some i))) = workersLeft s := workersLeft_same workers rfl fun _ => rfl
    unfold callersLeft
    rw [queued open_, same, callers, workers]
    omega
  | heard _ w open_ here =>
    have change := workersLeft_change (t := s.withPool { s.pool.submit (some i) with workers := s.pool.workers.set w .ready }) here
      (List.length_set ..) fun v other => workerLeft_other rfl other
    have before : workerLeft s w = 0 := by simp [workerLeft, here]
    have after : workerLeft (s.withPool { s.pool.submit (some i) with workers := s.pool.workers.set w .ready }) w = 1 := by
      simp [workerLeft, State.withPool, pool_put here]
    have calls : callersLeft { s.pool.submit (some i) with workers := s.pool.workers.set w .ready } = callersLeft s.pool := by
      unfold callersLeft
      dsimp only
      rw [callers, List.length_set]
    rw [calls]
    show (callLimit + 3) * (s.pool.submit (some i)).queue.length + _ + _ ≤ _
    rw [queued open_]
    omega

/-- A post that submits its task. -/
theorem left_submit (inside : i < N) {n : Nat} {p : Post M} (here : (s.slots i).posts[n]? = some p) (pc : p.call.pc = .dispatch)
    {woken : Option Nat} {pool : ThreadPool Nat} (moved : s.pool.notifying (.submit i woken) = some pool) :
    left N ((s.put i ((s.slots i).setPost n p.returned)).withPool pool) < left N s := by
  have before : callLimit + 11 ≤ p.left := by
    unfold Post.left
    rw [pc]
    simp only [PostPc.rank]
    split
    · cases ‹PostPc.dispatch = _›
    · omega
  have after : p.returned.left = 1 := rfl
  have slots := slotsLeft_put inside ((s.slots i).setPost n p.returned) (s := s)
  have own : ((s.slots i).setPost n p.returned).left + 10 * (s.slots i).box.size + p.left =
      (s.slots i).left + 10 * (s.slots i).box.size + p.returned.left := slotLeft_post (s.slots i) here (s.slots i).box
  have same : slotsLeft N ((s.put i ((s.slots i).setPost n p.returned)).withPool pool) =
      slotsLeft N (s.put i ((s.slots i).setPost n p.returned)) := rfl
  suffices rest : (callLimit + 3) * pool.queue.length + workersLeft ((s.put i ((s.slots i).setPost n p.returned)).withPool pool) +
      callersLeft pool ≤ (callLimit + 3) * s.pool.queue.length + workersLeft s + callersLeft s.pool + (callLimit + 4) by
    unfold left
    rw [same, show ((s.put i ((s.slots i).setPost n p.returned)).withPool pool).pool = pool from rfl]
    omega
  have posted : workersLeft (s.put i ((s.slots i).setPost n p.returned)) = workersLeft s := workersLeft_setPost n p.returned (s.slots i).box
  rw [← posted]
  exact poolLeft_submit (s := s.put i ((s.slots i).setPost n p.returned)) moved

theorem left_poster (within : Within N s) {n : Nat} {woken : Option Nat} (moved : notifying h s (.poster i n woken) = some t) :
    left N t < left N s := by
  simp only [notifying] at moved
  split at moved
  · cases moved
  · rename_i p here
    have inside := inside_of_post within here
    split at moved
    · rename_i submitting
      obtain ⟨pool, stepped, rfl⟩ := Option.map_eq_some_iff.1 moved
      exact left_submit inside here submitting.1 stepped
    · rename_i other
      split at moved
      · simp only [step, here] at moved
        split at moved
        · rename_i pc
          have admitted : ¬p.admitted = true := fun admitted => other ⟨pc, admitted⟩
          have before : p.left = callLimit + 12 := by
            unfold Post.left
            rw [pc, if_neg (by decide), if_neg admitted]
            simp only [PostPc.rank]
            omega
          cases moved
          unfold State.schedule
          rw [if_neg admitted]
          split
          · have after : p.returned.left = 1 := rfl
            exact left_setPost inside here (s.slots i).box (by omega)
          · have after : Post.left { p with admitted := true } = callLimit + 11 := by
              unfold Post.left
              dsimp only
              rw [pc, if_neg (by decide), if_pos rfl]
              simp only [PostPc.rank]
              omega
            exact left_setPost inside here (s.slots i).box (by omega)
        · rename_i pc
          obtain ⟨⟨b, c⟩, act, rfl⟩ := Option.map_eq_some_iff.1 moved
          have lower := PostCall.step_rank act
          have busy : ¬p.call.pc = .returned := by
            intro back
            simp [PostCall.step, back] at act
          refine left_setPost inside here b ?_
          unfold Post.left
          rw [if_neg busy]
          dsimp only
          split <;> omega
      · cases moved

/-- A worker and its mailbox change. -/
theorem left_change {w : Nat} {a : ThreadPool.Worker Nat} (inside : i < N) (here : s.pool.workers[w]? = some a)
    (slots : ∀ j, j ≠ i → t.slots j = s.slots j) (length : t.pool.workers.length = s.pool.workers.length)
    (others : ∀ v, v ≠ w → workerLeft t v = workerLeft s v) (queue : t.pool.queue = s.pool.queue) (callers : t.pool.callers = s.pool.callers)
    (lower : (t.slots i).left + workerLeft t w < (s.slots i).left + workerLeft s w) : left N t < left N s := by
  have slots' := slotsLeft_change inside slots
  have workers := workersLeft_change here length others
  unfold left callersLeft
  rw [queue, callers, length]
  omega

/-- A worker begins a task. -/
theorem left_run (placed : Placed s) (within : Within N s) {w : Nat} (moved : step h s (.run w) = some t) : left N t < left N s := by
  simp only [step] at moved
  split at moved
  · rename_i n i here
    obtain ⟨pool, begun, rfl⟩ := Option.map_eq_some_iff.1 moved
    simp only [ThreadPool.step, here] at begun
    cases begun
    obtain ⟨others, own⟩ := slots_put (i := i) { s.slots i with calls := (s.slots i).calls ++ [Worker.processMessages (h i)] } s
    refine left_change (inside_of_taken within here) here others (List.length_set ..) (fun v other => ?_) rfl rfl ?_
    · refine workerLeft_same (List.getElem?_set_ne (Ne.symm other)) fun j runs => ?_
      have bound := placed.known v j runs
      dsimp only
      rw [if_neg other]
      by_cases same : j = i
      · subst same
        rw [own]
        exact List.getElem?_append_left bound
      · rw [others j same]
    · have low := callLeft_new (h i) (M := M)
      have before : workerLeft s w = callLimit + 3 := by simp only [workerLeft, here]
      rw [before, workerLeft_running (c := Worker.processMessages (h i)) (pool_put here (.running n i)) ?_]
      · show Slot.left ((s.put i _).slots i) + _ < _
        rw [own]
        show (s.slots i).left + _ < _
        omega
      · dsimp only
        rw [own, if_pos rfl]
        exact List.getElem?_concat_length
  · cases moved

/-- A worker goes on in its call. -/
theorem left_worker (placed : Placed s) (within : Within N s) {w : Nat} (moved : step h s (.worker w) = some t) : left N t < left N s := by
  simp only [step] at moved
  split at moved
  · rename_i i c at_
    obtain ⟨⟨b, c'⟩, act, rfl⟩ := Option.map_eq_some_iff.1 moved
    obtain ⟨n, here⟩ := runsFor_of_at at_
    have call := call_of_at at_
    obtain ⟨others, own⟩ := slots_put (i := i) { s.slots i with box := b, calls := (s.slots i).calls.set (s.place w) c' } s
    refine left_change (inside_of_call within call) here others rfl (fun v other => ?_) rfl rfl ?_
    · refine workerLeft_same rfl fun j runs => ?_
      by_cases same : j = i
      · subst same
        have apart : s.place w ≠ s.place v := fun place => other (placed.distinct v w j runs ⟨n, here⟩ place.symm)
        rw [own]
        exact List.getElem?_set_ne apart
      · rw [others j same]
        rfl
    · have lower := callLeft_step act
      have after : workerLeft (s.put i { s.slots i with box := b, calls := (s.slots i).calls.set (s.place w) c' }) w = 2 + callLeft c' := by
        refine workerLeft_running here ?_
        rw [own]
        exact pool_put call c'
      rw [workerLeft_running here call]
      show Slot.left ((s.put i { s.slots i with box := b, calls := (s.slots i).calls.set (s.place w) c' }).slots i) +
        workerLeft (s.put i { s.slots i with box := b, calls := (s.slots i).calls.set (s.place w) c' }) w < _
      rw [own, after]
      unfold Slot.left
      dsimp only
      omega
  · cases moved

/-- A worker changes its place, and the queue may lose a task. -/
theorem left_withPool {pool : ThreadPool Nat} {w : Nat} {a b : ThreadPool.Worker Nat} (here : s.pool.workers[w]? = some a)
    (workers : pool.workers = s.pool.workers.set w b) (callers : pool.callers = s.pool.callers)
    (lower : (callLimit + 3) * pool.queue.length + workerLeft (s.withPool pool) w < (callLimit + 3) * s.pool.queue.length + workerLeft s w) :
    left N (s.withPool pool) < left N s := by
  have length : pool.workers.length = s.pool.workers.length := by rw [workers, List.length_set]
  have change := workersLeft_change (t := s.withPool pool) here length fun v other => workerLeft_other workers other
  show slotsLeft N s + (callLimit + 3) * pool.queue.length + workersLeft (s.withPool pool) + callersLeft pool < _
  unfold left callersLeft
  rw [callers, length]
  omega

/-- A call that joins goes on. -/
theorem left_callers {c : Nat} {a b : ThreadPool.Caller} (here : s.pool.callers[c]? = some a)
    (lower : b.rest s.pool.workers.length < a.rest s.pool.workers.length) :
    left N (s.withPool { s.pool with callers := s.pool.callers.set c b }) < left N s := by
  have sum := pool_sum here b (ThreadPool.Caller.rest s.pool.workers.length)
  have calls : callersLeft { s.pool with callers := s.pool.callers.set c b } < callersLeft s.pool := by
    unfold callersLeft
    dsimp only
    omega
  have workers : workersLeft (s.withPool { s.pool with callers := s.pool.callers.set c b }) = workersLeft s :=
    workersLeft_same rfl rfl fun _ => rfl
  show slotsLeft N s + (callLimit + 3) * s.pool.queue.length + workersLeft (s.withPool _) + callersLeft _ < _
  rw [workers]
  exact Nat.add_lt_add_left calls _

/-- A step of the pool alone. -/
theorem left_pool {l : ThreadPool.Label Nat} {pool : ThreadPool Nat} (sane : ThreadPool.Sane s.pool) (moved : s.pool.step l = some pool)
    (own : (ThreadPool.Signal.step l).own = true) (calm : ∀ w, l ≠ .wake w ∧ l ≠ .run w) : left N (s.withPool pool) < left N s := by
  cases ThreadPool.change_of_step moved with
  | refuse | accept | shutdown | shutdownNow => cases own
  | late worker l call =>
    rcases call with rfl | rfl
    · cases own
    · cases own
  | wake w => exact absurd rfl (calm w).1
  | run w => exact absurd rfl (calm w).2
  | sleep w worker =>
    refine left_withPool worker rfl rfl ?_
    simp [workerLeft, State.withPool, pool_put worker, worker]
  | leave w worker =>
    refine left_withPool worker rfl rfl ?_
    simp [workerLeft, State.withPool, pool_put worker, worker]
  | pop w task queue worker head =>
    refine left_withPool worker rfl rfl ?_
    simp [workerLeft, State.withPool, pool_put worker, worker, head, Nat.mul_add]
  | finish w n task threw worker =>
    refine left_withPool worker rfl rfl ?_
    simp only [workerLeft, State.withPool, pool_put worker, worker]
    omega
  | join c k worker caller =>
    have inside := sane.joins caller
    exact left_callers caller (by simp only [ThreadPool.Caller.rest]; omega)
  | joinEnd c k worker caller =>
    have inside := sane.joins caller
    exact left_callers caller (by simp only [ThreadPool.Caller.rest]; omega)
  | joinSelf c k caller =>
    have inside := sane.joins caller
    exact left_callers caller (by simp only [ThreadPool.Caller.rest]; omega)

/-- **Every step lowers what is left.** -/
theorem left_own (placed : Placed s) (sane : ThreadPool.Sane s.pool) (within : Within N s) {signal : Signal M} (own : signal.own = true)
    (moved : notifying h s signal = some t) : left N t < left N s := by
  have alone : ∀ {l : ThreadPool.Label Nat}, (ThreadPool.Signal.step l).own = true → (∀ w, l ≠ .wake w ∧ l ≠ .run w) →
      (s.pool.step l).map (fun pool => s.withPool pool) = some t → left N t < left N s := by
    intro l own calm known
    obtain ⟨pool, stepped, rfl⟩ := Option.map_eq_some_iff.1 known
    exact left_pool sane stepped own calm
  cases signal with
  | poster i n woken => exact left_poster within moved
  | step l =>
    cases l with
    | run w => exact left_run placed within moved
    | worker w => exact left_worker placed within moved
    | finish w =>
      simp only [notifying, step] at moved
      split at moved
      · split at moved
        · exact alone (l := .finish w false) rfl (by simp) moved
        · cases moved
      · cases moved
    | lock w => exact alone (l := .lock w) rfl (by simp) moved
    | join c => exact alone (l := .join c) rfl (by simp) moved
    | post | poster | raise | wake | shutdown | shutdownNow => cases own

/-! ## Runs -/

/-- What a run of the mailboxes has, with notifications. -/
structure Sound (N : Nat) (s : State M) : Prop where
  placed : Placed s
  sane : ThreadPool.Sane s.pool
  within : Within N s

/-- A step of its own posts nothing. -/
theorem sound_step {signal : Signal M} (sound : Sound N s) (own : signal.own = true) (moved : notifying h s signal = some t) : Sound N t := by
  obtain ⟨u, stepped, ws, woken⟩ := step_of_notifying moved
  have silent : ∀ i k message, signal.label ≠ .post i k message := by
    intro i k message posts
    cases signal with
    | poster => cases posts
    | step l =>
      rw [show (Signal.step l).label = l from rfl] at posts
      subst posts
      cases own
  constructor
  case placed =>
    have first := placed_keeps s _ u sound.placed True.intro stepped
    have free : Machine.Run (step h) Machine.free u (ws.map .wake) t := woken.mono fun _ _ _ => True.intro
    exact free.keeps placed_keeps first
  case sane =>
    rcases pool_of_notifying moved with same | ⟨signal', stepped⟩
    · rw [same]
      exact sound.sane
    · exact sound.sane.step stepped
  case within =>
    have wakes : Machine.Run (step h) (fun _ l => ∀ i k message, l ≠ .post i k message) u (ws.map .wake) t := by
      refine woken.labelled fun l member i k message posts => ?_
      obtain ⟨w, -, rfl⟩ := List.mem_map.1 member
      cases posts
    have keep : Machine.Keeps (step h) (fun _ l => ∀ i k message, l ≠ .post i k message) (Within (M := M) N) :=
      fun _ _ _ within silent moved => within_step within moved silent
    exact wakes.keeps keep (within_step sound.within stepped silent)

/-- So many steps are left at most. -/
theorem bounded {later : List (Signal M)} (sound : Sound N s)
    (run : Machine.Run (notifying h) (fun _ signal => signal.own = true) s later t) : later.length + left N t ≤ left N s := by
  induction run with
  | nil => simp
  | cons moved own _ ih =>
    have lower := left_own sound.placed sound.sane sound.within own moved
    have rest := ih (sound_step sound own moved)
    rw [List.length_cons]
    omega

/-- **The mailboxes come to rest, and then everything has been processed.** However the pool has been used so far, the posts, the
workers and the calls that join have boundedly many steps left, in whatever order they take them, until somebody posts again, wakes
a worker unasked or calls `Shutdown`. Where none of them is left, each mailbox is empty and idle, with all that was ever posted to
it invoked. -/
theorem comes_to_rest {numThreads : Nat} {cpuCount : Int} {signals : List (Signal M)}
    (run : Machine.Run (notifying h) OrderlySignal (State.start numThreads cpuCount) signals s) :
    ∃ bound, ∀ later t, Machine.Run (notifying h) (fun _ signal => signal.own = true) s later t →
      later.length ≤ bound ∧ (Machine.Run (notifying h) OrderlySignal s later t → Stuck h t → ∀ i, Delivered i t) := by
  obtain ⟨ls, coarse⟩ := run_of_notified run
  have free : Machine.Run (step h) Machine.free (State.start numThreads cpuCount) ls s := coarse.mono fun _ _ _ => True.intro
  obtain ⟨N, within⟩ := coarse.keeps within_keeps ⟨0, fun i _ => view_start numThreads cpuCount⟩
  have sane := run.keeps sane_keeps (ThreadPool.sane_run (.nil (ThreadPool.new numThreads cpuCount)))
  have sound : Sound N s := { placed := free.keeps placed_keeps (Placed.start numThreads cpuCount), sane, within }
  refine ⟨left N s, fun later t rest => ?_⟩
  have bound := bounded sound rest
  exact ⟨by omega, fun orderly stuck => stuck_delivered (run.append orderly) stuck⟩

/-- Where the posts have returned and the workers wait, nobody goes on. -/
theorem stuck_of_asleep (posts : ∀ i, ∀ p ∈ (s.slots i).posts, p.call.pc = .returned) (asleep : ∀ w ∈ s.pool.workers, w = .asleep)
    (nobody : s.pool.callers = []) : Stuck h s := by
  have waits : ∀ w : Nat, s.pool.workers[w]? = none ∨ s.pool.workers[w]? = some .asleep := by
    intro w
    cases here : s.pool.workers[w]? with
    | none => exact .inl rfl
    | some a => exact .inr (congrArg some (asleep a (List.mem_of_getElem? here)))
  intro signal own
  cases signal with
  | poster i n woken =>
    simp only [notifying]
    cases here : (s.slots i).posts[n]? with
    | none => rfl
    | some p =>
      have back := posts i p (List.mem_of_getElem? here)
      simp [step, here, back, PostCall.step]
  | step l =>
    cases l with
    | post | poster | raise | wake | shutdown | shutdownNow => cases own
    | run w => rcases waits w with here | here <;> simp [notifying, step, here]
    | worker w => rcases waits w with here | here <;> simp [notifying, step, State.at_, here]
    | finish w => rcases waits w with here | here <;> simp [notifying, step, State.at_, here]
    | lock w => rcases waits w with here | here <;> simp [notifying, step, ThreadPool.step, here]
    | join c => simp [notifying, step, ThreadPool.step, nobody]

/-- The post of a message and all that follows from it. -/
def servedOne : List (Signal Nat) :=
  .replicate 5 (.poster 0 0 none) ++ [.step (.lock 0), .step (.run 0)] ++ .replicate 13 (.step (.worker 0)) ++ [.step (.finish 0), .step (.lock 0)]

/-- All of it is done. -/
def served (t : State Nat) : Bool :=
  (t.slots 0).box.user.invoked = [7] ∧ (∀ p ∈ (t.slots 0).posts, p.call.pc = .returned) ∧ (∀ w ∈ t.pool.workers, w = .asleep) ∧
    t.pool.callers = []

theorem comes_to_rest_one : ∃ bound, 22 ≤ bound ∧ ∃ t : State Nat, (t.slots 0).box.user.invoked = [7] ∧ ∀ i, Delivered i t := by
  obtain ⟨t, run, seen⟩ := Machine.checked_of_any
    (show (Machine.execChecked (notifying fun _ => ⟨300⟩) (fun s signal => orderly s signal.label)
      (.step (.post 0 .user (some 7)) :: servedOne) (State.start 1 8)).any served = true by decide)
  obtain ⟨invoked, returned, asleep, nobody⟩ := of_decide_eq_true seen
  cases run with
  | @cons _ s _ _ _ posted first later =>
    have given : Machine.Run (notifying fun _ => ⟨300⟩) OrderlySignal (State.start 1 8) [.step (.post 0 .user (some 7))] s :=
      .cons posted first (.nil s)
    obtain ⟨bound, rest⟩ := comes_to_rest given
    have alone : Machine.Run (notifying fun _ => ⟨300⟩) (fun _ signal => signal.own = true) s servedOne t := later.labelled (by decide)
    obtain ⟨length, all⟩ := rest servedOne t alone
    -- only the first mailbox has been posted to
    have moved : step (fun _ => ⟨300⟩) (State.start 1 8) (.post 0 .user (some 7)) = some s := posted
    have sound : Sound 1 s :=
      { placed := placed_keeps _ _ _ (Placed.start 1 8) True.intro moved
        sane := sane_keeps _ _ _ (ThreadPool.sane_run (.nil (ThreadPool.new 1 8))) first posted
        within := within_post (N := 0) (fun i _ => view_start 1 8) moved }
    have sound' := alone.keeps (fun _ _ _ sound own moved => sound_step sound own moved) sound
    have back : ∀ i, ∀ p ∈ (t.slots i).posts, p.call.pc = .returned := by
      intro i p member
      obtain ⟨n, here⟩ := List.mem_iff_getElem?.1 member
      have inside := inside_of_post sound'.within here
      cases Nat.lt_one_iff.1 inside
      exact returned p member
    exact ⟨bound, length, t, invoked, all later (stuck_of_asleep back asleep nobody)⟩

end Protoactor.Actor.Dispatcher
