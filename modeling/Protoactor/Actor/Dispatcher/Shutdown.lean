import Protoactor.Actor.Dispatcher.Workers
import Protoactor.Actor.Mailbox.Failure
import Protoactor.Actor.Mailbox.Posts
import Protoactor.Actor.ThreadPool.FirstCall

/-!
# Mailboxes and the shutdown of their pool (`dispatcher.cpp`, `thread_pool.cpp`)

`Shutdown` lets the workers empty the queue, and a mailbox whose task is in the queue or with a
worker is processed to the end: where no post finds the pool stopped, nothing is left behind when
`Shutdown` returns (`shutdown_delivers`). A post that does find it stopped has taken the right of
its mailbox and hands it to nobody, and so does `ShutdownNow` with the tasks it throws away
(`drop_wedges`).
-/

namespace Protoactor.Actor.Dispatcher
set_option autoImplicit false
open Lib

variable {M : Type} {h : Nat → Handlers} {s s' : State M} {i : Nat}

/-! ## Shutting down in order -/

/-- The steps of a run in which messages are not null, handlers return, mailboxes stay within their
rounds and counters, and nothing has to be scheduled once the pool is stopped. -/
def orderly (s : State M) : Label M → Bool
  | .post _ _ message => message.isSome
  | .poster i n => ((s.slots i).posts[n]?).all fun p => p.call.pc ≠ .dispatch || !s.pool.stop
  | .worker w => (s.at_ w).all fun at_ => Interleaving.within (view at_.1 s) (.worker (s.place w))
  | .raise _ | .shutdownNow _ => false
  | _ => true

def Orderly : State M → Label M → Prop := fun s l => orderly s l = true

/-- In such a run a mailbox sees a step of its own at most, and one that its own results allow. -/
theorem seen_orderly {l : Label M} (flagged : Flagged s.pool) (allowed : Orderly s l) :
    seen i s l = [] ∨ ∃ l', seen i s l = [l'] ∧ Interleaving.fairWithin (view i s) l' := by
  unfold Orderly orderly at allowed
  cases l with
  | post j k message =>
    simp only [seen]
    split
    · exact .inr ⟨_, rfl, by simp [Interleaving.fairWithin, Interleaving.Label.fair, Interleaving.within, show message.isSome = true from allowed]⟩
    · exact .inl rfl
  | poster j n =>
    simp only [seen]
    split
    · rename_i own
      subst own
      cases here : (s.slots j).posts[n]? with
      | none => exact .inl rfl
      | some p =>
        simp only [here, Option.all_some, Bool.or_eq_true, decide_eq_true_eq, Bool.not_eq_true'] at allowed
        have whole : .lose ∉ seenPost s n p := by
          intro lost
          obtain ⟨pc, stopped⟩ := stop_of_seenPost flagged lost
          rcases allowed with other | open_
          · exact other pc
          · rw [stopped] at open_
            cases open_
        show seenPost s n p = [] ∨ ∃ l', seenPost s n p = [l'] ∧ Interleaving.fairWithin (view j s) l'
        have cases_ : seenPost s n p = [] ∨ seenPost s n p = [.poster n] := by
          revert whole
          unfold seenPost
          split
          · split
            · split <;> simp
            · split <;> simp
          · simp
        rcases cases_ with none_ | one
        · exact .inl none_
        · exact .inr ⟨_, one, rfl⟩
    · exact .inl rfl
  | run w =>
    simp only [seen]
    split
    · split
      · exact .inr ⟨_, rfl, rfl⟩
      · exact .inl rfl
    · exact .inl rfl
  | worker w =>
    simp only [seen]
    split
    · rename_i j c at_
      split
      · rename_i own
        subst own
        simp only [at_, Option.all_some] at allowed
        exact .inr ⟨_, rfl, allowed⟩
      · exact .inl rfl
    · exact .inl rfl
  | raise | shutdownNow => cases allowed
  | finish | lock | wake | shutdown | join => exact .inl rfl

/-- The run of a mailbox. -/
theorem projected_orderly {numThreads : Nat} {cpuCount : Int} {ls : List (Label M)}
    (run : Machine.Run (step h) Orderly (State.start numThreads cpuCount) ls s) (i : Nat) :
    ∃ ls', Machine.Run (Interleaving.step (h i)) Interleaving.fairWithin Interleaving.init ls' (view i s) := by
  have each : ∀ (s : State M) l s', Flagged s.pool → Orderly s l → step h s l = some s' →
      ∃ ls, Machine.Run (Interleaving.step (h i)) Interleaving.fairWithin (view i s) ls (view i s') := by
    intro s l s' flagged allowed moved
    have seen_ := exec_seen (i := i) moved
    rcases seen_orderly (i := i) flagged allowed with none_ | ⟨l', one, fair⟩
    · rw [none_] at seen_
      rw [Option.some.inj seen_]
      exact ⟨[], .nil _⟩
    · rw [one] at seen_
      obtain ⟨v, stepped, last⟩ := Option.bind_eq_some_iff.1 seen_
      cases last
      exact ⟨[l'], .cons stepped fair (.nil _)⟩
  obtain ⟨ls', alone⟩ := Machine.Run.project (flags_keeps Orderly) (view i) each run nofun
  rw [view_start] at alone
  exact ⟨ls', alone⟩

/-- A property of the pool that all its steps keep. -/
theorem pool_keeps {Inv : ThreadPool Nat → Prop} (keep : Machine.Keeps ThreadPool.step Machine.free Inv) :
    Machine.Keeps (step h) Machine.free fun s : State M => Inv s.pool := by
  intro s l s' inv _ moved
  rcases pool_step moved with same | ⟨l', stepped⟩
  · rw [same]
    exact inv
  · exact keep _ l' _ inv True.intro stepped

/-- On a quiet pool a mailbox is at rest. -/
theorem quiescent_of_quiet (placed : Placed s) (quiet : ThreadPool.Quiet s.pool)
    (posts : ∀ p ∈ (s.slots i).posts, p.call.pc = .returned) : Interleaving.Quiescent (view i s) := by
  refine ⟨?_, ?_, ?_⟩
  · intro c member
    obtain ⟨p, here, rfl⟩ := List.mem_map.1 member
    simp [Interleaving.inProgress, posts p here]
  · show s.pool.queue.count i + s.pool.workers.countP (tookFor i) = 0
    have none_ : s.pool.workers.countP (tookFor i) = 0 := by
      rw [List.countP_eq_zero]
      intro w member took
      have idle := quiet.workers w member
      cases w with
      | taken | running => cases idle
      | ready | asleep | returned => exact Bool.false_ne_true took
    rw [quiet.queue, none_]
    rfl
  · intro c member
    cases ended : c.finished with
    | true => rfl
    | false =>
      obtain ⟨n, bound, here⟩ := List.mem_iff_getElem.1 member
      have at_ : (s.slots i).calls[n]? = some c := List.getElem?_eq_some_iff.2 ⟨bound, here⟩
      obtain ⟨w, ⟨k, runs⟩, -⟩ := placed.worked i n c at_ ended
      have idle := quiet.workers _ (List.mem_of_getElem? runs)
      cases idle

/-- The mailbox is empty and idle, and what was posted to it has been invoked. -/
def Delivered (i : Nat) (s : State M) : Prop :=
  (s.slots i).box.user.queue = [] ∧ (s.slots i).box.system.queue = [] ∧ (s.slots i).box.schedulerStatus = .idle ∧
    ∀ k, ((s.slots i).posts.filterMap fun p => Interleaving.offered k p.call).Perm ((s.slots i).box.lane k).invoked

/-- **A quiet pool leaves nothing behind** in a mailbox whose posts have returned. -/
theorem delivered_of_quiet {numThreads : Nat} {cpuCount : Int} {ls : List (Label M)}
    (run : Machine.Run (step h) Orderly (State.start numThreads cpuCount) ls s) (quiet : ThreadPool.Quiet s.pool)
    (posts : ∀ p ∈ (s.slots i).posts, p.call.pc = .returned) : Delivered i s := by
  have free : Machine.Run (step h) Machine.free (State.start numThreads cpuCount) ls s := run.mono fun _ _ _ => True.intro
  have placed := free.keeps placed_keeps (Placed.start numThreads cpuCount)
  have rest := quiescent_of_quiet placed quiet posts
  obtain ⟨ls', alone⟩ := projected_orderly run i
  obtain ⟨-, prog⟩ := alone.keeps Interleaving.progress_keeps
    ⟨⟨Interleaving.exclusive_init, Interleaving.delivery_init⟩, Interleaving.progress_init⟩
  obtain ⟨idle, empty⟩ := prog.resting rest
  refine ⟨empty .user, empty .system, idle, fun k => ?_⟩
  have all := Interleaving.posted_quiescent alone rest k
  rw [show (view i s).posts = (s.slots i).posts.map Post.call from rfl, List.filterMap_map] at all
  exact all

/-- **A shutdown in order delivers everything.** When the first call of `Shutdown` has returned, each mailbox whose posts have
returned is empty and idle, and what was posted to it has been invoked. -/
theorem shutdown_delivers {numThreads : Nat} {cpuCount : Int} {ls : List (Label M)} {c : ThreadPool.Caller}
    (run : Machine.Run (step h) Orderly (State.start numThreads cpuCount) ls s) (first : s.pool.callers[0]? = some c)
    (back : c.phase = .returned) (i : Nat) (posts : ∀ p ∈ (s.slots i).posts, p.call.pc = .returned) : Delivered i s := by
  have free : Machine.Run (step h) Machine.free (State.start numThreads cpuCount) ls s := run.mono fun _ _ _ => True.intro
  have manned := free.keeps (pool_keeps ThreadPool.keeps_manned) (ThreadPool.Manned.start numThreads cpuCount)
  have calls := free.keeps (pool_keeps ThreadPool.keeps_firstCall) (ThreadPool.FirstCall.start numThreads cpuCount)
  exact delivered_of_quiet run (calls.quiet manned first back) posts

/-- A message that the worker finds after `Shutdown`. -/
def shutInOrder : List (Label Nat) :=
  postTo 0 0 7 ++ [.shutdown none, .lock 0, .run 0] ++ .replicate 13 (.worker 0) ++ [.finish 0, .lock 0, .shutdown none] ++
    .replicate 2 (.join 0)

theorem shutdown_delivers_one : ∃ s : State Nat, (s.slots 0).box.user.invoked = [7] ∧ Delivered 0 s := by
  have checked : (Machine.execChecked (step fun _ => ⟨300⟩) orderly shutInOrder (State.start 1 8)).any fun s : State Nat =>
      decide ((s.slots 0).box.user.invoked = [7] ∧ s.pool.callers[0]? = some ⟨none, .returned⟩ ∧
        ∀ p ∈ (s.slots 0).posts, p.call.pc = .returned) := by decide
  obtain ⟨s, run, seen⟩ := Machine.checked_of_any checked
  obtain ⟨invoked, back, posts⟩ := of_decide_eq_true seen
  exact ⟨s, invoked, shutdown_delivers run back rfl 0 posts⟩

/-! ## Dropped tasks -/

/-- The step drops the task of the mailbox: a post that has taken the right finds the pool stopped, or `ShutdownNow` empties
the queue. -/
inductive Drops (i : Nat) (s : State M) : Label M → Prop where
  | refused (n : Nat) (p : Post M) (here : (s.slots i).posts[n]? = some p) (pc : p.call.pc = .dispatch) (stopped : s.pool.stop = true) :
      Drops i s (.poster i n)
  | thrown (worker : Option Nat) (open_ : s.pool.stop = false) (queued : i ∈ s.pool.queue) : Drops i s (.shutdownNow worker)

theorem lose_of_drops {l : Label M} (drops : Drops i s l) : .lose ∈ seen i s l := by
  cases drops with
  | refused n p here pc stopped => simp [seen, here, seenPost, pc, stopped]
  | thrown worker open_ queued =>
    have some_ : s.pool.queue.count i ≠ 0 := fun none_ => List.count_eq_zero.1 none_ queued
    simp [seen, open_, some_]

/-- Dropping the task leaves the mailbox dead. -/
theorem dead_of_lose {g : Handlers} {v v' : Interleaving.State M} (excl : Interleaving.Exclusive v)
    (lost : Interleaving.step g v .lose = some v') : Interleaving.Dead v' ∧ v'.box = v.box := by
  cases Interleaving.step_cases lost with
  | lose pending =>
    have one := excl.one
    simp only [Interleaving.holders, pending] at one
    refine ⟨⟨?_, ?_⟩, rfl⟩
    · cases status : v.box.schedulerStatus with
      | running => rfl
      | idle =>
        have none_ := excl.idle status
        simp only [Interleaving.holders, pending] at none_
        omega
    · simp only [Interleaving.holders]
      omega

/-- From then on. -/
theorem dead_of_drops {l : Label M} (excl : Interleaving.Exclusive (view i s)) (drops : Drops i s l) (moved : step h s l = some s') :
    Interleaving.Dead (view i s') ∧ ∀ k, ((s'.slots i).box.lane k).invoked = ((s.slots i).box.lane k).invoked := by
  have taken := exec_seen (i := i) moved
  cases drops with
  | refused n p here pc stopped =>
    have call : (view i s).posts[n]? = some p.call := by
      show ((s.slots i).posts.map Post.call)[n]? = some p.call
      rw [List.getElem?_map, here]
      rfl
    have both : seen i s (.poster i n) = [.poster n, .lose] := by simp [seen, here, seenPost, pc, stopped]
    have first := handed (g := h i) call pc
    rw [both, Machine.exec_cons first] at taken
    obtain ⟨v, lost, last⟩ := Option.bind_eq_some_iff.1 taken
    cases last
    have excl' := Interleaving.exclusive_keeps Machine.free _ _ _ excl True.intro first
    obtain ⟨dead, box⟩ := dead_of_lose excl' lost
    have same : (s'.slots i).box = (s.slots i).box := box
    exact ⟨dead, fun k => by rw [same]⟩
  | thrown worker open_ queued =>
    obtain ⟨n, some_⟩ := Nat.exists_eq_succ_of_ne_zero fun none_ => List.count_eq_zero.1 none_ queued
    have all : seen i s (.shutdownNow worker) = .lose :: .replicate n .lose := by
      simp only [seen, open_, some_, Bool.false_eq_true, if_false]
      rfl
    rw [all] at taken
    obtain ⟨v, lost, rest⟩ := Option.bind_eq_some_iff.1 taken
    obtain ⟨dead, box⟩ := dead_of_lose excl lost
    have same : v.box = (s.slots i).box := box
    have kept := (Machine.free_of_exec rest).keeps (Interleaving.dead_keeps fun k => ((s.slots i).box.lane k).invoked)
    exact kept ⟨dead, fun k => by rw [same]⟩

/-- **A dropped task wedges its mailbox.** Whatever is posted from then on, and whatever the pool still does, the mailbox stays
at `RUNNING` and nothing is invoked on it any more. -/
theorem drop_wedges {numThreads : Nat} {cpuCount : Int} {ls ls' : List (Label M)} {l : Label M} {t : State M}
    (run : Machine.Run (step h) Machine.free (State.start numThreads cpuCount) ls s) (drops : Drops i s l)
    (moved : step h s l = some s') (later : Machine.Run (step h) Machine.free s' ls' t) :
    (t.slots i).box.schedulerStatus = .running ∧ ∀ k, ((t.slots i).box.lane k).invoked = ((s.slots i).box.lane k).invoked := by
  obtain ⟨_, before, -⟩ := projected_run run i
  obtain ⟨dead, past⟩ := dead_of_drops (Interleaving.exclusive_run before) drops moved
  have flagged := run.keeps (flags_keeps Machine.free) nofun
  obtain ⟨_, after, -, -⟩ := projected_from later (flags_step moved flagged).1 i
  obtain ⟨still, same⟩ := after.keeps (Interleaving.dead_keeps fun k => ((s.slots i).box.lane k).invoked) ⟨dead, past⟩
  exact ⟨still.running, same⟩

/-- A post takes the right of its mailbox and is let past `IsShutdown`. -/
def tookRight : List (Label Nat) := .post 0 .user (some 7) :: .replicate 4 (.poster 0 0)

/-- A later post. -/
def behindIt : List (Label Nat) := .post 0 .user (some 8) :: .replicate 3 (.poster 0 1)

/-- Both messages are left. -/
def bothLeft (t : State Nat) : Bool := (t.slots 0).box.user.queue = [some 7, some 8] && (t.slots 0).box.user.messages = 2

/-- The pool is stopped before `Submit`. -/
def caught (s : State Nat) : Bool :=
  (s.slots 0).posts[0]? = some ⟨⟨.user, some 7, .dispatch⟩, true⟩ && s.pool.stop && (s.slots 0).box.user.invoked = [] &&
    (s.slots 0).box.system.invoked = [] && (Machine.exec (step fun _ => ⟨300⟩) (.poster 0 0 :: behindIt) s).any bothLeft

theorem drop_wedges_two : ∃ t : State Nat, bothLeft t = true ∧ (t.slots 0).box.schedulerStatus = .running ∧
    ∀ k, ((t.slots 0).box.lane k).invoked = [] := by
  obtain ⟨s, before, seen⟩ := Machine.run_of_any
    (show (Machine.exec (step fun _ => ⟨300⟩) (tookRight ++ [.shutdown none]) (State.start 1 8)).any caught = true by decide)
  simp only [caught, Bool.and_eq_true, decide_eq_true_eq] at seen
  obtain ⟨⟨⟨⟨here, stopped⟩, user⟩, system⟩, rest⟩ := seen
  obtain ⟨t, run, left⟩ := Machine.run_of_any rest
  cases run with
  | cons moved _ later =>
    obtain ⟨running, same⟩ := drop_wedges before (.refused 0 _ here rfl stopped) moved later
    refine ⟨t, left, running, fun k => (same k).trans ?_⟩
    cases k with
    | user => exact user
    | system => exact system

end Protoactor.Actor.Dispatcher
