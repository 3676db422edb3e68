import Protoactor.Actor.Dispatcher.Shutdown
import Protoactor.Actor.ThreadPool.Termination

/-!
# Mailboxes on a pool that notifies (`dispatcher.cpp`, `thread_pool.cpp`, `mailbox.cpp`)

The posts, the mailboxes and the workers, where a worker that waits is woken by the notifications of
`Submit` and `Shutdown`. Nothing gets stuck with a message: where no post, no worker and no call that
joins can make a step, everything that was posted has been invoked (`stuck_delivered`).
-/

namespace Protoactor.Actor.Dispatcher
set_option autoImplicit false
open Lib

variable {M : Type} {h : Nat → Handlers} {s t : State M} {i : Nat}

inductive Signal (M : Type) where
  /-- the next step of a post, with the worker that the notification of its `Submit` wakes -/
  | poster (i n : Nat) (woken : Option Nat)
  /-- a step that notifies nobody or everybody -/
  | step (l : Label M)
  deriving DecidableEq, Repr

/-- The step without its notification. -/
def Signal.label : Signal M → Label M
  | .poster i n _ => .poster i n
  | .step l => l

def notifying (h : Nat → Handlers) : Machine (State M) (Signal M) := fun s signal =>
  match signal with
  | .poster i n woken =>
    match (s.slots i).posts[n]? with
    | none => none
    | some p =>
      if p.call.pc = .dispatch ∧ p.admitted then
        (s.pool.notifying (.submit i woken)).map fun pool => (s.put i ((s.slots i).setPost n p.returned)).withPool pool
      else if woken = none then step h s (.poster i n) else none
  | .step l =>
    match l with
    | .poster _ _ => none
    | .shutdown worker => (s.pool.notifying (.step (.shutdown worker))).map fun pool => s.withPool pool
    | .shutdownNow worker => (s.pool.notifying (.step (.shutdownNow worker))).map fun pool => s.withPool pool
    | _ => step h s l

/-- The runs of `Orderly` steps. -/
def OrderlySignal : State M → Signal M → Prop := fun s signal => Orderly s signal.label

/-! ## A notified run is a run -/

/-- Workers that wake one after the other. -/
theorem run_wakes {ws : List Nat} {pool pool' : ThreadPool Nat} (woken : Machine.Run ThreadPool.step Machine.free pool (ws.map .wake) pool')
    (s : State M) : Machine.Run (step h) Orderly (s.withPool pool) (ws.map .wake) (s.withPool pool') := by
  induction ws generalizing pool with
  | nil =>
    cases woken
    exact .nil _
  | cons w ws ih =>
    cases woken with
    | cons moved _ rest =>
      refine .cons ?_ rfl (ih rest)
      show ((s.withPool pool).pool.step (.wake w)).map _ = _
      rw [show (s.withPool pool).pool.step (.wake w) = _ from moved]
      rfl

/-- **Each notified step** is a step, after which workers wake. -/
theorem step_of_notifying {signal : Signal M} (moved : notifying h s signal = some t) :
    ∃ u, step h s signal.label = some u ∧ ∃ ws : List Nat, Machine.Run (step h) Orderly u (ws.map .wake) t := by
  have plain : ∀ {l : Label M}, step h s l = some t →
      ∃ u, step h s l = some u ∧ ∃ ws : List Nat, Machine.Run (step h) Orderly u (ws.map .wake) t :=
    fun stepped => ⟨t, stepped, [], .nil _⟩
  have calls : ∀ {l : ThreadPool.Label Nat} {worker : Option Nat}, l = .shutdown worker ∨ l = .shutdownNow worker →
      (s.pool.notifying (.step l)).map (fun pool => s.withPool pool) = some t →
      ∃ u, (s.pool.step l).map (fun pool => s.withPool pool) = some u ∧
        ∃ ws : List Nat, Machine.Run (step h) Orderly u (ws.map .wake) t := by
    intro l worker call known
    obtain ⟨pool, stepped, rfl⟩ := Option.map_eq_some_iff.1 known
    cases ThreadPool.notice_of_notifying stepped with
    | stop _ _ _ _ pool' first =>
      obtain ⟨ws, woken⟩ := ThreadPool.run_notifyAll pool'
      exact ⟨s.withPool pool', by rw [first]; rfl, ws, run_wakes woken s⟩
    | plain _ _ first => exact ⟨s.withPool pool, by rw [first]; rfl, [], .nil _⟩
  cases signal with
  | poster i n woken =>
    simp only [notifying] at moved
    split at moved
    · cases moved
    · rename_i p here
      split at moved
      · rename_i submits
        obtain ⟨pool, stepped, rfl⟩ := Option.map_eq_some_iff.1 moved
        have handed : step h s (Signal.poster (M := M) i n woken).label =
            some ((s.put i ((s.slots i).setPost n p.returned)).withPool (s.pool.submit (some i))) := by
          simp only [Signal.label, step, here, submits.1, State.schedule, submits.2, if_true]
        refine ⟨_, handed, ?_⟩
        cases ThreadPool.notice_of_notifying stepped with
        | refused _ stopped =>
          have same : s.pool.submit (some i) = s.pool := by simp only [ThreadPool.submit, stopped, if_true]
          rw [same]
          exact ⟨[], .nil _⟩
        | unheard => exact ⟨[], .nil _⟩
        | heard _ w open_ asleep =>
          have same : (s.pool.submit (some i)).workers = s.pool.workers := by
            simp only [ThreadPool.submit, open_, Bool.false_eq_true, if_false]
          have woken := ThreadPool.run_wake (s := s.pool.submit (some i)) (same ▸ asleep)
          rw [same] at woken
          exact ⟨[w], run_wakes woken (s.put i ((s.slots i).setPost n p.returned))⟩
      · split at moved
        · exact plain moved
        · cases moved
  | step l =>
    cases l with
    | poster => cases moved
    | shutdown worker => exact calls (.inl rfl) moved
    | shutdownNow worker => exact calls (.inr rfl) moved
    | post | run | worker | raise | finish | lock | wake | join => exact plain moved

/-- A notified run is a run in which the workers wake as they are notified. -/
theorem run_of_notified {signals : List (Signal M)} (run : Machine.Run (notifying h) OrderlySignal s signals t) :
    ∃ ls, Machine.Run (step h) Orderly s ls t := by
  have keep : Machine.Keeps (notifying h) OrderlySignal fun _ : State M => True := fun _ _ _ _ _ _ => True.intro
  refine run.project keep id (fun s signal t _ allowed moved => ?_) True.intro
  obtain ⟨u, stepped, ws, woken⟩ := step_of_notifying moved
  exact ⟨_, (Machine.Run.cons stepped allowed (.nil _)).append woken⟩

/-- A notified run is, for the pool, a notified run of its own. -/
theorem pool_of_notifying {signal : Signal M} (moved : notifying h s signal = some t) :
    t.pool = s.pool ∨ ∃ signal' : ThreadPool.Signal Nat, s.pool.notifying signal' = some t.pool := by
  have lifted : ∀ {a : ThreadPool.Signal Nat} {f : ThreadPool Nat → State M}, (∀ pool, (f pool).pool = pool) →
      (s.pool.notifying a).map f = some t → ∃ signal' : ThreadPool.Signal Nat, s.pool.notifying signal' = some t.pool := by
    intro a f pool_ known
    obtain ⟨pool, stepped, rfl⟩ := Option.map_eq_some_iff.1 known
    exact ⟨a, by rw [pool_]; exact stepped⟩
  cases signal with
  | poster i n woken =>
    simp only [notifying] at moved
    split at moved
    · cases moved
    · rename_i p here
      split at moved
      · exact .inr (lifted (fun _ => rfl) moved)
      · rename_i other
        split at moved
        · -- the test of `IsShutdown`, or a step on the mailbox
          simp only [step, here] at moved
          split at moved
          · rename_i pc
            cases moved
            have admitted : ¬p.admitted = true := fun admitted => other ⟨pc, admitted⟩
            unfold State.schedule
            rw [if_neg admitted]
            split <;> exact .inl rfl
          · obtain ⟨_, -, rfl⟩ := Option.map_eq_some_iff.1 moved
            exact .inl rfl
        · cases moved
  | step l =>
    cases l with
    | poster => cases moved
    | shutdown worker => exact .inr (lifted (fun _ => rfl) moved)
    | shutdownNow worker => exact .inr (lifted (fun _ => rfl) moved)
    | lock w => exact .inr (lifted (a := .step (.lock w)) (fun _ => rfl) moved)
    | wake w => exact .inr (lifted (a := .step (.wake w)) (fun _ => rfl) moved)
    | join c => exact .inr (lifted (a := .step (.join c)) (fun _ => rfl) moved)
    | post =>
      cases moved
      exact .inl rfl
    | run w =>
      simp only [notifying, step] at moved
      split at moved
      · exact .inr (lifted (a := .step (.run w)) (fun _ => rfl) moved)
      · cases moved
    | worker w =>
      simp only [notifying, step] at moved
      split at moved
      · obtain ⟨_, -, rfl⟩ := Option.map_eq_some_iff.1 moved
        exact .inl rfl
      · cases moved
    | raise w =>
      simp only [notifying, step] at moved
      split at moved
      · split at moved
        · cases moved
          exact .inl rfl
        · cases moved
      · cases moved
    | finish w =>
      simp only [notifying, step] at moved
      split at moved
      · split at moved
        · exact .inr (lifted (a := .step (.finish w false)) (fun _ => rfl) moved)
        · cases moved
      · cases moved

theorem sane_keeps : Machine.Keeps (notifying h) OrderlySignal fun s : State M => ThreadPool.Sane s.pool := by
  intro s signal t sane _ moved
  rcases pool_of_notifying moved with same | ⟨signal', stepped⟩
  · rw [same]
    exact sane
  · exact sane.step stepped

/-! ## Stuck -/

/-- A step of a post, of a worker, or of a call that joins. -/
def Signal.own : Signal M → Bool
  | .poster _ _ _ => true
  | .step (.run _) | .step (.worker _) | .step (.finish _) | .step (.lock _) | .step (.join _) => true
  | _ => false

/-- None of them is left. -/
def Stuck (h : Nat → Handlers) (s : State M) : Prop := ∀ signal : Signal M, signal.own = true → notifying h s signal = none

/-- `Submit` always goes on. -/
theorem submits (pool : ThreadPool Nat) (i : Nat) : ∃ woken pool', pool.notifying (.submit i woken) = some pool' := by
  cases closed : pool.stop || pool.stopNow with
  | true => exact ⟨none, pool, by simp [ThreadPool.notifying, closed]⟩
  | false =>
    have same : (pool.submit (some i)).workers = pool.workers := by
      simp only [ThreadPool.submit, closed, Bool.false_eq_true, if_false]
    by_cases waits : .asleep ∈ pool.workers
    · obtain ⟨w, here⟩ := List.mem_iff_getElem?.1 waits
      refine ⟨some w, { pool.submit (some i) with workers := pool.workers.set w .ready }, ?_⟩
      simp only [ThreadPool.notifying, closed, Bool.false_eq_true, if_false, ThreadPool.notifyOne, same, here]
    · have awake : ¬pool.workers.any ThreadPool.Worker.asleep? = true := by
        rw [List.any_eq_true]
        rintro ⟨w, member, asleep⟩
        cases w <;> first | exact waits member | cases asleep
      refine ⟨none, pool.submit (some i), ?_⟩
      simp only [ThreadPool.notifying, closed, Bool.false_eq_true, if_false, ThreadPool.notifyOne, same, if_neg awake]

/-- A post that is stuck has returned. -/
theorem returned_of_stuck (stuck : Stuck h s) (i : Nat) : ∀ p ∈ (s.slots i).posts, p.call.pc = .returned := by
  intro p member
  obtain ⟨n, here⟩ := List.mem_iff_getElem?.1 member
  have none_ := fun woken => stuck (.poster i n woken) rfl
  simp only [notifying, here] at none_
  by_cases submitting : p.call.pc = .dispatch ∧ p.admitted = true
  · obtain ⟨woken, pool, stepped⟩ := submits s.pool i
    have now := none_ woken
    rw [if_pos submitting, stepped] at now
    cases now
  · have now := none_ none
    rw [if_neg submitting, if_pos rfl] at now
    simp only [step, here] at now
    cases pc : p.call.pc with
    | returned => rfl
    | dispatch => simp only [pc] at now; cases now
    | push | fetchAdd => simp [pc, PostCall.step] at now
    | schedule => cases status : (s.slots i).box.schedulerStatus <;> simp [pc, PostCall.step, status] at now

/-- The call that a worker is in can always go on. -/
theorem worker_step {g : Handlers} (b : DefaultMailbox M) {c : Worker M} (busy : c.finished = false) : ∃ b' c', c.step g b = some (b', c') := by
  cases pc : c.pc with
  | returned | threw => simp [Worker.finished, pc] at busy
  | reacquire => cases status : b.schedulerStatus <;> simp [Worker.step, pc, status]
  | _ => simp [Worker.step, pc]

/-- **What is stuck with the mailboxes** is stuck in the pool, but for a worker that waits. -/
theorem pool_of_stuck (placed : Placed s) (stuck : Stuck h s) {signal : ThreadPool.Signal Nat} (own : signal.own = true)
    (awake : ∀ w, signal ≠ .step (.wake w)) : s.pool.notifying signal = none := by
  cases signal with
  | submit => cases own
  | step l =>
    have alone : ∀ {k : Label M}, (Signal.step k).own = true → notifying h s (.step k) = (s.pool.step l).map (fun pool => s.withPool pool) →
        s.pool.step l = none := by
      intro k own same
      exact Option.map_eq_none_iff.1 (same.symm.trans (stuck (.step k) own))
    cases l with
    | submit | shutdown | shutdownNow => cases own
    | wake w => exact absurd rfl (awake w)
    | join c => exact alone (k := .join c) rfl rfl
    | lock w => exact alone (k := .lock w) rfl rfl
    | run w =>
      show s.pool.step (.run w) = none
      have none_ := stuck (.step (.run w)) rfl
      simp only [notifying, step] at none_
      cases here : s.pool.workers[w]? with
      | none => simp [ThreadPool.step, here]
      | some a =>
        cases a with
        | taken n i =>
          rw [here] at none_
          exact Option.map_eq_none_iff.1 none_
        | ready | asleep | running | returned => simp [ThreadPool.step, here]
    | finish w threw =>
      show s.pool.step (.finish w threw) = none
      cases here : s.pool.workers[w]? with
      | none => simp [ThreadPool.step, here]
      | some a =>
        cases a with
        | running n i =>
          cases available : s.pool.available (some w) with
          | false => simp [ThreadPool.step, here, available]
          | true =>
            -- the worker is at its call, which goes on or is over
            obtain ⟨c, call⟩ : ∃ c, (s.slots i).calls[s.place w]? = some c := ⟨_, List.getElem?_eq_getElem (placed.known w i ⟨n, here⟩)⟩
            have at_ : s.at_ w = some (i, c) := by simp [State.at_, here, available, call]
            cases over_ : c.finished with
            | true =>
              have none_ := stuck (.step (.finish w)) rfl
              simp [notifying, step, at_, over_, ThreadPool.step, here, available] at none_
            | false =>
              obtain ⟨b, c', stepped⟩ := worker_step (g := h i) (s.slots i).box over_
              have none_ := stuck (.step (.worker w)) rfl
              simp [notifying, step, at_, stepped] at none_
        | ready | asleep | taken | returned => simp [ThreadPool.step, here]

/-- **What is stuck is quiet**: all tasks have been run. -/
theorem quiet_of_stuck (placed : Placed s) (sane : ThreadPool.Sane s.pool) (stuck : Stuck h s) : ThreadPool.Quiet s.pool := by
  cases stop : s.pool.stop with
  | true =>
    have blocked : ThreadPool.Stuck s.pool := by
      intro signal own
      by_cases waking : ∃ w, signal = .step (.wake w)
      · obtain ⟨w, rfl⟩ := waking
        -- whoever waited has been woken
        show s.pool.step (.wake w) = none
        cases here : s.pool.workers[w]? with
        | none => simp [ThreadPool.step, here]
        | some a =>
          cases a with
          | asleep => exact absurd (List.mem_of_getElem? here) (sane.served.woken stop)
          | ready | taken | running | returned => simp [ThreadPool.step, here]
      · exact pool_of_stuck placed stuck own fun w same => waking ⟨w, same⟩
    obtain ⟨gone, -⟩ := ThreadPool.gone_of_stuck sane stop blocked
    refine ⟨sane.manned.empty_of_all gone, fun w member => ?_⟩
    rw [gone w member]
    rfl
  | false =>
    have nobody : s.pool.callers = [] := by
      by_contra some_
      rw [sane.first.called.2 some_] at stop
      cases stop
    have waits : ∀ w ∈ s.pool.workers, w = .asleep := by
      intro a member
      obtain ⟨w, here⟩ := List.mem_iff_getElem?.1 member
      have still : ∀ l, (ThreadPool.Signal.step l).own = true → (∀ w, ThreadPool.Signal.step l ≠ .step (.wake w)) →
          s.pool.notifying (.step l) = none := fun _ own awake => pool_of_stuck placed stuck own awake
      cases a with
      | asleep => rfl
      | returned => exact absurd member (sane.manned.working stop)
      | ready =>
        have none_ : s.pool.step (.lock w) = none := still (.lock w) rfl (by simp)
        simp [ThreadPool.step, here] at none_
      | taken n i =>
        have none_ : s.pool.step (.run w) = none := still (.run w) rfl (by simp)
        simp [ThreadPool.step, here] at none_
      | running n i =>
        have none_ : s.pool.step (.finish w false) = none := still (.finish w false) rfl (by simp)
        simp [ThreadPool.step, here, ThreadPool.available, nobody] at none_
    obtain ⟨w, rest, staffed⟩ := List.exists_cons_of_length_pos sane.manned.staffed
    have one : .asleep ∈ s.pool.workers := by
      have member : w ∈ s.pool.workers := staffed ▸ List.mem_cons_self
      exact waits w member ▸ member
    have fewer := sane.served.matched one
    rw [pool_none waits rfl] at fewer
    refine ⟨List.eq_nil_of_length_eq_zero (by omega), fun w member => ?_⟩
    rw [waits w member]
    rfl

/-- **Nothing is stuck with a message.** Where no post, no worker and no call that joins can make a step, each mailbox is empty
and idle, and what was posted to it has been invoked. -/
theorem stuck_delivered {numThreads : Nat} {cpuCount : Int} {signals : List (Signal M)}
    (run : Machine.Run (notifying h) OrderlySignal (State.start numThreads cpuCount) signals s) (stuck : Stuck h s) (i : Nat) :
    Delivered i s := by
  obtain ⟨ls, coarse⟩ := run_of_notified run
  have free : Machine.Run (step h) Machine.free (State.start numThreads cpuCount) ls s := coarse.mono fun _ _ _ => True.intro
  have placed := free.keeps placed_keeps (Placed.start numThreads cpuCount)
  have sane := run.keeps sane_keeps (ThreadPool.sane_run (.nil (ThreadPool.new numThreads cpuCount)))
  exact delivered_of_quiet coarse (quiet_of_stuck placed sane stuck) (returned_of_stuck stuck i)

end Protoactor.Actor.Dispatcher
