import Protoactor.Actor.Mailbox.Delivery

/-!
# No message is stranded

`Progress` is the invariant behind "no message is left behind": while the flag is
`RUNNING` somebody holds the processing right, and while it is `IDLE` a non-empty queue
has a witness, a post that has not returned (its compare-exchange is still to come) or a
worker in its tail that will see the message in a counter.

It holds in the runs in which no `ProcessMessages` call re-acquires the flag in its last
allowed round (`within`): such a call leaves the loop with the flag at `RUNNING`
and nobody left to process. `within` also keeps the queues short enough for the `int`
counters.
-/

namespace Protoactor.Actor
set_option autoImplicit false
open Lib

section Tail

variable {M : Type} {h : Handlers} {b b' : DefaultMailbox M}

/-- In the tail of `ProcessMessages`, with a load of the counter of kind `k` still to
come or a positive counter already loaded. -/
def Worker.willSee (k : Kind) (w : Worker M) : Bool :=
  match w.pc with
  | .loadSys => true
  | .loadUser sys => k = .user || 0 < sys
  | .loadSuspended sys user => 0 < sys || 0 < user
  | .reacquire => true
  | _ => false

/-- A worker in its tail keeps seeing a counted message while the flag stays `IDLE`. -/
theorem Worker.step_willSee {w w' : Worker M} {k : Kind} (act : w.step h b = some (b', w'))
    (sees : w.willSee k = true) (active : b.suspended = 0) (idle : b.schedulerStatus = .idle)
    (stays : b'.schedulerStatus = .idle) (sysCounted : w.pc = .loadSys → k = .system → 0 < b.system.messages)
    (userCounted : ∀ sys, w.pc = .loadUser sys → k = .user → 0 < b.user.messages) : w'.willSee k = true := by
  cases Worker.act act with
  | loadSys pc =>
    cases k with
    | user => simp [Worker.willSee]
    | system =>
      have loaded := sysCounted pc rfl
      simp [Worker.willSee, loaded]
  | @loadUser sys pc =>
    cases k with
    | user =>
      have loaded := userCounted sys pc rfl
      simp [Worker.willSee, loaded]
    | system =>
      have loaded : 0 < sys := by simpa [Worker.willSee, pc] using sees
      simp [Worker.willSee, loaded]
  | again pc more => rfl
  | drained pc none =>
    refine absurd ?_ none
    simpa [Worker.willSee, pc, active] using sees
  | reacquire pc _ => cases stays
  | overtaken pc running => exact absurd (running.symm.trans idle) nofun
  | take pc answer looked | miss pc answer looked | fetchSub pc | invoke pc | handled pc | suspended pc yes
  | active pc no | storeIdle pc => simp [Worker.willSee, pc] at sees

/-- A worker that still watches the counters is not finished. -/
theorem Worker.finished_of_willSee {w : Worker M} {k : Kind} (sees : w.willSee k = true) : w.finished = false := by
  cases pc : w.pc <;> simp_all [Worker.willSee, Worker.finished]

theorem Worker.finished_of_holds {w : Worker M} (held : w.holds = true) : w.finished = false := by
  cases pc : w.pc <;> simp_all [Worker.holds, Worker.finished]

/-- A post returns from `Schedule` only after it found the flag at `RUNNING`. -/
theorem PostCall.step_open {c c' : PostCall M} (act : c.step b = some (b', c'))
    (idle : b'.schedulerStatus = .idle) : c'.pc ≠ .returned := by
  cases PostCall.act act with
  | push pc | fetchAdd pc | win pc _ => nofun
  | lose pc running => exact absurd (running.symm.trans idle) nofun

theorem Worker.holds_nextRound {w : Worker M} (more : w.round < maxRounds) :
    (Worker.nextRound h w).holds = true := by
  simp [Worker.nextRound, more, Worker.processLoop]

end Tail

namespace Interleaving

variable {M : Type} {h : Handlers}

/-- What is assumed of the surroundings: non-null messages, a dispatcher that runs
every task, handlers that return. -/
def Label.fair : Label M → Bool
  | .post _ message => message.isSome
  | .lose => false
  | .raise _ => false
  | _ => true

/-- The step does not re-acquire the flag in the last allowed round, and does not
load the counter of a queue of `2^31` messages or more. -/
def within (s : State M) : Label M → Bool
  | .worker n =>
    match s.calls[n]? with
    | none => true
    | some w =>
      match w.pc with
      | .reacquire => s.box.schedulerStatus = .running || w.round + 1 < maxRounds
      | .loadSys => s.box.system.queue.length < 2 ^ 31
      | .loadUser _ => s.box.user.queue.length < 2 ^ 31
      | _ => true
  | _ => true

/-- The fair runs whose steps are all `within`. -/
def fairWithin : State M → Label M → Prop := fun s l => (l.fair && within s l) = true

theorem within_worker {s : State M} {n : Nat} {w : Worker M} (get : s.calls[n]? = some w)
    (inside : within s (.worker n) = true) :
    (w.pc = .reacquire → s.box.schedulerStatus = .idle → w.round + 1 < maxRounds) ∧
    (w.pc = .loadSys → s.box.system.queue.length < 2 ^ 31) ∧
    (∀ sys, w.pc = .loadUser sys → s.box.user.queue.length < 2 ^ 31) := by
  simp only [within, get] at inside
  refine ⟨fun pc idle => ?_, fun pc => ?_, fun sys pc => ?_⟩
  · simpa [pc, idle] using inside
  · simpa [pc] using inside
  · simpa [pc] using inside

/-- A message of kind `k` will still be noticed. -/
def Noticed (s : State M) (k : Kind) : Prop :=
  (∃ c ∈ s.posts, inProgress c = true) ∨ ∃ w ∈ s.calls, w.willSee k = true

structure Progress (s : State M) : Prop where
  active : s.box.suspended = 0
  running : s.box.schedulerStatus = .running → 0 < holders s
  noticed : s.box.schedulerStatus = .idle → ∀ k, (s.box.lane k).queue ≠ [] → Noticed s k

theorem progress_init : Progress (init : State M) where
  active := rfl
  running := nofun
  noticed := fun _ k full => absurd (by cases k <;> rfl) full

/-- While the flag is `IDLE` and no post is in progress, the counters are exact. -/
theorem counter_exact {s : State M} (excl : Exclusive s) (inv : Delivery s) (idle : s.box.schedulerStatus = .idle)
    (settled : ∀ c ∈ s.posts, inProgress c = false) (k : Kind) :
    (s.box.lane k).messages = int32 (s.box.lane k).queue.length := by
  have none := excl.idle idle
  simp only [holders] at none
  have free : ∀ w ∈ s.calls, w.holds = false := by
    intro w member
    have zero : s.calls.countP Worker.holds = 0 := by omega
    simpa using List.countP_eq_zero.1 zero w member
  have pops : (s.calls.map (Worker.owes k)).sum = 0 :=
    sum_eq_zero fun w member => (Worker.idle_of_not_holds (free w member) k).2
  have pushes : (s.posts.map (PostCall.owes k)).sum = 0 := by
    apply sum_eq_zero
    intro c member
    have ended : c.pc = .returned := by simpa [inProgress] using settled c member
    simp [PostCall.owes, ended]
  have lags : lag k s = 0 := by simp [lag, pops, pushes]
  simpa [lags] using (inv.lanes k).count

/-- A counted message is seen by the load that is about to read its counter. -/
theorem counter_pos {s : State M} (excl : Exclusive s) (inv : Delivery s) (idle : s.box.schedulerStatus = .idle)
    (settled : ∀ c ∈ s.posts, inProgress c = false) {k : Kind} (full : (s.box.lane k).queue ≠ [])
    (short : (s.box.lane k).queue.length < 2 ^ 31) : 0 < (s.box.lane k).messages := by
  rw [counter_exact excl inv idle settled k]
  exact int32_pos (List.length_pos_iff.2 full) short

theorem progress_worker {s : State M} {pre post : List (Worker M)} {w w' : Worker M} {b : DefaultMailbox M} {n : Nat}
    (excl : Exclusive s) (inv : Delivery s) (prog : Progress s) (get : s.calls[n]? = some w)
    (here : s.calls = pre ++ w :: post) (act : w.step h s.box = some (b, w')) (inside : within s (.worker n) = true) :
    Progress { s with box := b, calls := pre ++ w' :: post } := by
  obtain ⟨lastRound, shortSys, shortUser⟩ := within_worker get inside
  refine ⟨(Worker.step_suspended act).trans prog.active, ?_, ?_⟩
  · intro running
    have old := prog.running
    simp only [holders, here, List.countP_append, List.countP_cons] at old ⊢
    rcases Worker.step_right act with ⟨same, status⟩ | ⟨-, -, -, nowIdle⟩ | ⟨-, pc, wasIdle, -, next⟩
    · rw [same]
      exact old (status ▸ running)
    · exact absurd (nowIdle.symm.trans running) (by decide)
    · have more : ({ w with round := w.round + 1 } : Worker M).round < maxRounds := lastRound pc wasIdle
      rw [next, Worker.holds_nextRound more, if_pos rfl]
      omega
  · intro idle k full
    rcases Worker.step_right act with ⟨-, status⟩ | ⟨-, -, tail, -⟩ | ⟨-, -, -, nowRunning, -⟩
    · have wasIdle : s.box.schedulerStatus = .idle := status ▸ idle
      have free : w.holds = false := free_of_no_holder (excl.idle wasIdle) (List.mem_of_getElem? get)
      have lane := (Worker.step_outside act free k).1
      rw [lane] at full
      by_cases busy : ∃ c ∈ s.posts, inProgress c = true
      · exact .inl busy
      have settled : ∀ c ∈ s.posts, inProgress c = false := by
        intro c member
        simpa using fun moving => busy ⟨c, member, moving⟩
      rcases prog.noticed wasIdle k full with moving | ⟨v, member, sees⟩
      · exact absurd moving busy
      · simp only [here, List.mem_append, List.mem_cons] at member
        rcases member with left | rfl | right
        · exact .inr ⟨v, by simp [left], sees⟩
        · refine .inr ⟨w', by simp, Worker.step_willSee act sees prog.active wasIdle idle ?_ ?_⟩
          · intro pc isSystem
            subst isSystem
            exact counter_pos excl inv wasIdle settled full (shortSys pc)
          · intro sys pc isUser
            subst isUser
            exact counter_pos excl inv wasIdle settled full (shortUser sys pc)
        · exact .inr ⟨v, by simp [right], sees⟩
    · exact .inr ⟨w', by simp, by simp [Worker.willSee, tail]⟩
    · exact absurd (nowRunning.symm.trans idle) (by decide)

theorem progress_keeps :
    Machine.Keeps (step h) fairWithin fun s : State M => (Exclusive s ∧ Delivery s) ∧ Progress s := by
  have base : Machine.Keeps (step h) fairWithin fun s : State M => Exclusive s ∧ Delivery s := by
    refine delivery_keeps.mono ?_
    intro s l allowed
    have fair := (Bool.and_eq_true_iff.1 allowed).1
    cases l <;> first | rfl | exact fair
  refine base.with ?_
  intro s l s' base prog allowed move
  obtain ⟨excl, inv⟩ := base
  obtain ⟨fair, inside⟩ := Bool.and_eq_true_iff.1 allowed
  cases step_cases move with
  | post k message =>
    refine ⟨prog.active, ?_, fun _ _ _ => .inl ⟨_, List.mem_append_right _ (List.mem_singleton.2 rfl), rfl⟩⟩
    intro running
    simpa [holders, dispatching] using prog.running running
  | poster here act =>
    rename_i n pre post c c' b
    obtain ⟨before, after⟩ := PostCall.step_right act
    refine ⟨(PostCall.step_suspended act).trans prog.active, ?_, ?_⟩
    · intro running
      have old := prog.running
      rcases after with ⟨other, same⟩ | ⟨won, -, -⟩
      · have kept := old (same ▸ running)
        simpa [holders, here, List.countP_append, List.countP_cons, dispatching, before, other] using kept
      · simp only [holders, List.countP_append, List.countP_cons, dispatching, won, beq_self_eq_true, if_true]
        omega
    · intro idle k full
      refine .inl ⟨c', by simp, ?_⟩
      simpa [inProgress] using PostCall.step_open act idle
  | dispatch here pc =>
    rename_i n pre post c
    refine ⟨prog.active, fun _ => ?_, ?_⟩
    · simp only [holders]
      omega
    · intro idle
      have none := excl.idle idle
      simp [holders, here, List.countP_append, dispatching, pc] at none
  | start pending =>
    refine ⟨prog.active, fun _ => ?_, ?_⟩
    · simp only [holders, List.countP_append, List.countP_singleton, Worker.holds_processMessages, if_true]
      omega
    · intro idle
      have none := excl.idle idle
      simp only [holders, pending] at none
      omega
  | lose pending => cases fair
  | worker get here act => exact progress_worker excl inv prog get here act inside
  | raise here _ => cases fair

/-- **No message is stranded.** In a fair run whose steps are all `within`, every
quiescent state has both queues empty and the flag at `IDLE`. -/
theorem never_strands {ls : List (Label M)} {s : State M} (run : Machine.Run (step h) fairWithin init ls s)
    (quiet : Quiescent s) :
    s.box.user.queue = [] ∧ s.box.system.queue = [] ∧ s.box.schedulerStatus = .idle := by
  have kept := run.keeps progress_keeps
  obtain ⟨-, prog⟩ := kept ⟨⟨exclusive_init, delivery_init⟩, progress_init⟩
  obtain ⟨posts, tasks, calls⟩ := quiet
  have nobody : holders s = 0 := by
    have noPost : s.posts.countP dispatching = 0 := by
      rw [List.countP_eq_zero]
      intro c member
      have ended : c.pc = .returned := by simpa [inProgress] using posts c member
      simp [dispatching, ended]
    have noCall : s.calls.countP Worker.holds = 0 := by
      rw [List.countP_eq_zero]
      intro w member held
      exact absurd (calls w member) (by simp [Worker.finished_of_holds held])
    simp [holders, noPost, tasks, noCall]
  have idle : s.box.schedulerStatus = .idle := by
    cases status : s.box.schedulerStatus with
    | idle => rfl
    | running => exact absurd (prog.running status) (by omega)
  have empty : ∀ k, (s.box.lane k).queue = [] := by
    intro k
    apply Decidable.byContradiction
    intro full
    rcases prog.noticed idle k full with ⟨c, member, busy⟩ | ⟨w, member, sees⟩
    · simp [posts c member] at busy
    · exact absurd (calls w member) (by simp [Worker.finished_of_willSee sees])
  exact ⟨empty .user, empty .system, idle⟩

/-- One user message, posted and processed. -/
def postAndProcess : List (Label Nat) :=
  [.post .user (some 7), .poster 0, .poster 0, .poster 0, .poster 0, .start] ++ List.replicate 13 (.worker 0)

/-- The state `postAndProcess` leads to. -/
def processed : State Nat where
  box := ⟨⟨[], 0, [some 7], [7]⟩, ⟨[], 0, [], []⟩, .idle, 0⟩
  posts := [⟨.user, some 7, .returned⟩]
  scheduled := 0
  calls := [⟨.returned, 0, 2, true, []⟩]

theorem never_strands_processed : Machine.Run (step ⟨300⟩) fairWithin init postAndProcess processed ∧
    processed.box.user.queue = [] ∧ processed.box.system.queue = [] ∧ processed.box.schedulerStatus = .idle := by
  have run : Machine.Run (step ⟨300⟩) fairWithin init postAndProcess processed :=
    Machine.run_of_execChecked (by decide)
  have quiet : Quiescent processed := ⟨by decide, rfl, by decide⟩
  exact ⟨run, never_strands run quiet⟩

/-! ### The last allowed round

One thread posts again and again, each time just after the worker has found both queues
empty and just before it stores `IDLE`. Each round then ends with a successful
re-acquire; the thousandth leaves `ProcessMessages` with the flag at `RUNNING`. -/

/-- The worker drains the one queued message and finds both queues empty. -/
def drain : List (Label Unit) := List.replicate 9 (.worker 0)

/-- The post number `n`, finding the flag at `RUNNING`. -/
def postBehind (n : Nat) : List (Label Unit) := [.post .user (some ()), .poster n, .poster n, .poster n]

/-- The worker stores `IDLE`, loads the three values and re-acquires. -/
def recheck : List (Label Unit) := List.replicate 5 (.worker 0)

def oneRound (n : Nat) : List (Label Unit) := drain ++ postBehind (n + 1) ++ recheck

/-- The first post, whose task is started. -/
def opening : List (Label Unit) := [.post .user (some ()), .poster 0, .poster 0, .poster 0, .poster 0, .start]

def rounds (n : Nat) : List (Label Unit) := opening ++ (List.range n).flatMap oneRound

/-- The state before round `n` with the worker `w`: one message queued, `n` invoked. -/
def before (n : Nat) (w : Worker Unit) : State Unit where
  box := ⟨⟨[some ()], 1, List.replicate (n + 1) (some ()), List.replicate n ()⟩, ⟨[], 0, [], []⟩, .running, 0⟩
  posts := List.replicate (n + 1) ⟨.user, some (), .returned⟩
  scheduled := 0
  calls := [w]

/-- A worker entering round `n`. -/
def entering (n : Nat) : Worker Unit := ⟨.pop .system, n, 1, false, []⟩

theorem exec_oneRound (n : Nat) : Machine.exec (step ⟨300⟩) (oneRound n) (before n (entering n)) =
    some (before (n + 1) (Worker.nextRound ⟨300⟩ ⟨.reacquire, n + 1, 2, true, []⟩)) := by
  let drained : State Unit := ⟨⟨⟨[], 0, List.replicate (n + 1) (some ()), List.replicate n () ++ [()]⟩, ⟨[], 0, [], []⟩,
    .running, 0⟩, List.replicate (n + 1) ⟨.user, some (), .returned⟩, 0, [⟨.storeIdle, n, 2, true, []⟩]⟩
  have first : Machine.exec (step ⟨300⟩) drain (before n (entering n)) = some drained := rfl
  have second : Machine.exec (step ⟨300⟩) (postBehind (n + 1)) drained =
      some (before (n + 1) ⟨.storeIdle, n, 2, true, []⟩) := by
    have newest : ∀ c : PostCall Unit,
        (List.replicate (n + 1) (⟨.user, some (), .returned⟩ : PostCall Unit) ++ [c])[n + 1]? = some c := by
      intro c
      rw [List.getElem?_append_right (by simp)]
      simp
    have next : ∀ c d : PostCall Unit,
        (List.replicate (n + 1) (⟨.user, some (), .returned⟩ : PostCall Unit) ++ [c]).set (n + 1) d =
          List.replicate (n + 1) ⟨.user, some (), .returned⟩ ++ [d] := by
      intro c d
      rw [List.set_append_right _ _ (by simp)]
      simp
    simp only [postBehind, Machine.exec, step, drained, Option.bind_some, newest, next, PostCall.step, Option.map_some,
      DefaultMailbox.lane, DefaultMailbox.setLane, Lane.push, Lane.fetchAdd, Queue.push]
    simp only [before, List.replicate_succ', List.nil_append]
    rfl
  have third : Machine.exec (step ⟨300⟩) recheck (before (n + 1) ⟨.storeIdle, n, 2, true, []⟩) =
      some (before (n + 1) (Worker.nextRound ⟨300⟩ ⟨.reacquire, n + 1, 2, true, []⟩)) := rfl
  rw [oneRound, List.append_assoc, Machine.exec_append first, Machine.exec_append second, third]

theorem rounds_succ (n : Nat) : rounds (n + 1) = rounds n ++ oneRound n := by
  simp [rounds, List.range_succ, List.flatMap_append]

/-- Before the last allowed round every re-acquire enters the next round. -/
theorem exec_rounds {n : Nat} (more : n < maxRounds) :
    Machine.exec (step ⟨300⟩) (rounds n) init = some (before n (entering n)) := by
  induction n with
  | zero => rfl
  | succ n ih =>
    have round := exec_oneRound n
    rw [Worker.nextRound, if_pos (show n + 1 < maxRounds from more)] at round
    rw [rounds_succ, Machine.exec_append (ih (by omega)), round]
    rfl

/-- The re-acquire of the last allowed round ends the call with the flag at `RUNNING`. -/
theorem exec_lastRound : Machine.exec (step ⟨300⟩) (rounds maxRounds) init =
    some (before maxRounds ⟨.returned, maxRounds, 2, true, []⟩) := by
  have round := exec_oneRound 999
  rw [show maxRounds = 999 + 1 from rfl, rounds_succ, Machine.exec_append (exec_rounds (by decide)), round]
  rfl

/-- **A message is stranded**: a fair run to a quiescent state with a queued user
message and the flag at `RUNNING`, which no later post can take. -/
theorem lastRound_strands : Machine.Run (step ⟨300⟩) (fun _ l => l.fair = true) init (rounds maxRounds)
      (before maxRounds ⟨.returned, maxRounds, 2, true, []⟩) ∧
    Quiescent (before maxRounds ⟨.returned, maxRounds, 2, true, []⟩) ∧
    (before maxRounds ⟨.returned, maxRounds, 2, true, []⟩).box.user.queue = [some ()] ∧
    (before maxRounds ⟨.returned, maxRounds, 2, true, []⟩).box.schedulerStatus = .running := by
  refine ⟨Machine.run_of_exec exec_lastRound ?_, ⟨?_, rfl, ?_⟩, rfl, rfl⟩
  · intro l member
    simp only [rounds, List.mem_append, List.mem_flatMap] at member
    rcases member with first | ⟨n, -, inRound⟩
    · revert l
      decide
    · simp only [oneRound, drain, recheck, postBehind, List.mem_append, List.mem_replicate] at inRound
      rcases inRound with (⟨-, rfl⟩ | posted) | ⟨-, rfl⟩
      · rfl
      · simp only [List.mem_cons, List.not_mem_nil, or_false] at posted
        rcases posted with rfl | rfl | rfl | rfl <;> rfl
      · rfl
  · intro c member
    rw [(List.mem_replicate.1 member).2]
    rfl
  · intro w member
    rw [List.mem_singleton.1 member]
    rfl

end Interleaving

end Protoactor.Actor
