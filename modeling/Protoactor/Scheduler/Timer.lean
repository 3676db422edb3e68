import Protoactor.Lib.Machine

/-!
# Timers (`src/scheduler/timer.cpp`)

The thread of a timer and the calls of its `CancelFunc`, one atomic step after another. A call that joins
returns after the thread has ended. Of the calls on a repeated timer only the first joins: a later one finds
the state `2` and returns at once, while the thread may have passed its last test and be about to send.
-/

namespace Protoactor.Scheduler
set_option autoImplicit false
open Lib

/-- The methods of `TimerScheduler` that start a timer. -/
inductive Method where
  | sendOnce
  | sendRepeatedly
  | requestOnce
  | requestRepeatedly
  deriving DecidableEq, Repr

def Method.repeats : Method → Bool
  | .sendOnce | .requestOnce => false
  | .sendRepeatedly | .requestRepeatedly => true

/-- What the thread calls on `ctx_`. -/
inductive Delivery where
  | send
  | request
  deriving DecidableEq, Repr

def Method.delivery : Method → Delivery
  | .sendOnce | .sendRepeatedly => .send
  | .requestOnce | .requestRepeatedly => .request

/-- The next step of the thread. -/
inductive ThreadPc where
  /-- `while (state->load() == 0)` -/
  | awaitReady
  /-- `if (state->load() == 2)` before the loop -/
  | loadState
  /-- `sleep_for(delay)` -/
  | sleep
  /-- `cancelled->load()` -/
  | loadCancelled
  /-- `if (state->load() == 2)` in the loop -/
  | testState
  /-- `ctx_->Send(pid, message)` or `ctx_->Request(pid, message)` -/
  | send
  /-- `sleep_for(interval)` -/
  | sleepInterval
  | ended
  deriving DecidableEq, Repr

/-- The next step of a call of the `CancelFunc`. -/
inductive CancelPc where
  /-- `state->exchange(2) != 2` -/
  | exchange
  /-- `cancelled->store(true)` -/
  | storeCancelled
  /-- `timer_thread->joinable()` -/
  | joinable
  /-- `timer_thread->join()` -/
  | join
  /-- the exchange has answered `2` -/
  | leave
  | returned
  /-- left by an exception of `join` -/
  | threw
  deriving DecidableEq, Repr

structure Timer where
  state : Nat
  cancelled : Bool
  thread : ThreadPc
  /-- a `join` has returned -/
  joined : Bool
  /-- the method has returned its `CancelFunc` -/
  issued : Bool
  calls : List CancelPc
  /-- auxiliary: what the thread has called on `ctx_` -/
  sent : List Delivery
  deriving DecidableEq, Repr

namespace Timer

/-- When the thread has been made. -/
def new (m : Method) : Timer where
  state := 0
  cancelled := false
  thread := if m.repeats then .awaitReady else .sleep
  joined := false
  issued := false
  calls := []
  sent := []

inductive Label where
  /-- the rest of the method: `state->store(1)`, and the return -/
  | issue
  | thread
  /-- a call of the `CancelFunc` -/
  | call
  /-- the next step of that call -/
  | cancel (i : Nat)
  /-- the exception of `join` in that call -/
  | fail (i : Nat)
  deriving DecidableEq, Repr

def stepThread (m : Method) (t : Timer) : Option Timer :=
  match t.thread with
  | .awaitReady => some { t with thread := if t.state = 0 then .awaitReady else .loadState }
  | .loadState => some { t with thread := if t.state = 2 then .ended else .sleep }
  | .sleep => some { t with thread := .loadCancelled }
  | .loadCancelled => some { t with thread := if t.cancelled then .ended else if m.repeats then .testState else .send }
  | .testState => some { t with thread := if t.state = 2 then .ended else .send }
  | .send => some { t with sent := t.sent ++ [m.delivery], thread := if m.repeats then .sleepInterval else .ended }
  | .sleepInterval => some { t with thread := .loadCancelled }
  | .ended => none

/-- The call moves on. -/
def moveTo (i : Nat) (pc : CancelPc) (t : Timer) : Timer := { t with calls := t.calls.set i pc }

def stepCancel (i : Nat) (t : Timer) : Option Timer :=
  match t.calls[i]? with
  | some .exchange => some ({ t with state := 2 }.moveTo i (if t.state = 2 then .leave else .storeCancelled))
  | some .storeCancelled => some ({ t with cancelled := true }.moveTo i .joinable)
  | some .joinable => some (t.moveTo i (if t.joined then .returned else .join))
  | some .join => if t.thread = .ended ∧ t.joined = false then some ({ t with joined := true }.moveTo i .returned) else none
  | some .leave => some (t.moveTo i .returned)
  | _ => none

/-- One step; a `join` can fail at any time. -/
def step (m : Method) : Machine Timer Label := fun t l =>
  match l with
  | .issue => if t.issued then none else some { t with state := if m.repeats then 1 else t.state, issued := true }
  | .thread => t.stepThread m
  | .call => if t.issued then some { t with calls := t.calls ++ [if m.repeats then .exchange else .storeCancelled] } else none
  | .cancel i => t.stepCancel i
  | .fail i => if t.calls[i]? = some .join then some (t.moveTo i .threw) else none

/-- A call that joins no thread does not return while the thread is about to send. -/
def Allowed (t : Timer) : Label → Prop
  | .cancel i => t.calls[i]? = some .leave → t.thread ≠ .send
  | _ => True

/-! ## After a return -/

/-- The thread will not send any more. -/
def Quiet (m : Method) (t : Timer) : Prop := t.thread = .ended ∨ (m.repeats = true ∧ t.state = 2 ∧ t.thread ≠ .send)

structure Inv (m : Method) (t : Timer) : Prop where
  joined : t.joined = true → t.thread = .ended
  fresh : t.issued = false → t.calls = [] ∧ t.state = 0
  leaving : .leave ∈ t.calls → m.repeats = true ∧ t.state = 2
  exchanging : .exchange ∈ t.calls → m.repeats = true
  returned : .returned ∈ t.calls → Quiet m t

theorem inv_new (m : Method) : Inv m (new m) := ⟨nofun, fun _ => ⟨rfl, rfl⟩, nofun, nofun, nofun⟩

variable {m : Method} {t t' : Timer}

/-- The thread sends nothing from then on. -/
theorem quiet_thread (quiet : Quiet m t) (act : t.stepThread m = some t') : Quiet m t' ∧ t'.sent = t.sent := by
  unfold stepThread at act
  rcases quiet with ended | ⟨repeats, two, before⟩
  · rw [ended] at act
    cases act
  · cases pc : t.thread <;> rw [pc] at act before <;> cases act
    · exact ⟨.inr ⟨repeats, two, by rw [if_neg (by omega)]; nofun⟩, rfl⟩
    · exact ⟨.inl (if_pos two), rfl⟩
    · exact ⟨.inr ⟨repeats, two, nofun⟩, rfl⟩
    · refine ⟨?_, rfl⟩
      cases cancelled : t.cancelled with
      | true => exact .inl (by simp)
      | false => exact .inr ⟨repeats, two, by simp [repeats]⟩
    · exact ⟨.inl (if_pos two), rfl⟩
    · exact absurd rfl before
    · exact ⟨.inr ⟨repeats, two, nofun⟩, rfl⟩

/-- The step of a call: where it stood, and what it does. -/
inductive Cancels (i : Nat) (t : Timer) : Timer → Prop where
  | first (at' : t.calls[i]? = some .exchange) (free : t.state ≠ 2) : Cancels i t ({ t with state := 2 }.moveTo i .storeCancelled)
  | later (at' : t.calls[i]? = some .exchange) (two : t.state = 2) : Cancels i t ({ t with state := 2 }.moveTo i .leave)
  | stores (at' : t.calls[i]? = some .storeCancelled) : Cancels i t ({ t with cancelled := true }.moveTo i .joinable)
  | finds (at' : t.calls[i]? = some .joinable) (joined : t.joined = true) : Cancels i t (t.moveTo i .returned)
  | tries (at' : t.calls[i]? = some .joinable) : Cancels i t (t.moveTo i .join)
  | joins (at' : t.calls[i]? = some .join) (ended : t.thread = .ended) : Cancels i t ({ t with joined := true }.moveTo i .returned)
  | leaves (at' : t.calls[i]? = some .leave) : Cancels i t (t.moveTo i .returned)

theorem stepCancel_cancels {i : Nat} (act : t.stepCancel i = some t') : Cancels i t t' := by
  unfold stepCancel at act
  split at act
  · rename_i pc
    cases act
    by_cases two : t.state = 2
    · rw [if_pos two]
      exact .later pc two
    · rw [if_neg two]
      exact .first pc two
  · rename_i pc
    cases act
    exact .stores pc
  · rename_i pc
    cases act
    cases joined : t.joined with
    | true => exact .finds pc joined
    | false => exact .tries pc
  · rename_i pc
    split at act
    · rename_i done
      cases act
      exact .joins pc done.1
    · cases act
  · rename_i pc
    cases act
    exact .leaves pc
  · cases act

/-- A call that has moved on is where it is now, the others are where they were. -/
theorem mem_moveTo {i : Nat} {pc now : CancelPc} (inside : pc ∈ (t.moveTo i now).calls) : pc ∈ t.calls ∨ pc = now :=
  List.mem_or_eq_of_mem_set inside

/-- What a call may do before it moves on to `now`. -/
structure Before (m : Method) (t u : Timer) (now : CancelPc) : Prop where
  thread : u.thread = t.thread
  calls : u.calls = t.calls
  sent : u.sent = t.sent
  issued : u.issued = t.issued
  state : u.state = t.state ∨ u.state = 2
  joined : u.joined = true → t.joined = true ∨ t.thread = .ended
  leaving : now = .leave → m.repeats = true ∧ u.state = 2
  exchanging : now ≠ .exchange
  returned : now = .returned → Quiet m u

theorem inv_moveTo {i : Nat} {u : Timer} {pc now : CancelPc} (inv : Inv m t) (at' : t.calls[i]? = some pc) (before : Before m t u now) :
    Inv m (u.moveTo i now) ∧ (u.moveTo i now).sent = t.sent := by
  have two : t.state = 2 → u.state = 2 := fun two => before.state.elim (·.trans two) id
  refine ⟨⟨fun joined => ?_, fun fresh => ?_, fun leave => ?_, fun exchange => ?_, fun returned => ?_⟩, before.sent⟩
  · rcases before.joined joined with earlier | ended
    · exact before.thread.trans (inv.joined earlier)
    · exact before.thread.trans ended
  · have none := (inv.fresh (before.issued.symm.trans fresh)).1
    rw [none] at at'
    cases at'
  · rcases mem_moveTo leave with old | new
    · obtain ⟨repeats, state⟩ := inv.leaving (before.calls ▸ old)
      exact ⟨repeats, two state⟩
    · exact before.leaving new.symm
  · rcases mem_moveTo exchange with old | new
    · exact inv.exchanging (before.calls ▸ old)
    · exact absurd new.symm before.exchanging
  · rcases mem_moveTo returned with old | new
    · rcases inv.returned (before.calls ▸ old) with ended | ⟨repeats, state, pc⟩
      · exact .inl (before.thread.trans ended)
      · exact .inr ⟨repeats, two state, fun send => pc (before.thread.symm.trans send)⟩
    · exact before.returned new.symm

/-- A step of a call: what it returns from is quiet. -/
theorem inv_cancel {i : Nat} (inv : Inv m t) (allowed : Allowed t (.cancel i)) (act : t.stepCancel i = some t') :
    Inv m t' ∧ t'.sent = t.sent := by
  cases stepCancel_cancels act with
  | first at' free => exact inv_moveTo inv at' ⟨rfl, rfl, rfl, rfl, .inr rfl, .inl, nofun, nofun, nofun⟩
  | later at' two =>
    have repeats := inv.exchanging (List.mem_of_getElem? at')
    exact inv_moveTo inv at' ⟨rfl, rfl, rfl, rfl, .inr rfl, .inl, fun _ => ⟨repeats, rfl⟩, nofun, nofun⟩
  | stores at' => exact inv_moveTo inv at' ⟨rfl, rfl, rfl, rfl, .inl rfl, .inl, nofun, nofun, nofun⟩
  | finds at' joined => exact inv_moveTo inv at' ⟨rfl, rfl, rfl, rfl, .inl rfl, .inl, nofun, nofun, fun _ => .inl (inv.joined joined)⟩
  | tries at' => exact inv_moveTo inv at' ⟨rfl, rfl, rfl, rfl, .inl rfl, .inl, nofun, nofun, nofun⟩
  | joins at' ended => exact inv_moveTo inv at' ⟨rfl, rfl, rfl, rfl, .inl rfl, fun _ => .inr ended, nofun, nofun, fun _ => .inl ended⟩
  | leaves at' =>
    obtain ⟨repeats, two⟩ := inv.leaving (List.mem_of_getElem? at')
    exact inv_moveTo inv at' ⟨rfl, rfl, rfl, rfl, .inl rfl, .inl, nofun, nofun, fun _ => .inr ⟨repeats, two, allowed at'⟩⟩

/-- A call that has returned does not move. -/
theorem returned_moveTo {i : Nat} {u : Timer} {pc now : CancelPc} (at' : t.calls[i]? = some pc) (going : pc ≠ .returned)
    (calls : u.calls = t.calls) (returned : .returned ∈ t.calls) : .returned ∈ (u.moveTo i now).calls := by
  obtain ⟨j, there⟩ := List.mem_iff_getElem?.1 returned
  have other : i ≠ j := by
    rintro rfl
    exact going (Option.some.inj (at'.symm.trans there))
  refine List.mem_iff_getElem?.2 ⟨j, ?_⟩
  rw [moveTo, List.getElem?_set_ne other, calls, there]

theorem returned_cancel {i : Nat} (act : t.stepCancel i = some t') (returned : .returned ∈ t.calls) : .returned ∈ t'.calls := by
  cases stepCancel_cancels act with
  | first at' | later at' | stores at' | finds at' | tries at' | joins at' | leaves at' =>
    exact returned_moveTo at' nofun rfl returned

theorem stepThread_rest (act : t.stepThread m = some t') :
    t'.state = t.state ∧ t'.joined = t.joined ∧ t'.issued = t.issued ∧ t'.calls = t.calls ∧ t.thread ≠ .ended := by
  unfold stepThread at act
  cases pc : t.thread <;> rw [pc] at act <;> cases act <;> exact ⟨rfl, rfl, rfl, rfl, nofun⟩

/-- **One step** keeps the invariant, and sends nothing once a call has returned. -/
theorem inv_step {l : Label} (inv : Inv m t) (allowed : Allowed t l) (act : step m t l = some t') :
    Inv m t' ∧ (.returned ∈ t.calls → .returned ∈ t'.calls ∧ t'.sent = t.sent) := by
  cases l with
  | issue =>
    simp only [step] at act
    split at act
    · cases act
    · rename_i fresh
      have none := (inv.fresh (Bool.eq_false_iff.2 fresh)).1
      cases act
      exact ⟨⟨inv.joined, nofun, by simp [none], by simp [none], by simp [none]⟩, by simp [none]⟩
  | thread =>
    obtain ⟨state, joined, issued, calls, going⟩ := stepThread_rest act
    refine ⟨⟨fun done => ?_, ?_, ?_, ?_, fun returned => ?_⟩, fun returned => ?_⟩
    · exact absurd (inv.joined (joined.symm.trans done)) going
    · rw [issued, calls, state]
      exact inv.fresh
    · rw [calls, state]
      exact inv.leaving
    · rw [calls]
      exact inv.exchanging
    · exact (quiet_thread (inv.returned (calls ▸ returned)) act).1
    · exact ⟨calls ▸ returned, (quiet_thread (inv.returned returned) act).2⟩
  | call =>
    simp only [step] at act
    split at act
    · rename_i issued
      cases act
      refine ⟨⟨inv.joined, fun fresh => absurd (issued.symm.trans fresh) nofun, ?_, ?_, ?_⟩, fun returned => ⟨List.mem_append_left _ returned, rfl⟩⟩
      · intro leave
        rcases List.mem_append.1 leave with old | new
        · exact inv.leaving old
        · cases repeats : m.repeats <;> rw [repeats] at new <;> cases List.mem_singleton.1 new
      · intro exchange
        rcases List.mem_append.1 exchange with old | new
        · exact inv.exchanging old
        · cases repeats : m.repeats with
          | true => rfl
          | false => rw [repeats] at new; cases List.mem_singleton.1 new
      · intro returned
        rcases List.mem_append.1 returned with old | new
        · exact inv.returned old
        · cases repeats : m.repeats <;> rw [repeats] at new <;> cases List.mem_singleton.1 new
    · cases act
  | cancel i =>
    obtain ⟨inv', sent⟩ := inv_cancel inv allowed act
    exact ⟨inv', fun returned => ⟨returned_cancel act returned, sent⟩⟩
  | fail i =>
    simp only [step] at act
    split at act
    · rename_i at'
      cases act
      have kept : Inv m (t.moveTo i .threw) ∧ (t.moveTo i .threw).sent = t.sent :=
        inv_moveTo inv at' ⟨rfl, rfl, rfl, rfl, .inl rfl, .inl, nofun, nofun, nofun⟩
      obtain ⟨inv', sent⟩ := kept
      exact ⟨inv', fun returned => ⟨returned_moveTo at' nofun rfl returned, sent⟩⟩
    · cases act

/-! ## Runs -/

/-- What the thread has sent when a call has returned is all it sends. -/
theorem sent_run {ls : List Label} (run : Machine.Run (step m) Allowed t ls t') (inv : Inv m t) (returned : .returned ∈ t.calls) :
    t'.sent = t.sent := by
  induction run with
  | nil => rfl
  | cons act allowed _ ih =>
    obtain ⟨inv', kept⟩ := inv_step inv allowed act
    obtain ⟨still, same⟩ := kept returned
    exact (ih inv' still).trans same

/-- A call that returns without a join while the thread is about to send: the thread sends after it. -/
theorem sends_late {l : Label} (breaks : ¬ Allowed t l) (act : step m t l = some t') :
    .returned ∈ t'.calls ∧ ∃ t'', step m t' .thread = some t'' ∧ t''.sent ≠ t'.sent := by
  cases l with
  | cancel i =>
    obtain ⟨at', send⟩ := Classical.not_imp.1 breaks
    have send := Decidable.not_not.1 send
    simp only [step, stepCancel, at', Option.some.injEq] at act
    subst act
    have inside : i < t.calls.length := (List.getElem?_eq_some_iff.1 at').1
    refine ⟨List.mem_iff_getElem?.2 ⟨i, List.getElem?_set_self inside⟩,
      { t.moveTo i .returned with sent := t.sent ++ [m.delivery], thread := if m.repeats then .sleepInterval else .ended }, ?_, ?_⟩
    · simp only [step, stepThread, moveTo, send]
    · intro same
      have longer := congrArg List.length same
      rw [List.length_append, List.length_singleton] at longer
      exact absurd longer (Nat.succ_ne_self _)
  | issue | thread | call | fail _ => exact absurd trivial breaks

/-- A timer that fires once has no such returns. -/
theorem once_allowed (once : m.repeats = false) (inv : Inv m t) (l : Label) : Allowed t l := by
  cases l with
  | cancel i =>
    intro leave
    cases once.symm.trans (inv.leaving (List.mem_of_getElem? leave)).1
  | issue | thread | call | fail _ => trivial

theorem once_run {ls : List Label} (once : m.repeats = false) (run : Machine.Run (step m) Machine.free t ls t') (inv : Inv m t) :
    Machine.Run (step m) Allowed t ls t' := by
  induction run with
  | nil => exact .nil _
  | @cons s _ _ l _ act _ _ ih =>
    have allowed : Allowed s l := once_allowed once inv l
    exact .cons act allowed (ih (inv_step inv allowed act).1)

theorem inv_run {ls : List Label} (run : Machine.Run (step m) Allowed (new m) ls t) : Inv m t :=
  run.keeps (fun _ _ _ inv allowed act => (inv_step inv allowed act).1) (inv_new m)

/-- **A cancelled timer is silent** in every run in which no call returns without a join while the thread is about to send,
which is every run if the timer fires once; after any such return the thread can send once more. -/
theorem silent_iff (m : Method) :
    (∀ ls t ls' t', Machine.Run (step m) Allowed (new m) ls t → Machine.Run (step m) Allowed t ls' t' → .returned ∈ t.calls →
      t'.sent = t.sent) ∧
    (m.repeats = false → ∀ ls t ls' t', Machine.Run (step m) Machine.free (new m) ls t → Machine.Run (step m) Machine.free t ls' t' →
      .returned ∈ t.calls → t'.sent = t.sent) ∧
    ∀ ls t l t', Machine.Run (step m) Machine.free (new m) ls t → step m t l = some t' → ¬ Allowed t l →
      .returned ∈ t'.calls ∧ ∃ t'', step m t' .thread = some t'' ∧ t''.sent ≠ t'.sent := by
  refine ⟨fun ls t ls' t' run later returned => sent_run later (inv_run run) returned, fun once ls t ls' t' run later returned => ?_,
    fun ls t l t' _ act breaks => sends_late breaks act⟩
  have inv := inv_run (once_run once run (inv_new m))
  exact sent_run (once_run once later inv) inv returned

/-- The thread is about to send when two calls come in, and the second returns at once. -/
def race : List Label :=
  [.issue, .thread, .thread, .thread, .thread, .thread, .call, .call, .cancel 0, .cancel 1, .cancel 1]

theorem silent_iff_once : ∃ t, Machine.Run (step .sendOnce) Allowed (new .sendOnce)
      [.issue, .thread, .call, .cancel 0, .thread, .cancel 0, .cancel 0] t ∧ t.calls = [.returned] ∧ t.sent = [] ∧
    ∀ ls' t', Machine.Run (step .sendOnce) Allowed t ls' t' → t'.sent = t.sent := by
  have exec : Machine.exec (step .sendOnce) [.issue, .thread, .call, .cancel 0, .thread, .cancel 0, .cancel 0] (new .sendOnce) =
      some ⟨0, true, .ended, true, true, [.returned], []⟩ := rfl
  have run := once_run rfl (Machine.free_of_exec exec) (inv_new _)
  exact ⟨_, run, rfl, rfl, fun ls' t' later => (silent_iff .sendOnce).1 _ _ ls' t' run later (.head _)⟩

/-- A call has returned, and the timer sends. -/
theorem not_silent : ∃ t t', Machine.Run (step .sendRepeatedly) Machine.free (new .sendRepeatedly) race t ∧ .returned ∈ t.calls ∧
    Machine.Run (step .sendRepeatedly) Machine.free t [.thread] t' ∧ t.sent = [] ∧ t'.sent = [.send] := by
  have exec : Machine.exec (step .sendRepeatedly) race (new .sendRepeatedly) =
      some ⟨2, false, .send, false, true, [.storeCancelled, .returned], []⟩ := rfl
  exact ⟨_, _, Machine.free_of_exec exec, .tail _ (.head _), .cons rfl trivial (.nil _), rfl, rfl⟩

end Timer

end Protoactor.Scheduler
