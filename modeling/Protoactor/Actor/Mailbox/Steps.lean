import Protoactor.Actor.Mailbox

/-!
# One step of one call

`Worker.Act` and `PostCall.Act` list what a step of a `ProcessMessages` call and of a post
can do, one constructor for each outcome, with the test that led to it. The invariants of
every dispatcher are derived from these lists and from the frame lemmas below them.
-/

namespace Protoactor.Actor
set_option autoImplicit false
open Lib

variable {M : Type} {h : Handlers} {b b' : DefaultMailbox M}

/-- One step of `ProcessMessages`. -/
inductive Worker.Act (h : Handlers) (b : DefaultMailbox M) (w : Worker M) : DefaultMailbox M → Worker M → Prop where
  | take {k : Kind} {m : M} {seen : List (Option M)} (pc : w.pc = .pop k) (answer : (b.lane k).pop.1 = some m)
      (looked : seen = if k = .system then b.system.pushed else w.seen) :
      Act h b w (b.setLane k (b.lane k).pop.2) { w with pc := .fetchSub k m, seen := seen }
  | miss {k : Kind} {seen : List (Option M)} (pc : w.pc = .pop k) (answer : (b.lane k).pop.1 = none)
      (looked : seen = if k = .system then b.system.pushed else w.seen) :
      Act h b w (b.setLane k (b.lane k).pop.2) ({ w with seen := seen }.popped k none)
  | fetchSub {k : Kind} {m : M} (pc : w.pc = .fetchSub k m) :
      Act h b w (b.setLane k (b.lane k).fetchSub) { w with pc := .invoke k m, processedAny := true }
  | invoke {k : Kind} {m : M} (pc : w.pc = .invoke k m) :
      Act h b w (b.setLane k ((b.lane k).invoke m)) { w with pc := .invoking k m }
  | handled {k : Kind} {m : M} (pc : w.pc = .invoking k m) : Act h b w b (w.iterate h)
  | suspended (pc : w.pc = .checkSuspended) (yes : b.suspended = 1) : Act h b w b { w with pc := .storeIdle }
  | active (pc : w.pc = .checkSuspended) (no : b.suspended ≠ 1) : Act h b w b { w with pc := .pop .user }
  | storeIdle (pc : w.pc = .storeIdle) : Act h b w { b with schedulerStatus := .idle } { w with pc := .loadSys }
  | loadSys (pc : w.pc = .loadSys) : Act h b w b { w with pc := .loadUser b.system.messages }
  | loadUser {sys : Int} (pc : w.pc = .loadUser sys) : Act h b w b { w with pc := .loadSuspended sys b.user.messages }
  | again {sys user : Int} (pc : w.pc = .loadSuspended sys user) (more : 0 < sys ∨ (b.suspended = 0 ∧ 0 < user)) :
      Act h b w b { w with pc := .reacquire }
  | drained {sys user : Int} (pc : w.pc = .loadSuspended sys user) (none : ¬ (0 < sys ∨ (b.suspended = 0 ∧ 0 < user))) :
      Act h b w b { w with pc := .returned }
  | reacquire (pc : w.pc = .reacquire) (idle : b.schedulerStatus = .idle) :
      Act h b w { b with schedulerStatus := .running } (Worker.nextRound h { w with round := w.round + 1 })
  | overtaken (pc : w.pc = .reacquire) (running : b.schedulerStatus = .running) : Act h b w b { w with pc := .returned }

theorem Worker.act {w w' : Worker M} (act : w.step h b = some (b', w')) : Worker.Act h b w b' w' := by
  cases pc : w.pc with
  | pop k =>
    simp only [Worker.step, pc] at act
    cases act
    cases answer : (b.lane k).pop.1 with
    | some m => cases k <;> exact .take pc answer rfl
    | none => cases k <;> exact .miss pc answer rfl
  | checkSuspended =>
    simp only [Worker.step, pc] at act
    cases act
    by_cases suspended : b.suspended = 1
    · rw [if_pos suspended]
      exact .suspended pc suspended
    · rw [if_neg suspended]
      exact .active pc suspended
  | loadSuspended sys user =>
    simp only [Worker.step, pc] at act
    cases act
    by_cases more : 0 < sys ∨ (b.suspended = 0 ∧ 0 < user)
    · rw [if_pos more]
      exact .again pc more
    · rw [if_neg more]
      exact .drained pc more
  | reacquire =>
    simp only [Worker.step, pc] at act
    split at act
    · rename_i idle
      cases act
      exact .reacquire pc idle
    · rename_i running
      cases act
      exact .overtaken pc running
  | fetchSub k m =>
    simp only [Worker.step, pc] at act
    cases act
    exact .fetchSub pc
  | invoke k m =>
    simp only [Worker.step, pc] at act
    cases act
    exact .invoke pc
  | invoking k m =>
    simp only [Worker.step, pc] at act
    cases act
    exact .handled pc
  | storeIdle =>
    simp only [Worker.step, pc] at act
    cases act
    exact .storeIdle pc
  | loadSys =>
    simp only [Worker.step, pc] at act
    cases act
    exact .loadSys pc
  | loadUser sys =>
    simp only [Worker.step, pc] at act
    cases act
    exact .loadUser pc
  | returned | threw => simp [Worker.step, pc] at act

/-- One step of a post. -/
inductive PostCall.Act (b : DefaultMailbox M) (c : PostCall M) : DefaultMailbox M → PostCall M → Prop where
  | push (pc : c.pc = .push) : Act b c (b.setLane c.kind ((b.lane c.kind).push c.message)) { c with pc := .fetchAdd }
  | fetchAdd (pc : c.pc = .fetchAdd) : Act b c (b.setLane c.kind (b.lane c.kind).fetchAdd) { c with pc := .schedule }
  | win (pc : c.pc = .schedule) (idle : b.schedulerStatus = .idle) :
      Act b c { b with schedulerStatus := .running } { c with pc := .dispatch }
  | lose (pc : c.pc = .schedule) (running : b.schedulerStatus = .running) : Act b c b { c with pc := .returned }

theorem PostCall.act {c c' : PostCall M} (act : c.step b = some (b', c')) : PostCall.Act b c b' c' := by
  cases pc : c.pc with
  | push =>
    simp only [PostCall.step, pc] at act
    cases act
    exact .push pc
  | fetchAdd =>
    simp only [PostCall.step, pc] at act
    cases act
    exact .fetchAdd pc
  | schedule =>
    simp only [PostCall.step, pc] at act
    split at act
    · rename_i idle
      cases act
      exact .win pc idle
    · rename_i running
      cases act
      exact .lose pc running
  | dispatch | returned => simp [PostCall.step, pc] at act

/-! ## What a step leaves alone -/

/-- Writing one lane is seen in that lane only. -/
theorem DefaultMailbox.lane_setLane_cases (b : DefaultMailbox M) (j k : Kind) (l : Lane M) :
    (k = j ∧ (b.setLane j l).lane k = l) ∨ (k ≠ j ∧ (b.setLane j l).lane k = b.lane k) := by
  by_cases same : k = j
  · subst same
    exact .inl ⟨rfl, b.lane_setLane k l⟩
  · exact .inr ⟨same, b.lane_setLane_of_ne l same⟩

/-- Nothing in the mailbox sets `suspended_`. -/
theorem Worker.step_suspended {w w' : Worker M} (act : w.step h b = some (b', w')) : b'.suspended = b.suspended := by
  cases Worker.act act <;> simp

theorem PostCall.step_suspended {c c' : PostCall M} (act : c.step b = some (b', c')) :
    b'.suspended = b.suspended := by
  cases PostCall.act act <;> simp

/-- `ProcessMessages` never pushes. -/
theorem Worker.step_pushed {w w' : Worker M} (act : w.step h b = some (b', w')) (k : Kind) :
    (b'.lane k).pushed = (b.lane k).pushed := by
  have written : ∀ {j : Kind} {l : Lane M}, l.pushed = (b.lane j).pushed →
      ((b.setLane j l).lane k).pushed = (b.lane k).pushed := by
    intro j l kept
    rcases b.lane_setLane_cases j k l with ⟨rfl, own⟩ | ⟨-, other⟩
    · rw [own, kept]
    · rw [other]
  cases Worker.act act with
  | take pc answer looked | miss pc answer looked | fetchSub pc | invoke pc => exact written rfl
  | storeIdle pc | reacquire pc idle => simp
  | handled pc | suspended pc yes | active pc no | loadSys pc | loadUser pc | again pc more | drained pc none
  | overtaken pc running => rfl

/-- A post pushes its message, once, at its first step. -/
theorem PostCall.step_pushed {c c' : PostCall M} (act : c.step b = some (b', c')) (k : Kind) :
    c'.pc ≠ .push ∧ (b'.lane k).pushed =
      (b.lane k).pushed ++ if c.pc = .push ∧ c.kind = k then [c.message] else [] := by
  cases PostCall.act act with
  | push pc =>
    refine ⟨nofun, ?_⟩
    rcases b.lane_setLane_cases c.kind k ((b.lane c.kind).push c.message) with ⟨rfl, -⟩ | ⟨different, other⟩
    · simp [pc, Lane.push]
    · simp [other, Ne.symm different]
  | fetchAdd pc =>
    refine ⟨nofun, ?_⟩
    rcases b.lane_setLane_cases c.kind k (b.lane c.kind).fetchAdd with ⟨rfl, -⟩ | ⟨-, other⟩
    · simp [pc, Lane.fetchAdd]
    · simp [other, pc]
  | win pc idle => exact ⟨nofun, by simp [pc]⟩
  | lose pc running => exact ⟨nofun, by simp [pc]⟩

/-- A post never invokes. -/
theorem PostCall.step_invoked {c c' : PostCall M} (act : c.step b = some (b', c')) (k : Kind) :
    c'.message = c.message ∧ (b'.lane k).invoked = (b.lane k).invoked := by
  cases PostCall.act act with
  | push pc =>
    refine ⟨rfl, ?_⟩
    rcases b.lane_setLane_cases c.kind k ((b.lane c.kind).push c.message) with ⟨rfl, own⟩ | ⟨-, other⟩
    · rw [own, Lane.push]
    · rw [other]
  | fetchAdd pc =>
    refine ⟨rfl, ?_⟩
    rcases b.lane_setLane_cases c.kind k (b.lane c.kind).fetchAdd with ⟨rfl, own⟩ | ⟨-, other⟩
    · rw [own, Lane.fetchAdd]
    · rw [other]
  | win pc idle => exact ⟨rfl, by simp⟩
  | lose pc running => exact ⟨rfl, rfl⟩

end Protoactor.Actor
