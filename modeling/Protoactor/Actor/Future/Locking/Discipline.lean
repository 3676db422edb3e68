import Mathlib.Algebra.GroupWithZero.Nat
import Protoactor.Actor.Future.Locking

/-!
# Who holds the mutex

In a careful run at most one thread is inside a critical section, and it has the lock; the
others have none of its frames. `Move` lists what a careful step can do: a step inside the
section makes the stack lighter and leaves alone what is to become of the future.
-/

namespace Protoactor.Actor.FutureImpl.Locking
set_option autoImplicit false
open Lib

variable {U K F : Type}

/-! ## Inside the critical section -/

/-- What is left to do on the stack, as it is without the lock. -/
def Frame.settle (f : FutureImpl U K F) : Frame U K F → FutureImpl U K F
  | .body (.op op) => f.apply op
  | .sendToPipes => f.sendToPipes
  | .piping msg rest => { f with piped := f.piped ++ rest.map (·, msg), pipes := [] }
  | .runCompletions => f.runCompletions
  | .completing rest => { f with called := f.called ++ rest.map (·, f.result, f.err), completions := [] }
  | _ => f

def settle (f : FutureImpl U K F) (stack : List (Frame U K F)) : FutureImpl U K F := stack.foldl Frame.settle f

/-- A bound for the steps that a frame takes. -/
def Frame.weight (f : FutureImpl U K F) : Frame U K F → Nat
  | .lock _ | .waiting => 0
  | .body .result | .callback | .unlock => 1
  | .body (.op op) => 2 * (f.pipes.length + f.completions.length + (Op.targets [op]).length) + 5
  | .sendToPipes => 2 * f.pipes.length + 2
  | .piping _ rest => 2 * rest.length + 1
  | .runCompletions => 2 * f.completions.length + 2
  | .completing rest => 2 * rest.length + 1

def weight (f : FutureImpl U K F) (stack : List (Frame U K F)) : Nat := (stack.map (Frame.weight f)).sum

/-- A frame between the statements of an operation and the end of its lock guard. -/
def Frame.inner : Frame U K F → Bool
  | .sendToPipes | .piping _ _ | .runCompletions | .completing _ | .callback => true
  | _ => false

section Frames

variable {f f' : FutureImpl U K F} {frame : Frame U K F} {frames below : List (Frame U K F)} {op : Op U K F}

theorem settle_append : settle f (frames ++ below) = settle (settle f frames) below := List.foldl_append

theorem weight_append : weight f (frames ++ below) = weight f frames + weight f below := by
  simp [weight]

theorem weight_cons : weight f (frame :: below) = frame.weight f + weight f below := by
  simp [weight]

theorem weight_guard : weight f (frames ++ [Frame.unlock]) = weight f frames + 1 := weight_append

/-- An operation that does not lock again. -/
theorem statements_spec (calm : reenters op = true → f.done = true) (act : statements f op = (f', frames)) :
    (∀ frame ∈ frames, frame.inner = true) ∧ settle f' frames = f.apply op ∧
    weight f' frames < Frame.weight f (.body (.op op)) := by
  cases op with
  | sendUserMessage pid message | sendSystemMessage pid message | timeout =>
    have done := calm rfl
    simp only [statements, done, if_true] at act
    cases act
    simp [settle, apply, sendUserMessage, sendSystemMessage, timeout, done, weight, Frame.weight]
  | stop pid =>
    simp only [statements] at act
    split at act
    · rename_i done
      cases act
      simp [settle, apply, stop, done, weight, Frame.weight]
    · rename_i pending
      cases act
      refine ⟨by simp [Frame.inner], by simp [settle, Frame.settle, apply, stop, pending], ?_⟩
      simp only [weight, List.map_cons, List.map_nil, List.sum_cons, List.sum_nil, Frame.weight, Op.targets, List.length_nil]
      omega
  | pipeTo pids =>
    simp only [statements] at act
    cases act
    cases done : f.done with
    | true =>
      simp only [settle, apply, pipeTo, done, if_true, weight, Frame.weight, Op.targets]
      refine ⟨by simp [Frame.inner], rfl, ?_⟩
      simp only [List.map_cons, List.map_nil, List.sum_cons, List.sum_nil, Frame.weight, List.length_append, List.length_nil]
      omega
    | false => simp [settle, apply, pipeTo, done, weight, Frame.weight]
  | continueWith continuation =>
    simp only [statements] at act
    split at act
    · rename_i done
      cases act
      simp [settle, Frame.settle, apply, continueWith, done, weight, Frame.weight, Frame.inner]
    · rename_i pending
      cases act
      simp [settle, apply, continueWith, pending, weight, Frame.weight]

/-- A frame inside the section. The frames below it do not get heavier. -/
theorem inner_spec (inner : frame.inner = true) (act : frame.run f = some (f', frames)) :
    (∀ frame ∈ frames, frame.inner = true) ∧ settle f' frames = frame.settle f ∧
    weight f' frames < frame.weight f ∧ f'.pipes.length ≤ f.pipes.length ∧ f'.completions.length ≤ f.completions.length := by
  cases frame with
  | lock call | body call | waiting | unlock => cases inner
  | callback => cases act
  | sendToPipes =>
    simp only [Frame.run] at act
    split at act
    · rename_i none
      cases act
      simp [settle, Frame.settle, sendToPipes, none, weight, Frame.weight]
    · rename_i some
      cases act
      simp [settle, Frame.settle, sendToPipes, some, weight, Frame.weight, Frame.inner]
  | runCompletions =>
    cases act
    simp [settle, Frame.settle, runCompletions, weight, Frame.weight, Frame.inner]
  | piping msg rest =>
    cases rest with
    | nil =>
      cases act
      simp [settle, Frame.settle, weight, Frame.weight]
    | cons pid rest =>
      cases act
      simp [settle, Frame.settle, weight, Frame.weight, Frame.inner]
      omega
  | completing rest =>
    cases rest with
    | nil =>
      cases act
      simp [settle, Frame.settle, weight, Frame.weight]
    | cons completion rest =>
      cases act
      simp [settle, Frame.settle, weight, Frame.weight, Frame.inner]
      omega

theorem inner_runs (inner : frame.inner = true) (other : frame ≠ .callback) : (frame.run f).isSome := by
  cases frame with
  | lock call | body call | waiting | unlock => cases inner
  | callback => exact absurd rfl other
  | sendToPipes =>
    simp only [Frame.run]
    split <;> rfl
  | runCompletions => rfl
  | piping msg rest | completing rest => cases rest <;> rfl

/-- A shorter list of pipes and completions makes the frames inside the section lighter. -/
theorem weight_mono (inner : ∀ frame ∈ frames, frame.inner = true) (pipes : f'.pipes.length ≤ f.pipes.length)
    (completions : f'.completions.length ≤ f.completions.length) : weight f' frames ≤ weight f frames := by
  induction frames with
  | nil => exact Nat.le_refl _
  | cons frame frames ih =>
    have later := ih fun frame member => inner frame (List.mem_cons_of_mem _ member)
    have here : frame.weight f' ≤ frame.weight f := by
      have kind := inner frame List.mem_cons_self
      cases frame with
      | lock call | body call | waiting | unlock => cases kind
      | sendToPipes | runCompletions | piping msg rest | completing rest | callback =>
        simp only [Frame.weight]
        omega
    rw [weight_cons, weight_cons]
    omega

end Frames

/-! ## Who holds the lock -/

/-- The stack of the thread that holds the lock. -/
inductive Inside (f : FutureImpl U K F) : List (Frame U K F) → Prop where
  | entered {call : Call U K F} (calm : ∀ op, call = .op op → reenters op = true → f.done = true) :
      Inside f [.body call, .unlock]
  | running {frames : List (Frame U K F)} (inner : ∀ frame ∈ frames, frame.inner = true) : Inside f (frames ++ [.unlock])

/-- What is on top of that stack. -/
theorem inside_cons {f : FutureImpl U K F} {frame : Frame U K F} {below : List (Frame U K F)} (inside : Inside f (frame :: below)) :
    (∃ call, frame = .body call ∧ below = [.unlock] ∧ ∀ op, call = .op op → reenters op = true → f.done = true) ∨
    (frame = .unlock ∧ below = []) ∨
    (frame.inner = true ∧ ∃ frames, below = frames ++ [Frame.unlock] ∧ ∀ frame ∈ frames, frame.inner = true) := by
  generalize whole : frame :: below = stack at inside
  cases inside with
  | @entered call calm =>
    cases whole
    exact .inl ⟨call, rfl, rfl, calm⟩
  | @running frames inner =>
    cases frames with
    | nil =>
      cases whole
      exact .inr (.inl ⟨rfl, rfl⟩)
    | cons top frames =>
      cases whole
      exact .inr (.inr ⟨inner frame List.mem_cons_self, frames, rfl, fun frame member => inner frame (List.mem_cons_of_mem _ member)⟩)

/-- The stack of any other thread. -/
inductive Outside : List (Frame U K F) → Prop where
  | ended : Outside []
  | calling (call : Call U K F) : Outside [.lock call]
  | asleep : Outside [.waiting, .unlock]

structure Disciplined (s : State U K F) : Prop where
  owner : ∀ n, s.owner = some n → ∃ stack, s.threads[n]? = some stack ∧ Inside s.future stack
  others : ∀ n stack, s.threads[n]? = some stack → s.owner ≠ some n → Outside stack

variable {s s' : State U K F} {l : Label U K F}

/-- What a careful step can do. -/
inductive Move (s : State U K F) : Label U K F → State U K F → Prop where
  | call (call : Call U K F) : Move s (.call call) { s with threads := s.threads ++ [[.lock call]] }
  | enter {n : Nat} {op : Op U K F} (free : s.owner = none) (here : s.threads[n]? = some [.lock (.op op)])
      (calm : reenters op = true → s.future.done = true) :
      Move s (.thread n) { s.put n [.body (.op op), .unlock] with owner := some n, entered := s.entered ++ [op] }
  | look {n : Nat} {stack : List (Frame U K F)} (free : s.owner = none) (here : s.threads[n]? = some stack) :
      Move s (.thread n) { s.put n [.body .result, .unlock] with owner := some n }
  | sleep {n : Nat} (own : s.owner = some n) (here : s.threads[n]? = some [.body .result, .unlock]) :
      Move s (.thread n) { s.put n [.waiting, .unlock] with owner := none }
  | inside {l : Label U K F} {n : Nat} {stack stack' : List (Frame U K F)} (f' : FutureImpl U K F) (actor : l.actor = some n)
      (own : s.owner = some n) (here : s.threads[n]? = some stack) (still : Inside f' stack')
      (less : weight f' stack' < weight s.future stack) (same : settle f' stack' = settle s.future stack) :
      Move s l { s.put n stack' with future := f' }
  | leave {n : Nat} (own : s.owner = some n) (here : s.threads[n]? = some [.unlock]) :
      Move s (.thread n) { s.put n [] with owner := none }
  | throw {n : Nat} (own : s.owner = some n) :
      Move s (.callback n .throws) { s.put n [] with owner := none }

theorem calm_of_careful {n : Nat} {op : Op U K F} {below : List (Frame U K F)} (allowed : careful s (.thread n) = true)
    (here : s.threads[n]? = some (.lock (.op op) :: below)) (again : reenters op = true) : s.future.done = true := by
  simpa [careful, here, again] using allowed

theorem advance_inner {n : Nat} {frame : Frame U K F} (below : List (Frame U K F)) (inner : frame.inner = true)
    (own : frame ≠ .callback) : s.advance n frame below =
      (frame.run s.future).map fun (future, frames) => { s.put n (frames ++ below) with future := future } := by
  cases frame with
  | lock call | body call | waiting | unlock => cases inner
  | callback => exact absurd rfl own
  | sendToPipes | runCompletions | piping msg rest | completing rest => rfl

/-- The owner's step. -/
theorem move_inside {n : Nat} {frame : Frame U K F} {below : List (Frame U K F)} (own : s.owner = some n)
    (here : s.threads[n]? = some (frame :: below)) (inside : Inside s.future (frame :: below))
    (act : s.advance n frame below = some s') : Move s (.thread n) s' := by
  rcases inside_cons inside with ⟨call, rfl, rfl, calm⟩ | ⟨rfl, rfl⟩ | ⟨kind, frames, rfl, later⟩
  · cases call with
    | result =>
      simp only [State.advance] at act
      split at act
      · cases act
        refine .inside s.future rfl own here ?_ ?_ ?_
        · exact .running fun frame member => absurd member List.not_mem_nil
        · simp [weight, Frame.weight]
        · rfl
      · cases act
        exact .sleep own here
    | op op =>
      simp only [State.advance] at act
      obtain ⟨⟨f', frames⟩, ran, rfl⟩ := Option.map_eq_some_iff.1 act
      have ran' : statements s.future op = (f', frames) := Option.some.inj ran
      obtain ⟨inner, same, less⟩ := statements_spec (calm op rfl) ran'
      refine .inside _ rfl own here (.running inner) ?_ ?_
      · show weight f' (frames ++ [Frame.unlock]) < weight s.future (.body (.op op) :: ([] ++ [Frame.unlock]))
        rw [weight_cons, weight_guard, weight_guard]
        omega
      · rw [settle_append, same]
        rfl
  · cases act
    exact .leave own here
  · have own' : frame ≠ .callback := by
      rintro rfl
      cases act
    rw [advance_inner _ kind own'] at act
    obtain ⟨⟨f', new⟩, ran, rfl⟩ := Option.map_eq_some_iff.1 act
    obtain ⟨inner', same, less, pipes, completions⟩ := inner_spec kind ran
    refine .inside _ rfl own here ?_ ?_ ?_
    · show Inside f' (new ++ (frames ++ [Frame.unlock]))
      rw [← List.append_assoc]
      exact .running (List.forall_mem_append.2 ⟨inner', later⟩)
    · have lighter := weight_mono later pipes completions
      rw [weight_append, weight_cons, weight_guard, weight_guard]
      omega
    · rw [settle_append, same]
      rfl

/-- Callbacks run under the lock. -/
theorem Disciplined.callback_owner {n : Nat} {below : List (Frame U K F)} (disciplined : Disciplined s)
    (here : s.threads[n]? = some (.callback :: below)) : s.owner = some n := by
  apply Decidable.byContradiction
  intro other
  cases disciplined.others n _ here other

/-- The step of a thread that does not have the lock. -/
theorem move_outside {n : Nat} {frame : Frame U K F} {below : List (Frame U K F)} (here : s.threads[n]? = some (frame :: below))
    (outside : Outside (frame :: below)) (allowed : careful s (.thread n) = true) (act : s.advance n frame below = some s') :
    Move s (.thread n) s' := by
  cases outside with
  | calling call =>
    simp only [State.advance] at act
    split at act
    · cases act
    · rename_i free
      have free : s.owner = none := by simpa using free
      cases act
      cases call with
      | op op => exact .enter free here (calm_of_careful allowed here)
      | result => exact .look free here
  | asleep =>
    simp only [State.advance] at act
    split at act
    · cases act
    · rename_i free
      cases act
      exact .look (by simpa using free) here

/-- The return of a callback. -/
theorem move_returns {n : Nat} {below : List (Frame U K F)} (own : s.owner = some n)
    (here : s.threads[n]? = some (.callback :: below)) (inside : Inside s.future (.callback :: below)) :
    Move s (.callback n .returns) (s.put n below) := by
  refine .inside (l := .callback n .returns) s.future rfl own here ?_ (by simp [weight_cons, Frame.weight]) rfl
  rcases inside_cons inside with ⟨call, same, -⟩ | ⟨same, -⟩ | ⟨-, frames, rfl, later⟩
  · cases same
  · cases same
  · exact .running later

theorem moves (disciplined : Disciplined s) (allowed : careful s l = true) (act : step s l = some s') : Move s l s' := by
  cases l with
  | call call =>
    cases act
    exact .call call
  | thread n =>
    simp only [step] at act
    split at act
    · rename_i frame below here
      by_cases own : s.owner = some n
      · obtain ⟨stack, there, inside⟩ := disciplined.owner n own
        rw [here] at there
        cases there
        exact move_inside own here inside act
      · exact move_outside here (disciplined.others n _ here own) allowed act
    · cases act
  | callback n outcome =>
    simp only [step] at act
    split at act
    · rename_i below here
      have own := disciplined.callback_owner here
      obtain ⟨stack, there, inside⟩ := disciplined.owner n own
      rw [here] at there
      cases there
      cases outcome with
      | calls call => cases allowed
      | throws =>
        cases act
        exact .throw own
      | returns =>
        cases act
        exact move_returns own here inside
    · cases act

/-- Replacing the stack of the owner, or of the thread that becomes it. -/
theorem disciplined_put {n : Nat} {stack stack' : List (Frame U K F)} {f' : FutureImpl U K F} {entered : List (Op U K F)}
    (disciplined : Disciplined s) (here : s.threads[n]? = some stack) (holds : s.owner = none ∨ s.owner = some n) :
    (Inside f' stack' → Disciplined ⟨f', some n, s.threads.set n stack', entered⟩) ∧
    (Outside stack' → Disciplined ⟨f', none, s.threads.set n stack', entered⟩) := by
  have own := pool_put here stack'
  have rest : ∀ m, m ≠ n → ∀ other, (s.threads.set n stack')[m]? = some other → Outside other := by
    intro m differ other there
    rw [List.getElem?_set_ne (Ne.symm differ)] at there
    refine disciplined.others m other there fun holder => ?_
    rcases holds with free | owner
    · rw [free] at holder
      cases holder
    · rw [owner] at holder
      exact differ (Option.some.inj holder).symm
  refine ⟨fun inside => ⟨?_, ?_⟩, fun outside => ⟨nofun, ?_⟩⟩
  · intro m holder
    cases holder
    exact ⟨stack', own, inside⟩
  · intro m other there holder
    exact rest m (fun same => holder (congrArg some same.symm)) other there
  · intro m other there _
    by_cases same : m = n
    · subst same
      rw [own] at there
      cases there
      exact outside
    · exact rest m same other there

theorem disciplined_keeps : Machine.Keeps step (fun s l => careful s l = true) (Disciplined (U := U) (K := K) (F := F)) := by
  intro s l s' disciplined allowed act
  cases moves disciplined allowed act with
  | call call =>
    constructor
    · intro n own
      obtain ⟨stack, here, inside⟩ := disciplined.owner n own
      exact ⟨stack, pool_grow here _, inside⟩
    · intro n stack here other
      dsimp only at here
      rw [List.getElem?_append] at here
      split at here
      · exact disciplined.others n stack here other
      · have new := List.mem_singleton.1 (List.mem_of_getElem? here)
        rw [new]
        exact .calling call
  | enter free here calm =>
    exact (disciplined_put disciplined here (.inl free)).1 (.entered fun op same => by cases same; exact calm)
  | look free here => exact (disciplined_put disciplined here (.inl free)).1 (.entered nofun)
  | sleep own here => exact (disciplined_put disciplined here (.inr own)).2 .asleep
  | inside f' actor own here still less settled =>
    simp only [State.put, own]
    exact (disciplined_put disciplined here (.inr own)).1 still
  | leave own here => exact (disciplined_put disciplined here (.inr own)).2 .ended
  | throw own =>
    obtain ⟨stack, here, -⟩ := disciplined.owner _ own
    exact (disciplined_put disciplined here (.inr own)).2 .ended

end Protoactor.Actor.FutureImpl.Locking
