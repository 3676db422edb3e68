import Protoactor.Actor.Context.Receiving

/-!
# The state during a call

Only `HandleStop` and `HandleRestart` store to `state_`. A call that has neither frame of
`HandleRestart` on its stack leaves the state as it found it, whatever the actor and the
middleware do, and never gets such a frame.
-/

namespace Protoactor.Actor
set_option autoImplicit false
open Lib

variable {U K σ C : Type}

/-- A frame of `HandleRestart`. -/
def Frame.restarts : Frame C → Bool
  | .incarnate | .restore => true
  | _ => false

/-- No call on the stack is a restart. -/
def Plain (stack : List (Frame C)) : Prop := ∀ frame ∈ stack, frame.restarts = false

theorem plain_of_idle {stack : List (Frame C)} (idle : stack = []) : Plain stack := by
  rw [idle]
  exact fun frame member => absurd member List.not_mem_nil

theorem Plain.append {frames stack : List (Frame C)} (own : Plain frames) (plain : Plain stack) : Plain (frames ++ stack) :=
  List.forall_mem_append.2 ⟨own, plain⟩

namespace ActorContext

variable {props : Props U K C} {beh : Behaviour U K σ C} {c c' : ActorContext U K σ C}

/-- The state stays, and no restart begins. -/
structure Steady (c c' : ActorContext U K σ C) : Prop where
  state : c'.state = c.state
  plain : Plain c.stack → Plain c'.stack

theorem Steady.trans {c'' : ActorContext U K σ C} (first : Steady c c') (second : Steady c' c'') : Steady c c'' where
  state := second.state.trans first.state
  plain := fun plain => second.plain (first.plain plain)

/-- Nothing is called. -/
theorem steady_of_same (state : c'.state = c.state) (stack : c'.stack = c.stack) : Steady c c' := ⟨state, fun plain => stack ▸ plain⟩

theorem steady_call {frames : List (Frame C)} (own : Plain frames) : Steady c (c.call frames) := ⟨rfl, own.append⟩

theorem plain_code (code : C) : Plain [Frame.code code] := by
  intro frame member
  rw [List.mem_singleton.1 member]
  rfl

theorem steady_code (code : C) : Steady c (c.call [.code code]) := steady_call (plain_code code)

theorem steady_processMessage (message : Ptr U K) : Steady c (c.processMessage message) := by
  refine ⟨rfl, Plain.append ?_⟩
  intro frame member
  simp only [List.mem_cons, List.not_mem_nil, or_false] at member
  rcases member with rfl | rfl <;> rfl

theorem steady_invokeUserMessage (message : Ptr U K) : Steady c (c.invokeUserMessage message) := by
  unfold invokeUserMessage
  split
  · exact steady_of_same rfl rfl
  · exact steady_processMessage message

theorem steady_sendUserMessage (pid : Option PID) (message : Ptr U K) : Steady c (c.sendUserMessage props pid message) := by
  unfold sendUserMessage
  split
  · exact steady_of_same rfl rfl
  · dsimp only
    split
    · exact steady_code _
    · exact steady_of_same rfl rfl

theorem steady_popStash {again : List (Frame C)} (loop : Plain again) (act : c.popStash again = some c') : Steady c c' := by
  unfold popStash at act
  split at act
  · cases act
  · split at act
    · cases act
    · rename_i extras _ _ top rest _
      cases act
      have popped : Steady c ({ c with extras := some { extras with stash := rest } }.call again) := ⟨rfl, loop.append⟩
      exact popped.trans (steady_invokeUserMessage top)

theorem steady_getD_popStash {again : List (Frame C)} (loop : Plain again) : Steady c ((c.popStash again).getD c) := by
  cases act : c.popStash again with
  | none => exact steady_of_same rfl rfl
  | some c' => exact steady_popStash loop act

/-- The frames that an exception leaves are among those it found, but for the one that caught it. -/
theorem plain_unwind {stack : List (Frame C)} (plain : Plain stack) : Plain (unwind beh stack) := by
  induction stack with
  | nil => exact plain
  | cons frame below ih =>
    have rest : Plain below := fun other member => plain other (List.mem_cons_of_mem frame member)
    cases frame with
    | code code =>
      unfold unwind
      split
      · exact (plain_code _).append rest
      · exact ih rest
    | receive | clear | unstashAll | incarnate | restore => exact ih rest

theorem steady_throw : Steady c (c.throw beh) := ⟨rfl, plain_unwind⟩

theorem steady_receive : Steady c (c.receive beh) := by
  unfold receive
  split
  · exact ⟨rfl, (plain_code _).append⟩
  · exact steady_of_same rfl rfl

theorem steady_perform (op : Op U K) : Steady c (c.perform props beh op) := by
  cases op with
  | receive => exact steady_receive
  | send pid message | request pid message | requestWithCustomSender pid message sender => exact steady_sendUserMessage _ _
  | requestFuture fresh pid message => exact steady_throw
  | respond response =>
    show Steady c (c.respond props response)
    unfold respond
    split
    · exact steady_of_same rfl rfl
    · exact steady_sendUserMessage _ _
  | forward pid =>
    show Steady c (c.forward props pid)
    unfold forward
    split
    · exact steady_of_same rfl rfl
    · exact steady_sendUserMessage _ _
  | watch pid =>
    show Steady c (c.watch pid)
    unfold watch
    split <;> exact steady_of_same rfl rfl
  | unwatch pid =>
    show Steady c (c.unwatch pid)
    unfold unwatch
    split <;> exact steady_of_same rfl rfl
  | reenterAfter continuation completed =>
    show Steady c (c.reenterAfter continuation completed)
    unfold reenterAfter
    split <;> exact steady_of_same rfl rfl
  | unstash => exact steady_getD_popStash nofun
  | unstashAll =>
    refine steady_call fun frame member => ?_
    rw [List.mem_singleton.1 member]
    rfl
  | stash | apply envelope | spawned pid | post pid kind message => exact steady_of_same rfl rfl

theorem steady_runFrame {frame : Frame C} (other : frame.restarts = false) : Steady c (c.runFrame props beh frame) := by
  cases frame with
  | receive =>
    show Steady c (c.defaultReceive props beh)
    unfold defaultReceive
    split
    · exact steady_code _
    · exact steady_receive
  | clear => exact steady_of_same rfl rfl
  | code rest =>
    unfold runFrame
    dsimp only
    split
    · exact steady_of_same rfl rfl
    · exact ⟨rfl, plain_unwind⟩
    · rename_i memory op rest' _
      have resumed : Steady c ({ c with memory := memory }.call [.code rest']) := ⟨rfl, (plain_code _).append⟩
      exact resumed.trans (steady_perform op)
  | unstashAll =>
    refine steady_getD_popStash fun frame member => ?_
    rw [List.mem_singleton.1 member]
    rfl
  | incarnate | restore => cases other

/-- **A step of a call without a restart leaves the state alone.** -/
theorem steady_run (plain : Plain c.stack) (act : step props beh c .run = some c') : c'.state = c.state ∧ Plain c'.stack := by
  cases stack : c.stack with
  | nil => simp [step, stack] at act
  | cons frame below =>
    simp only [step, stack] at act
    cases act
    rw [stack] at plain
    have steady : Steady { c with stack := below } (({ c with stack := below } : ActorContext U K σ C).runFrame props beh frame) :=
      steady_runFrame (plain frame List.mem_cons_self)
    exact ⟨steady.state, steady.plain fun other member => plain other (List.mem_cons_of_mem frame member)⟩

/-- Such a step gives at most one message to `Receive`, and only where there is an actor. -/
theorem hears_run (plain : Plain c.stack) (act : step props beh c .run = some c') : Hears c c' := by
  cases stack : c.stack with
  | nil => simp [step, stack] at act
  | cons frame below =>
    simp only [step, stack] at act
    cases act
    have other : frame.restarts = false := plain frame (stack ▸ List.mem_cons_self)
    by_cases called : frame = .receive
    · subst called
      show Hears c (({ c with stack := below } : ActorContext U K σ C).defaultReceive props beh)
      unfold defaultReceive
      split
      · exact .inl ⟨rfl, rfl⟩
      · exact hears_receive (c := { c with stack := below })
    · refine hears_runFrame (fun made => ?_) called below
      rw [made] at other
      cases other

/-- A stopped context is brought back by a restart only. -/
theorem steady_system {message : Ptr U K} (stopped : c.state = .stopped) (plain : Plain c.stack)
    (other : actualMessage message ≠ .restart) (act : c.invokeSystemMessage beh message = some c') :
    c'.state = .stopped ∧ Plain c'.stack := by
  have done : Steady c c' → c'.state = .stopped ∧ Plain c'.stack := fun steady => ⟨steady.state.trans stopped, steady.plain plain⟩
  cases handled act with
  | ignored nothing => exact ⟨stopped, plain⟩
  | started actual => exact done (steady_processMessage message)
  | watch actual =>
    apply done
    unfold handleWatch
    split <;> exact steady_of_same rfl rfl
  | unwatch actual =>
    apply done
    unfold handleUnwatch
    split <;> exact steady_of_same rfl rfl
  | stop actual => exact ⟨rfl, plain⟩
  | @terminated who reason actual =>
    apply done
    unfold handleTerminated
    split
    · exact steady_invokeUserMessage _
    · rename_i extras _
      have removed : Steady c { c with extras := some { extras with children := extras.children.filter (·.ref ≠ who.ref) } } :=
        steady_of_same rfl rfl
      exact removed.trans (steady_invokeUserMessage _)
  | failure actual =>
    apply done
    unfold handleFailure
    split <;> exact steady_of_same rfl rfl
  | restart actual => exact absurd actual other
  | continuation actual =>
    refine ⟨stopped, Plain.append (fun frame member => ?_) plain⟩
    simp only [List.mem_cons, List.not_mem_nil, or_false] at member
    rcases member with rfl | rfl <;> rfl

end ActorContext

end Protoactor.Actor
