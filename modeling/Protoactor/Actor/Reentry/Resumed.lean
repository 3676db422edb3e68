import Protoactor.Actor.Reentry.Closures
import Mathlib.Data.List.Perm.Subperm

/-!
# From the mailbox to the continuation

The calls of continuations are the invocations of continuation messages, one for one. `Called` follows the
one that is running through the frame that `HandleContinuation` has left on the stack. With the books
of the closures this gives what `ReenterAfter` promises, as long as there is no result to lose.
-/

namespace Protoactor.Actor.Reentry
set_option autoImplicit false
open Lib

variable {P U K σ C : Type} {cfg : Spawn.Spawner U K σ C} {s s' : State P U K σ C} {h h' : Spawn.History P U K σ C}

/-- The call `r` is running in the context, or its closure has returned. -/
structure Within (s : State P U K σ C) (r : Resumption U K) (call : Spawn.Call U K) (c : ActorContext U K σ C) : Prop where
  running : s.history.running = some call
  kind : call.kind = .system
  own : resumption call.message = some r
  context : s.context = some c
  place : ActorContext.Continuing r.current c ∨ (c.stack = [] ∧ c.messageOrEnvelope = .null)

structure Called (s : State P U K σ C) : Prop where
  made : s.made = s.mailbox.box.system.invoked.filterMap resumption
  within : ∀ r, s.running = some r → ∃ call c, Within s r call c
  after : ∀ call ∈ s.resumed, call.2 = some .null

/-! ## A step of the actor -/

theorem resuming_same {c c' : ActorContext U K σ C} (context : h.state.context = some c) (context' : h'.state.context = some c')
    (same : c'.continued = c.continued) : resuming h h' = none := by
  simp only [resuming, context, context', same, List.drop_length, List.head?_nil, Option.map_none]

theorem resuming_fresh (fresh : h.state.context = none) : resuming h h' = none := by
  simp only [resuming, fresh]

/-- Nothing is called and nothing is over. -/
theorem observe_still (nothing : resuming s.history h = none) (ended : h.ended = s.history.ended) :
    s.observe h = { s with history := h } := by
  rw [State.observe, if_pos (by rw [ended]), nothing]
  rfl

/-- Only a step of the call and the call of a message give the context more than a name. -/
theorem renamed_of_other {t t' : Spawn.State P U K σ C} {l : Spawn.Label U K} {c : ActorContext U K σ C} (sound : Spawn.Sound t)
    (act : Spawn.step cfg t l = some t') (other : l ≠ .run) (context : t.context = some c) (mailbox : t'.mailbox = t.mailbox) :
    ∃ c', t'.context = some c' ∧ Spawn.Renamed c c' := by
  have same : t'.context = t.context → ∃ c', t'.context = some c' ∧ Spawn.Renamed c c' :=
    fun kept => ⟨c, kept.trans context, c.self, rfl⟩
  unfold Spawn.step at act
  split at act
  · cases act
  cases l with
  | run => exact absurd rfl other
  | get pid =>
    cases act
    exact same rfl
  | send n k message =>
    dsimp only at act
    split at act
    · cases act
    · cases act
      exact same rfl
    · cases act
      exact same rfl
  | mail m =>
    cases Spawn.mailStep_cases act with
    | crash dispatching missing => exact same rfl
    | alone move noPost quiet => exact same rfl
    | handled move acts here pc context' => exact same rfl
    | @call n w k message c₀ c' m move here pc context' called =>
      obtain ⟨⟨w', there, pc'⟩, -⟩ := Spawn.invoke_moves here pc move
      rw [show m = t.mailbox from mailbox, here] at there
      cases there
      rw [pc] at pc'
      cases pc'
  | spawner =>
    replace act : Spawn.spawnerStep cfg t = some t' := act
    unfold Spawn.spawnerStep at act
    split at act
    · rename_i pc
      rw [sound.made.2 (.inl pc)] at context
      cases context
    · cases act
      exact same rfl
    · split at act <;> (cases act; exact same rfl)
    · cases act
      exact ⟨_, by rw [context]; rfl, _, rfl⟩
    · cases act
      exact same rfl
    · cases act
      exact same rfl
    · cases act
      exact same rfl
    · cases act
    · cases act
    · cases act

/-- The invocation of a message. -/
theorem invoked_system {hs : Handlers} {m m' : Interleaving.State (Ptr U K)} {n : Nat} {w : Worker (Ptr U K)} {k : Kind} {message : Ptr U K}
    (here : m.calls[n]? = some w) (pc : w.pc = .invoke k message) (move : Interleaving.step hs m (.worker n) = some m') :
    m'.box.system.invoked = m.box.system.invoked ++ if k = .system then [message] else [] := by
  simp only [Interleaving.step, here, Worker.step, pc, Option.map_some, Option.some.injEq] at move
  subst move
  cases k with
  | user => exact (List.append_nil _).symm
  | system => rfl

/-- A step that has nothing to do with the calls of the context. -/
theorem called_aside {state : Spawn.State P U K σ C} (called : Called s) (unmoved : Interleaving.Unmoved s.mailbox state.mailbox)
    (renamed : ∀ c, s.context = some c → ∃ c', state.context = some c' ∧ Spawn.Renamed c c') :
    Called (s.observe ⟨state, s.history.ended, s.history.running⟩) := by
  have nothing : resuming s.history ⟨state, s.history.ended, s.history.running⟩ = none := by
    cases context : s.history.state.context with
    | none => exact resuming_fresh context
    | some c =>
      obtain ⟨c', context', self, rfl⟩ := renamed c context
      exact resuming_same context context' rfl
  rw [observe_still nothing rfl]
  obtain ⟨made, within, after⟩ := called
  refine ⟨made.trans (congrArg (List.filterMap resumption) (unmoved.invoked .system).symm), fun r running => ?_, after⟩
  obtain ⟨call, c, history, kind, own, context, place⟩ := within r running
  obtain ⟨c', context', self, rfl⟩ := renamed c context
  exact ⟨call, _, history, kind, own, context', place.imp (fun frame => ⟨frame.stack, frame.current⟩) id⟩

theorem Called.nobody (called : Called s) (free : s.history.running = none) : s.running = none := by
  cases running : s.running with
  | none => rfl
  | some r =>
    obtain ⟨call, _, history, -⟩ := called.within r running
    rw [free] at history
    cases history

/-- The mailbox calls the context, and the context calls no continuation. -/
theorem called_other {state : Spawn.State P U K σ C} {k : Kind} {message : Ptr U K} {c c' : ActorContext U K σ C} (call : Spawn.Call U K)
    (called : Called s) (nobody : s.running = none) (context : s.context = some c) (context' : state.context = some c')
    (invoked : state.mailbox.box.system.invoked = s.mailbox.box.system.invoked ++ if k = .system then [message] else [])
    (same : c'.continued = c.continued) (none : k = .system → resumption message = none) :
    Called (s.observe ⟨state, s.history.ended, some call⟩) := by
  have still : resuming s.history ⟨state, s.history.ended, some call⟩ = Option.none := resuming_same context context' same
  rw [observe_still still rfl]
  obtain ⟨made, within, after⟩ := called
  refine ⟨?_, fun r running => ?_, after⟩
  · show s.made = state.mailbox.box.system.invoked.filterMap resumption
    rw [invoked, List.filterMap_append, made]
    cases k with
    | user => exact (List.append_nil _).symm
    | system =>
      rw [if_pos rfl, filterMap_single, none rfl]
      exact (List.append_nil _).symm
  · rw [show s.running = some r from running] at nobody
    cases nobody

/-- The mailbox calls the context with a continuation message. -/
theorem called_continuation {state : Spawn.State P U K σ C} {message inner : Ptr U K} {continuation : K} {c : ActorContext U K σ C}
    {call : Spawn.Call U K} (called : Called s) (nobody : s.running = none) (idle : c.stack = []) (context : s.context = some c)
    (context' : state.context = some (c.handleContinuation cfg.beh continuation inner))
    (invoked : state.mailbox.box.system.invoked = s.mailbox.box.system.invoked ++ [message])
    (continuing : ActorContext.continuing message = some (continuation, inner)) (own : call.kind = .system ∧ call.message = message) :
    Called (s.observe ⟨state, s.history.ended, some call⟩) := by
  have one : resumption message = some ⟨continuation, .null, .success, seen inner⟩ := by rw [resumption, continuing]; rfl
  have resumes : resuming s.history ⟨state, s.history.ended, some call⟩ = some ⟨continuation, .null, .success, seen inner⟩ := by
    simp only [resuming, show s.history.state.context = some c from context, context']
    rw [show (c.handleContinuation cfg.beh continuation inner).continued = c.continued ++ [(continuation, .null, .success)] from rfl,
      List.drop_left]
    rfl
  have after' : s.observe ⟨state, s.history.ended, some call⟩ =
      { s with history := ⟨state, s.history.ended, some call⟩, running := some ⟨continuation, .null, .success, seen inner⟩ } := by
    rw [State.observe, if_pos rfl, resumes]
    rfl
  rw [after']
  obtain ⟨made, within, after⟩ := called
  refine ⟨?_, fun r running => ?_, after⟩
  · show s.resumed.map Prod.fst ++ [_] = state.mailbox.box.system.invoked.filterMap resumption
    have before : s.made = s.resumed.map Prod.fst := by rw [State.made, nobody]; exact List.append_nil _
    rw [invoked, List.filterMap_append, filterMap_single, one, ← made, before]
    rfl
  · cases running
    exact ⟨call, _, rfl, own.1, by rw [own.2, one], context', .inl (ActorContext.continuing_handle idle)⟩

/-- The mailbox calls the context. -/
theorem called_call {state : Spawn.State P U K σ C} {n : Nat} {w : Worker (Ptr U K)} {k : Kind} {message : Ptr U K}
    {c c' : ActorContext U K σ C} {call : Spawn.Call U K} (sound : Spawn.Sound s.history.state)
    (recorded : Spawn.Recorded cfg s.history) (called : Called s) (here : s.mailbox.calls[n]? = some w) (pc : w.pc = .invoke k message)
    (move : Interleaving.step cfg.dispatcher s.mailbox (.worker n) = some state.mailbox) (context : s.context = some c)
    (act : ActorContext.step cfg.props cfg.beh c (Spawn.callOf k message) = some c') (context' : state.context = some c')
    (own : call.kind = k ∧ call.message = message) : Called (s.observe ⟨state, s.history.ended, some call⟩) := by
  obtain ⟨free, idle⟩ := recorded.place.calm sound.exclusive here pc
  have idle := idle c context
  have nobody := called.nobody free
  have invoked := invoked_system here pc move
  cases k with
  | user =>
    refine called_other call called nobody context context' invoked ?_ nofun
    simp only [Spawn.callOf, ActorContext.step, idle, Option.some.injEq] at act
    rw [← act]
    exact ActorContext.continued_invokeUserMessage message c
  | system =>
    simp only [Spawn.callOf, ActorContext.step, idle] at act
    rcases ActorContext.continued_system act with ⟨continuation, inner, continuing, rfl⟩ | ⟨none, same⟩
    · exact called_continuation called nobody idle context context' invoked continuing own
    · refine called_other call called nobody context context' invoked same fun _ => ?_
      rw [resumption, none]
      rfl

/-- The running call goes on. -/
theorem called_run {state : Spawn.State P U K σ C} {c c' : ActorContext U K σ C} {news : List (Received U K)} (called : Called s)
    (context : s.context = some c) (act : ActorContext.step cfg.props cfg.beh c .run = some c') (context' : state.context = some c')
    (mailbox : state.mailbox = s.mailbox)
    (stays : s.running.isSome → ActorContext.Stays cfg.beh c ∨ Spawn.Renamed c c') :
    Called (s.observe ⟨state, s.history.ended, s.history.running.map fun call => call.hear news⟩) := by
  have still : resuming s.history ⟨state, s.history.ended, s.history.running.map fun call => call.hear news⟩ = none :=
    resuming_same context context' (ActorContext.continued_run act)
  rw [observe_still still rfl]
  obtain ⟨made, within, after⟩ := called
  refine ⟨made.trans (congrArg (fun m => m.box.system.invoked.filterMap resumption) mailbox.symm), fun r running => ?_, after⟩
  obtain ⟨call, c₀, here, kind, own, context₀, place⟩ := within r running
  cases context.symm.trans context₀
  refine ⟨call.hear news, c', by rw [here]; rfl, kind, own, context', ?_⟩
  rcases place with frame | ⟨idle, -⟩
  · rcases stays (Option.isSome_iff_exists.2 ⟨r, running⟩) with stays | ⟨self, rfl⟩
    · exact ActorContext.continuing_run frame stays act
    · exact .inl ⟨frame.stack, frame.current⟩
  · simp [ActorContext.step, idle] at act

/-- The call is over, and the mailbox goes on. -/
theorem called_leave {state : Spawn.State P U K σ C} {c : ActorContext U K σ C} (called : Called s)
    (context : s.context = some c) (idle : c.stack = []) (context' : state.context = some c)
    (box : state.mailbox.box = s.mailbox.box) (left : Spawn.Call U K) : Called (s.observe ⟨state, s.history.ended ++ [left], none⟩) := by
  have longer : ¬ (s.history.ended ++ [left]).length = s.history.ended.length := by simp
  rw [State.observe, if_neg longer]
  obtain ⟨made, within, after⟩ := called
  refine ⟨?_, nofun, fun ended member => ?_⟩
  · show (s.resumed ++ _).map Prod.fst ++ [] = state.mailbox.box.system.invoked.filterMap resumption
    rw [box, ← made, State.made, List.append_nil, List.map_append]
    cases s.running <;> rfl
  · rcases List.mem_append.1 member with old | new
    · exact after ended old
    · cases running : s.running with
      | none =>
        rw [running] at new
        cases new
      | some r =>
        obtain ⟨call', c₀, -, -, -, context₀, place⟩ := within r running
        cases context.symm.trans context₀
        rw [running] at new
        rw [List.mem_singleton.1 new]
        show state.context.map ActorContext.messageOrEnvelope = some .null
        rw [context']
        rcases place with ⟨⟨above, -, stack⟩, -⟩ | ⟨-, cleared⟩
        · rw [idle] at stack
          simp at stack
        · exact congrArg some cleared

/-- A step of the actor, whatever it is. -/
theorem called_step {l : Spawn.Label U K} (sound : Spawn.Sound s.history.state) (recorded : Spawn.Recorded cfg s.history) (called : Called s)
    (next : Spawn.History.step cfg s.history l = some h)
    (stays : l = .run → s.running.isSome → ∀ c, s.context = some c → ActorContext.Stays cfg.beh c) : Called (s.observe h) := by
  have act := history_step next
  cases Spawn.moved sound next with
  | aside unmoved renamed fresh => exact called_aside called unmoved renamed
  | call here pc move context invokes context' made =>
    exact called_call sound recorded called here pc move context invokes context' ⟨rfl, rfl⟩
  | run context run context' mailbox =>
    refine called_run called context run context' mailbox fun running => ?_
    by_cases own : l = .run
    · exact .inl (stays own running _ context)
    · obtain ⟨c', there, renamed⟩ := renamed_of_other sound act own context mailbox
      cases context'.symm.trans there
      exact .inr renamed
  | @leave state m n w k message c acts here pc move context idle context' =>
    obtain ⟨-, box⟩ := Spawn.over_moves sound.exclusive acts here pc move
    cases recorded.place with
    | between none outside =>
      have inside := outside w (List.mem_of_getElem? here)
      simp [Worker.invoking, pc] at inside
    | within running =>
      rw [running]
      exact called_leave called context idle context' box _

/-- The closures of a future post, and that is all. -/
theorem called_sends (futures : Nat → FutureImpl U K (Option (Closure U K))) (registered : List (Closure U K)) (called : Called s)
    (sends : Sends s.history h) : Called { s with history := h, futures := futures, registered := registered } := by
  obtain ⟨made, within, after⟩ := called
  refine ⟨made.trans (congrArg (fun box => box.system.invoked.filterMap resumption) sends.box.symm), fun r running => ?_, after⟩
  obtain ⟨call, c, history, kind, own, context, place⟩ := within r running
  exact ⟨call, c, sends.running.trans history, kind, own, sends.context.trans context, place⟩

/-! ## The mailbox by itself -/

/-- The mailbox has come here by steps of its own. -/
def Traced (cfg : Spawn.Spawner U K σ C) (ok : Interleaving.State (Ptr U K) → Interleaving.Label (Ptr U K) → Prop)
    (h : Spawn.History P U K σ C) : Prop :=
  ∃ ms, Machine.Run (Interleaving.step cfg.dispatcher) ok Interleaving.init ms h.state.mailbox

/-- What is known of the actor alone. -/
structure Known (cfg : Spawn.Spawner U K σ C) (ok : Interleaving.State (Ptr U K) → Interleaving.Label (Ptr U K) → Prop)
    (h : Spawn.History P U K σ C) : Prop where
  sound : Spawn.Sound h.state
  recorded : Spawn.Recorded cfg h
  traced : Traced cfg ok h

section Known

variable {ok : Interleaving.State (Ptr U K) → Interleaving.Label (Ptr U K) → Prop}

theorem known_begin (r : ProcessRegistry P) : Known cfg ok (.begin r) where
  sound := Spawn.sound_start r
  recorded := Spawn.recorded_begin r
  traced := ⟨[], .nil _⟩

theorem known_step {l : Spawn.Label U K} (known : Known cfg ok h) (next : Spawn.History.step cfg h l = some h')
    (allowed : ∀ m, Spawn.Brings l m → ok h.state.mailbox m) : Known cfg ok h' := by
  obtain ⟨sound, recorded, ms, run⟩ := known
  obtain ⟨sound', recorded'⟩ := Spawn.recorded_keeps h l h' ⟨sound, recorded⟩ True.intro next
  refine ⟨sound', recorded', ?_⟩
  rcases Spawn.mailbox_step sound (history_step next) with same | ⟨m, brings, move⟩
  · exact ⟨ms, same ▸ run⟩
  · exact ⟨ms ++ [m], run.append (.cons move (allowed m brings) (.nil _))⟩

theorem known_sendSelf {message : Ptr U K} (real : ∀ m, ok m (.post .system (Spawn.item message))) (known : Known cfg ok h)
    (sent : sendSelf cfg message h = some h') : Known cfg ok h' := by
  unfold sendSelf at sent
  split at sent
  · cases sent
  obtain ⟨h₁, got, sent⟩ := Option.bind_eq_some_iff.1 sent
  obtain ⟨h₂, sent, last⟩ := Option.bind_eq_some_iff.1 sent
  cases last
  refine known_step (known_step known got fun m brings => ?_) sent fun m brings => ?_
  · cases brings with
    | mail own | send own | started own => cases own
  · cases brings with
    | mail own | started own => cases own
    | send own =>
      cases own
      exact real _

theorem known_runClosures {closures : List (Closure U K)} (real : ∀ closure : Closure U K, ∀ m, ok m (.post .system (Spawn.item closure.contMsg)))
    (known : Known cfg ok h) (ran : runClosures cfg closures h = some h') : Known cfg ok h' := by
  induction closures generalizing h with
  | nil =>
    cases ran
    exact known
  | cons closure closures ih =>
    obtain ⟨h₁, first, rest⟩ := Option.bind_eq_some_iff.1 ran
    exact ih (known_sendSelf (real closure) known first) rest

end Known

/-! ## Every step -/

/-- `ReenterAfter` stays with the message. -/
theorem stays_entering {beh : Behaviour U K σ C} {c : ActorContext U K σ C} {entered : Option K × Bool}
    (enters : entering beh c = some entered) : ActorContext.Stays beh c := by
  unfold entering at enters
  split at enters
  · rename_i rest below stack
    split at enters
    · rename_i continuation completed rest' performs
      refine ⟨?_, ?_⟩
      · simp only [ActorContext.Escapes, stack, performs, not_false_eq_true]
      · simp only [ActorContext.Switches, stack, performs, not_false_eq_true]
    · cases enters
  · cases enters

structure Kept (cfg : Spawn.Spawner U K σ C) (ok : Interleaving.State (Ptr U K) → Interleaving.Label (Ptr U K) → Prop)
    (s : State P U K σ C) : Prop where
  known : Known cfg ok s.history
  booked : Booked s.futures s.registered (posted s.history)
  called : Called s

section Kept

variable {ok : Interleaving.State (Ptr U K) → Interleaving.Label (Ptr U K) → Prop} {good : State P U K σ C → Label U K → Prop}

theorem kept_start (r : ProcessRegistry P) (pids : Nat → PID) : Kept cfg ok (start r pids) where
  known := known_begin r
  booked := .start pids
  called := ⟨rfl, nofun, nofun⟩

/-- Every step keeps track of the closures and of the calls of continuations. -/
theorem kept_keeps (resumes : ∀ s l, good s l → resumable cfg s l)
    (brings : ∀ s l m, good s (.actor l) → Spawn.Brings l m → ok s.mailbox m)
    (real : ∀ closure : Closure U K, ∀ m, ok m (.post .system (Spawn.item closure.contMsg))) :
    Machine.Keeps (step cfg) good (Kept cfg ok) := by
  rintro s l s' ⟨known, booked, called⟩ allowed next
  cases l with
  | actor l =>
    simp only [step] at next
    split at next
    · cases next
    rename_i free
    obtain ⟨h, act, rfl⟩ := Option.map_eq_some_iff.1 next
    obtain ⟨history, futures, registered⟩ := observe_same s h
    refine ⟨?_, ?_, ?_⟩
    · rw [history]
      exact known_step known act fun m => brings s l m allowed
    · rw [history, futures, registered, posted_step known.sound act]
      · exact booked
      · rintro n k message rfl
        exact Bool.eq_false_iff.2 free
    · refine called_step known.sound known.recorded called act ?_
      rintro rfl
      exact resumes s _ allowed
  | reenter f =>
    obtain ⟨c, continuation, completed, h, context, entered, same, act, acted⟩ := reenter_cases next
    have books := booked_reenter known.sound booked (resumes s _ allowed) next
    obtain ⟨h', ran, rfl⟩ := Option.map_eq_some_iff.1 acted
    have history := (observe_same s h).1
    dsimp only at ran
    rw [history] at ran
    have turn := called_step known.sound known.recorded called act fun _ _ c₀ context₀ => by
      cases context.symm.trans context₀
      exact stays_entering entered
    refine ⟨known_runClosures real (known_step known act fun m brings => ?_) ran, books, ?_⟩
    · cases brings with
      | mail own | send own | started own => cases own
    · have sends := (runClosures_cases ran).1
      rw [← history] at sends
      have after := fun futures registered => called_sends futures registered turn sends
      exact after _ _
  | future f op =>
    have acted : s.act cfg f op = some s' ∧ ∀ closure, op ≠ .continueWith (some closure) := by
      simp only [step] at next
      split at next
      · cases next
      · rename_i other
        exact ⟨next, other⟩
    obtain ⟨acted, other⟩ := acted
    obtain ⟨books, sends⟩ := booked_future booked other (resumes s _ allowed) acted
    obtain ⟨h, ran, rfl⟩ := Option.map_eq_some_iff.1 acted
    exact ⟨known_runClosures real known ran, books, called_sends _ _ called sends⟩

end Kept

/-! ## What follows -/

theorem continuation_resumption (message : Ptr U K) : (resumption message).map Resumption.continuation = continuationOf message := by
  rw [resumption, Option.map_map]
  rfl

/-- The one entry of a kind. -/
theorem filter_one {α : Type} {p : α → Bool} {xs : List α} {a : α} (one : xs.countP p ≤ 1) (member : a ∈ xs) (own : p a = true) :
    xs.filter p = [a] := by
  obtain ⟨pre, post, rfl⟩ := List.append_of_mem member
  obtain ⟨left, right⟩ := only_one one own
  have none : ∀ l : List α, (∀ b ∈ l, p b = false) → l.filter p = [] := fun l all =>
    List.filter_eq_nil_iff.2 fun b inside => by simp [all b inside]
  rw [List.filter_append, none pre left, List.filter_cons_of_pos own, none post right, List.nil_append]

theorem resumes_of_kept {ok : Interleaving.State (Ptr U K) → Interleaving.Label (Ptr U K) → Prop} (kept : Kept cfg ok s) : Resumes s := by
  obtain ⟨⟨sound, recorded, ms, traced⟩, booked, made, within, after⟩ := kept
  have free : Machine.Run (Interleaving.step cfg.dispatcher) Machine.free Interleaving.init ms s.mailbox := traced.mono fun _ _ _ => True.intro
  constructor
  case once =>
    obtain ⟨rest, all⟩ := Interleaving.posted_invoked free .system
    have posts : (posted s.history).Perm (s.made ++ rest.filterMap resumption) := by
      rw [made]
      have mapped := all.filterMap resumption
      rwa [List.filterMap_append] at mapped
    exact (List.sublist_append_left _ _).subperm.trans (posts.symm.trans booked.posted.symm).subperm
  case steps =>
    rw [made, List.map_filterMap]
    exact List.filterMap_congr fun message _ => continuation_resumption message
  case alone =>
    intro r running
    obtain ⟨call, c, here, kind, own, -, -⟩ := within r running
    cases recorded.place with
    | between none => rw [none] at here; cases here
    | @within n w c₀ call₀ here₀ there pc =>
      cases here.symm.trans here₀
      have inside : w.invoking = true := by simp [Worker.invoking, pc]
      have holding : s.mailbox.calls.countP Worker.holds ≤ 1 := (Interleaving.exclusive_run free).one_call rfl
      have fewer : s.mailbox.calls.countP Worker.invoking ≤ s.mailbox.calls.countP Worker.holds :=
        List.countP_mono_left fun _ _ => Worker.holds_of_invoking
      have one : s.mailbox.calls.countP Worker.invoking ≤ 1 := Nat.le_trans fewer holding
      refine ⟨w, call.message, filter_one one (List.mem_of_getElem? there) inside, kind ▸ pc, ?_⟩
      rw [← continuation_resumption, own]
      rfl
  case during =>
    intro r c running context busy
    obtain ⟨call, c₀, -, -, -, context₀, place⟩ := within r running
    cases context.symm.trans context₀
    rcases place with frame | ⟨idle, -⟩
    · exact frame.current
    · exact absurd idle busy
  case after => exact after

/-- **ReenterAfter resumes** in every run in which no future that a continuation waits for has a result or an error, and
no continuation leaves its message: where nothing is lost on the way, each call that is due has been made
once the mailbox is at rest. -/
theorem reenters {r : ProcessRegistry P} {pids : Nat → PID} :
    (∀ ls s, Machine.Run (step cfg) (resumable cfg) (start r pids) ls s → Resumes s) ∧
    ∀ ls s, Machine.Run (step cfg) (fun s l => resumable cfg s l ∧ processed s l) (start r pids) ls s →
      Interleaving.Quiescent s.mailbox → s.made.Perm s.expected := by
  constructor
  · intro ls s run
    have keeps : Machine.Keeps (step cfg) (resumable cfg) (Kept (P := P) cfg Machine.free) :=
      kept_keeps (fun _ _ allowed => allowed) (fun _ _ _ _ _ => True.intro) fun _ _ => True.intro
    exact resumes_of_kept (run.keeps keeps (kept_start r pids))
  · intro ls s run quiet
    have keeps : Machine.Keeps (step cfg) (fun s l => resumable cfg s l ∧ processed s l)
        (Kept (P := P) cfg Interleaving.fairWithin) := by
      refine kept_keeps (fun _ _ allowed => allowed.1) (fun s l m allowed brings => ?_) fun _ _ => rfl
      cases brings with
      | mail own noPost =>
        cases own
        exact allowed.2
      | @send n k message own =>
        cases own
        have real : message.isNull = false := allowed.2
        rw [Spawn.item, real]
        rfl
      | started own => rfl
    obtain ⟨⟨-, -, ms, traced⟩, booked, called⟩ := run.keeps keeps (kept_start r pids)
    have all := (Interleaving.posted_quiescent traced quiet .system).filterMap resumption
    rw [called.made]
    exact all.symm.trans booked.posted.symm

/-! ### An actor that waits for an answer -/

/-- An actor that waits for a future with the closure 7 when it gets a user message. -/
def asker : Behaviour Nat Nat Unit Bool where
  receive := true
  continuation := fun _ _ _ => false
  resume := fun asks view memory =>
    match asks, view.received.message with
    | true, .user _ => (memory, .performs (.reenterAfter (some 7) false) false)
    | _, _ => (memory, .returns)
  caught := fun _ => none
  produce := fun memory => some (memory, true)

def askerSpawner : Spawn.Spawner Nat Nat Unit Bool := ⟨"a", 0, none, .plain, asker, (), ⟨300⟩⟩

/-- The request of a client. -/
def request : Ptr Nat Nat := .envelope none (.user 5) (some ⟨9, "nonhost", "c"⟩)

def futurePid (f : Nat) : PID := ⟨100 + f, "nonhost", "future"⟩

def mails (l : Interleaving.Label (Ptr Nat Nat)) (n : Nat) : List (Label Nat Nat) := List.replicate n (.actor (.mail l))

/-- The actor is spawned, gets `Started` and the request, and calls `ReenterAfter`. -/
def asked : List (Label Nat Nat) :=
  List.replicate 7 (.actor .spawner) ++ mails (.poster 0) 4 ++ [.actor (.get (some Spawn.idlePid)), .actor (.send 0 .user request)] ++
    mails (.poster 1) 3 ++ mails .start 1 ++ mails (.worker 0) 3 ++ List.replicate 3 (.actor .run) ++ mails (.worker 0) 6 ++
    [.actor .run, .reenter 0] ++ List.replicate 2 (.actor .run) ++ mails (.worker 0) 1

/-- The future is completed, and the worker calls the continuation. -/
def answered (op : FutureImpl.Op Nat Nat (Option (Closure Nat Nat))) : List (Label Nat Nat) :=
  asked ++ [.future 0 op] ++ mails (.poster 2) 3 ++ mails (.worker 0) 3

/-- The programs of the actor return, or ask while no continuation is running. -/
def returning (s : State Unit Nat Nat Unit Bool) : Label Nat Nat → Bool
  | .actor .run => s.running.isNone || s.context.all fun c => c.stack.head?.all fun frame => frame = .code false || frame = .clear
  | .actor (.mail m) => m.fair && Interleaving.within s.mailbox m
  | .actor (.send _ _ message) => ¬ message.isNull
  | .actor _ => true
  | .reenter f => ¬ (s.futures f).done
  | .future _ op => decide (Alive s.history ∧ FutureImpl.completed op = (.null, .success))

theorem resumable_of_returning {s : State Unit Nat Nat Unit Bool} {l : Label Nat Nat} (returns : returning s l = true) :
    resumable askerSpawner s l ∧ processed s l := by
  cases l with
  | actor l =>
    cases l with
    | mail m => exact ⟨True.intro, returns⟩
    | send n k message => exact ⟨True.intro, by simpa [returning, processed] using returns⟩
    | spawner | get pid => exact ⟨True.intro, True.intro⟩
    | run =>
      refine ⟨fun running c context => ?_, True.intro⟩
      simp only [returning, Option.isNone_eq_false_iff.2 running, Bool.false_or, context, Option.all_some] at returns
      cases stack : c.stack with
      | nil => exact ⟨by simp [ActorContext.Escapes, stack], by simp [ActorContext.Switches, stack]⟩
      | cons frame below =>
        rw [stack, List.head?_cons, Option.all_some] at returns
        rcases (by simpa using returns : frame = .code false ∨ frame = .clear) with rfl | rfl
        · exact ⟨by simp [ActorContext.Escapes, stack, askerSpawner, asker], by simp [ActorContext.Switches, stack, askerSpawner, asker]⟩
        · exact ⟨by simp [ActorContext.Escapes, stack], by simp [ActorContext.Switches, stack]⟩
  | reenter f =>
    refine ⟨fun done => ?_, True.intro⟩
    simp [returning, done] at returns
  | future f op => exact ⟨fun _ _ _ => by simpa [returning] using returns, True.intro⟩

/-- The future is stopped without an answer, and the continuation called: with no result, during the request. -/
theorem reenters_stopped : ∃ s, Machine.Run (step askerSpawner) (fun s l => resumable askerSpawner s l ∧ processed s l)
      (start Spawn.emptyRegistry futurePid) (answered (.stop none) ++ List.replicate 2 (.actor .run) ++ mails (.worker 0) 8) s ∧
    s.resumed = [(⟨7, .null, .success, seen request⟩, some .null)] ∧ Resumes s ∧ s.made.Perm s.expected := by
  have checked : (Machine.execChecked (step askerSpawner) returning
      (answered (.stop none) ++ List.replicate 2 (Label.actor .run) ++ mails (.worker 0) 8) (start Spawn.emptyRegistry futurePid)).map
      (fun s => (s.resumed, decide (Interleaving.Quiescent s.mailbox))) =
      some ([(⟨7, .null, .success, seen request⟩, some .null)], true) := by decide
  obtain ⟨s, ran, outcome⟩ := Option.map_eq_some_iff.1 checked
  obtain ⟨resumed, quiet⟩ := Prod.mk.inj outcome
  have run : Machine.Run (step askerSpawner) (fun s l => resumable askerSpawner s l ∧ processed s l) _ _ s :=
    (Machine.run_of_execChecked ran).mono fun _ _ => resumable_of_returning
  exact ⟨s, run, resumed, reenters.1 _ s (run.mono fun _ _ allowed => allowed.1), reenters.2 _ s run (of_decide_eq_true quiet)⟩

/-- The future is completed with an answer, and the continuation called without it. -/
theorem answer_lost : ¬ ∀ (ls : List (Label Nat Nat)) (s : State Unit Nat Nat Unit Bool),
    Machine.Run (step askerSpawner) Machine.free (start Spawn.emptyRegistry futurePid) ls s → Resumes s := by
  intro all
  have lost : (Machine.exec (step askerSpawner) (answered (.sendSystemMessage none (.user 42)))
      (start Spawn.emptyRegistry futurePid)).map (fun s => (s.made, s.expected)) =
      some ([⟨7, .null, .success, seen request⟩], [⟨7, .user 42, .success, seen request⟩]) := by decide
  obtain ⟨s, ran, outcome⟩ := Option.map_eq_some_iff.1 lost
  obtain ⟨made, expected⟩ := Prod.mk.inj outcome
  have once := (all _ s (Machine.free_of_exec ran)).once
  rw [made, expected] at once
  have same := once.subset List.mem_cons_self
  simp at same

end Protoactor.Actor.Reentry
