import Protoactor.Actor.Spawn.Calls

/-!
# What the records of the calls say

`During` is kept by the steps of a call for a user message, and `Done` is what it ends with. The
calls of a run are one after another (`Place`), so every record is that of a whole call, and the
user messages are those the mailbox has invoked, in their order.
-/

namespace Protoactor.Actor.Spawn
set_option autoImplicit false
open Lib Interleaving

variable {P U K σ C : Type} {cfg : Spawner U K σ C} {c c' : ActorContext U K σ C} {call : Call U K}

/-! ## One call -/

/-- The next step gives the message of the call to `Receive`. -/
structure Due (call : Call U K) (c : ActorContext U K σ C) : Prop where
  next : ∃ below, c.stack = .receive :: below
  current : c.current.message = (unwrapEnvelope call.message).2.1
  actor : c.actor = true

/-- A call for a user message that is running. -/
structure During (cfg : Spawner U K σ C) (call : Call U K) (c : ActorContext U K σ C) : Prop where
  state : c.state = call.found
  plain : Plain c.stack
  dropped : call.found = .stopped → c.stack = [] ∧ call.given = []
  nobody : call.actor = false → c.actor = false ∧ call.given = []
  taken : call.found ≠ .stopped → call.actor = true → cfg.props.receiverMiddlewareChain = none → Due call c ∨ call.got

/-- A call for a user message that is over. -/
structure Done (cfg : Spawner U K σ C) (call : Call U K) : Prop where
  left : call.left = some call.found
  dropped : call.found = .stopped → call.given = []
  nobody : call.actor = false → call.given = []
  taken : call.found ≠ .stopped → call.actor = true → cfg.props.receiverMiddlewareChain = none → call.got

theorem Call.got_hear {news : List (Received U K)} (got : call.got) : (call.hear news).got := by
  obtain ⟨r, member, same⟩ := got
  exact ⟨r, List.mem_append_left _ member, same⟩

theorem During.renamed (during : During cfg call c) (renamed : Renamed c c') : During cfg call c' := by
  obtain ⟨self, rfl⟩ := renamed
  obtain ⟨state, plain, dropped, nobody, taken⟩ := during
  refine ⟨state, plain, dropped, nobody, fun live actor direct => (taken live actor direct).imp_left fun due => ?_⟩
  exact ⟨due.next, due.current, due.actor⟩

/-- `InvokeUserMessage` has been called. -/
theorem during_user {message : Ptr U K} (idle : c.stack = []) (called : ActorContext.step cfg.props cfg.beh c (.user message) = some c') :
    During cfg ⟨.user, message, c.state, c.actor, [], none⟩ c' := by
  simp only [ActorContext.step, idle, Option.some.injEq] at called
  subst called
  have steady := ActorContext.steady_invokeUserMessage (c := c) message
  refine ⟨steady.state, steady.plain (plain_of_idle idle), fun stopped => ⟨?_, rfl⟩, fun absent => ⟨?_, rfl⟩, fun live actor _ => .inl ?_⟩
  · rw [ActorContext.invokeUserMessage, if_pos (show c.state = .stopped from stopped)]
    exact idle
  · exact (ActorContext.unheard_invokeUserMessage message).2.trans absent
  · rw [ActorContext.invokeUserMessage, if_neg (show ¬ c.state = .stopped from live)]
    exact ⟨⟨_, rfl⟩, rfl, actor⟩

/-- A step of the call. -/
theorem during_run (during : During cfg call c) (act : ActorContext.step cfg.props cfg.beh c .run = some c') :
    During cfg (call.hear (c'.received.drop c.received.length)) c' := by
  obtain ⟨state, plain, dropped, nobody, taken⟩ := during
  obtain ⟨same, plain'⟩ := ActorContext.steady_run plain act
  refine ⟨same.trans state, plain', fun stopped => ?_, fun absent => ?_, fun live actor direct => .inr ?_⟩
  · simp [ActorContext.step, (dropped stopped).1] at act
  · obtain ⟨none, given⟩ := nobody absent
    rcases ActorContext.hears_run plain act with ⟨silent, actor⟩ | ⟨there, -⟩
    · exact ⟨actor.trans none, by rw [Call.hear, given, silent, List.drop_length, List.append_nil]⟩
    · rw [none] at there
      cases there
  · rcases taken live actor direct with ⟨⟨below, next⟩, current, there⟩ | got
    · simp only [ActorContext.step, next, Option.some.injEq] at act
      subst act
      refine ⟨c.current, List.mem_append_right _ ?_, current⟩
      simp [ActorContext.runFrame, ActorContext.defaultReceive, direct, ActorContext.receive, there, ActorContext.call]
      rfl
    · exact Call.got_hear got

theorem During.done (during : During cfg call c) (idle : c.stack = []) : Done cfg { call with left := some c.state } := by
  obtain ⟨state, -, dropped, nobody, taken⟩ := during
  refine ⟨congrArg some state, fun stopped => (dropped stopped).2, fun absent => (nobody absent).2, fun live actor direct => ?_⟩
  rcases taken live actor direct with ⟨⟨below, next⟩, -⟩ | got
  · rw [idle] at next
    cases next
  · exact got

/-! ## The mailbox -/

section Mailbox

variable {hs : Handlers} {m m' : Interleaving.State (Ptr U K)} {n : Nat} {w : Worker (Ptr U K)} {k : Kind} {message : Ptr U K}

/-- The call for a message. -/
theorem invoke_moves (here : m.calls[n]? = some w) (pc : w.pc = .invoke k message)
    (move : Interleaving.step hs m (.worker n) = some m') :
    (∃ w', m'.calls[n]? = some w' ∧ w'.pc = .invoking k message) ∧
      m'.box.user.invoked = m.box.user.invoked ++ if k = .user then [message] else [] := by
  simp only [Interleaving.step, here, Worker.step, pc, Option.map_some, Option.some.injEq] at move
  subst move
  refine ⟨⟨_, pool_put here _, rfl⟩, ?_⟩
  cases k with
  | user => rfl
  | system => exact (List.append_nil _).symm

/-- Of two calls that hold the right one is the other. -/
theorem holder_unique (excl : Exclusive m) {j : Nat} {v : Worker (Ptr U K)} (here : m.calls[n]? = some w)
    (there : m.calls[j]? = some v) (holds : w.holds = true) (holds' : v.holds = true) : n = j := by
  refine index_unique ?_ here there holds holds'
  have one := excl.one
  simp only [holders] at one
  omega

/-- The end of that call. -/
theorem over_moves {l : Interleaving.Label (Ptr U K)} (excl : Exclusive m) (acts : l = .worker n ∨ l = .raise n)
    (here : m.calls[n]? = some w) (pc : w.pc = .invoking k message) (move : Interleaving.step hs m l = some m') :
    (∀ w ∈ m'.calls, w.invoking = false) ∧ m'.box = m.box := by
  have inside : w.invoking = true := by simp [Worker.invoking, pc]
  have others : ∀ w', w'.invoking = false → ∀ v ∈ m.calls.set n w', v.invoking = false := by
    intro w' outside v member
    obtain ⟨j, there⟩ := List.mem_iff_getElem?.1 member
    by_cases same : n = j
    · subst same
      rw [pool_put here] at there
      cases there
      exact outside
    · rw [List.getElem?_set_ne same] at there
      by_contra invoking
      have holds := Worker.holds_of_invoking (Bool.not_eq_false _ ▸ invoking : v.invoking = true)
      exact same (holder_unique excl here there (Worker.holds_of_invoking inside) holds)
  rcases acts with rfl | rfl
  · simp only [Interleaving.step, here, Worker.step, pc, Option.map_some, Option.some.injEq] at move
    subst move
    exact ⟨others _ (invoking_iterate w), rfl⟩
  · simp only [Interleaving.step, here, inside, if_true, Option.some.injEq] at move
    subst move
    exact ⟨others _ rfl, rfl⟩

end Mailbox

/-! ## The calls of a run -/

variable {h h' : History P U K σ C} {l : Spawn.Label U K}

/-- No call is running, or exactly one, of which the worker that made it is waiting for the end. -/
inductive Place (cfg : Spawner U K σ C) (h : History P U K σ C) : Prop where
  | between (none : h.running = none) (outside : ∀ w ∈ h.state.mailbox.calls, w.invoking = false)
      (idle : ∀ c, h.state.context = some c → c.stack = [])
  | within {n : Nat} {w : Worker (Ptr U K)} {c : ActorContext U K σ C} {call : Call U K} (running : h.running = some call)
      (here : h.state.mailbox.calls[n]? = some w) (pc : w.pc = .invoking call.kind call.message)
      (context : h.state.context = some c) (unfinished : call.left = none) (during : call.kind = .user → During cfg call c)

structure Recorded (cfg : Spawner U K σ C) (h : History P U K σ C) : Prop where
  place : Place cfg h
  done : ∀ call ∈ h.ended, call.kind = .user → Done cfg call
  messages : h.userCalls.map Call.message = h.state.mailbox.box.user.invoked

theorem recorded_begin (r : ProcessRegistry P) : Recorded cfg (History.begin r : History P U K σ C) where
  place := .between rfl nofun nofun
  done := nofun
  messages := rfl

/-- The user calls with another call at their end. -/
theorem userCalls_snoc (s : Spawn.State P U K σ C) (ended : List (Call U K)) (call : Call U K) :
    History.userCalls ⟨s, ended, some call⟩ =
      History.userCalls ⟨s, ended, none⟩ ++ if call.kind = .user then [call] else [] := by
  simp only [History.userCalls, Option.toList_some, Option.toList_none, List.append_nil, List.filter_append, List.filter_cons,
    List.filter_nil, decide_eq_true_eq]

/-- Only what the calls hear and leave has changed. -/
theorem messages_running {s s' : Spawn.State P U K σ C} {ended : List (Call U K)} {call call' : Call U K}
    (kind : call'.kind = call.kind) (message : call'.message = call.message) :
    (History.userCalls ⟨s', ended, some call'⟩).map Call.message = (History.userCalls ⟨s, ended, some call⟩).map Call.message := by
  rw [userCalls_snoc, userCalls_snoc, kind]
  split
  · simp only [List.map_append, List.map_cons, message, List.map_nil, History.userCalls]
  · rfl

/-- A call that is over stays where it is. -/
theorem userCalls_over (s s' : Spawn.State P U K σ C) (ended : List (Call U K)) (call : Call U K) :
    History.userCalls ⟨s', ended ++ [call], none⟩ = History.userCalls ⟨s, ended, some call⟩ := by
  simp only [History.userCalls, Option.toList_some, Option.toList_none, List.append_nil]

theorem recorded_aside {s : Spawn.State P U K σ C} (recorded : Recorded cfg h) (unmoved : Unmoved h.state.mailbox s.mailbox)
    (renamed : ∀ c, h.state.context = some c → ∃ c', s.context = some c' ∧ Renamed c c')
    (fresh : h.state.context = none → ∀ c, s.context = some c → Fresh c) : Recorded cfg ⟨s, h.ended, h.running⟩ := by
  obtain ⟨place, done, messages⟩ := recorded
  refine ⟨?_, done, messages.trans (unmoved.invoked .user).symm⟩
  cases place with
  | between none outside idle =>
    refine .between none (fun w member => ?_) fun c context => ?_
    · cases inside : w.invoking with
      | false => rfl
      | true => exact (outside w (unmoved.noOther w member inside)).symm.trans inside ▸ rfl
    · cases before : h.state.context with
      | none => exact (fresh before c context).idle
      | some c₀ =>
        obtain ⟨c', context', self, rfl⟩ := renamed c₀ before
        cases context'.symm.trans context
        exact idle c₀ before
  | within running here pc context unfinished during =>
    obtain ⟨c', context', renamed⟩ := renamed _ context
    exact .within running (unmoved.stays _ _ here (by simp [Worker.invoking, pc])) pc context' unfinished
      fun user => (during user).renamed renamed

/-- When a worker is about to invoke a message no call is running. -/
theorem Place.calm {n : Nat} {w : Worker (Ptr U K)} {k : Kind} {message : Ptr U K} (place : Place cfg h)
    (excl : Exclusive h.state.mailbox) (here : h.state.mailbox.calls[n]? = some w) (pc : w.pc = .invoke k message) :
    h.running = none ∧ ∀ c, h.state.context = some c → c.stack = [] := by
  cases place with
  | between none outside idle => exact ⟨none, idle⟩
  | within running here' pc' =>
    have one := holder_unique excl here here' (by simp [Worker.holds, pc]) (by simp [Worker.holds, pc'])
    subst one
    rw [here] at here'
    cases here'
    rw [pc] at pc'
    cases pc'

theorem recorded_call {s : Spawn.State P U K σ C} {n : Nat} {w : Worker (Ptr U K)} {k : Kind} {message : Ptr U K}
    (sound : Sound h.state) (recorded : Recorded cfg h) (here : h.state.mailbox.calls[n]? = some w)
    (pc : w.pc = .invoke k message) (move : Interleaving.step cfg.dispatcher h.state.mailbox (.worker n) = some s.mailbox)
    (context : h.state.context = some c) (called : ActorContext.step cfg.props cfg.beh c (callOf k message) = some c')
    (context' : s.context = some c') : Recorded cfg ⟨s, h.ended, some ⟨k, message, c.state, c.actor, [], none⟩⟩ := by
  obtain ⟨none, idle⟩ := recorded.place.calm sound.exclusive here pc
  obtain ⟨state, ended, running⟩ := h
  obtain rfl : running = .none := none
  obtain ⟨-, done, messages⟩ := recorded
  obtain ⟨⟨w', here', pc'⟩, invoked⟩ := invoke_moves here pc move
  refine ⟨.within rfl here' pc' context' rfl fun user => ?_, done, ?_⟩
  · cases user
    exact during_user (idle c context) called
  · have before : (History.userCalls (⟨s, ended, .none⟩ : History P U K σ C)).map Call.message = state.mailbox.box.user.invoked :=
      messages
    rw [userCalls_snoc, List.map_append, before, invoked]
    cases k <;> rfl

theorem recorded_run {s : Spawn.State P U K σ C} (recorded : Recorded cfg h) (context : h.state.context = some c)
    (act : ActorContext.step cfg.props cfg.beh c .run = some c') (context' : s.context = some c')
    (mailbox : s.mailbox = h.state.mailbox) :
    Recorded cfg ⟨s, h.ended, h.running.map fun call => call.hear (c'.received.drop c.received.length)⟩ := by
  obtain ⟨state, ended, running⟩ := h
  obtain ⟨place, done, messages⟩ := recorded
  cases place with
  | between none outside idle => simp [ActorContext.step, idle c context] at act
  | @within n w c₀ call running' here pc there unfinished during =>
    obtain rfl : running = some call := running'
    cases context.symm.trans there
    refine ⟨.within rfl (mailbox ▸ here) pc context' unfinished fun user => during_run (during user) act, done, ?_⟩
    rw [mailbox, ← messages]
    exact messages_running rfl rfl

theorem recorded_over {s : Spawn.State P U K σ C} {m : Interleaving.Label (Ptr U K)} {n : Nat} {w : Worker (Ptr U K)} {k : Kind}
    {message : Ptr U K} (sound : Sound h.state) (recorded : Recorded cfg h) (acts : m = .worker n ∨ m = .raise n)
    (here : h.state.mailbox.calls[n]? = some w) (pc : w.pc = .invoking k message)
    (move : Interleaving.step cfg.dispatcher h.state.mailbox m = some s.mailbox) (context : h.state.context = some c)
    (idle : c.stack = []) (context' : s.context = some c) :
    Recorded cfg ⟨s, h.ended ++ (h.running.map fun call => { call with left := some c.state }).toList, none⟩ := by
  obtain ⟨state, ended, running⟩ := h
  obtain ⟨place, done, messages⟩ := recorded
  obtain ⟨outside', box⟩ := over_moves sound.exclusive acts here pc move
  cases place with
  | between none outside =>
    have inside := outside w (List.mem_of_getElem? here)
    simp [Worker.invoking, pc] at inside
  | @within n' w' c₀ call running' here' pc' there unfinished during =>
    obtain rfl : running = some call := running'
    cases context.symm.trans there
    refine ⟨.between rfl outside' fun c₁ here₁ => ?_, fun call' member user => ?_, ?_⟩
    · cases context'.symm.trans here₁
      exact idle
    · rcases List.mem_append.1 member with old | new
      · exact done call' old user
      · cases List.mem_singleton.1 new
        exact (during user).done idle
    · show (History.userCalls ⟨s, ended ++ [{ call with left := some c.state }], none⟩).map Call.message = _
      rw [userCalls_over s s, box, ← messages]
      exact messages_running rfl rfl

theorem recorded_moved (sound : Sound h.state) (recorded : Recorded cfg h) (moved : Moved cfg h l h') : Recorded cfg h' := by
  cases moved with
  | aside unmoved renamed fresh => exact recorded_aside recorded unmoved renamed fresh
  | call here pc move context called context' made => exact recorded_call sound recorded here pc move context called context'
  | run context act context' mailbox => exact recorded_run recorded context act context' mailbox
  | leave acts here pc move context idle context' => exact recorded_over sound recorded acts here pc move context idle context'

theorem recorded_keeps : Machine.Keeps (History.step cfg) Machine.free
    fun h : History P U K σ C => Sound h.state ∧ Recorded cfg h := by
  rintro h l h' ⟨sound, recorded⟩ _ next
  refine ⟨?_, recorded_moved sound recorded (moved sound next)⟩
  obtain ⟨s, act, rfl⟩ := Option.map_eq_some_iff.1 next
  have kept := sound_keeps _ l s sound True.intro act
  split <;> exact kept

end Protoactor.Actor.Spawn
