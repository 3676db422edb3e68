import Protoactor.Actor.Spawn.Started
import Protoactor.Actor.Context.Steady
import Protoactor.Actor.Mailbox.Order

/-!
# The calls of the context, one by one

`History` runs beside the machine of a spawned actor and keeps a record of each call of
`InvokeUserMessage` and `InvokeSystemMessage`: the state it found, what `Receive` was given while
it ran, and the state it left. It takes no part in the steps.

The calls never overlap. The user messages are handed over in the order in which they were
enqueued; a call in `STATE_STOPPED` gives nothing to `Receive`, and in any other state the message
itself, where there is an actor and no middleware.
-/

namespace Protoactor.Actor.Spawn
set_option autoImplicit false
open Lib Interleaving

variable {P U K σ C : Type} {cfg : Spawner U K σ C} {s s' : Spawn.State P U K σ C}

/-- A call of `InvokeUserMessage` or `InvokeSystemMessage`. -/
structure Call (U K : Type) where
  kind : Kind
  message : Ptr U K
  /-- `state_` when the call was made -/
  found : LifecycleState
  /-- `actor_` was not null then -/
  actor : Bool
  /-- what `Receive` has been given since -/
  given : List (Received U K)
  /-- `state_` when the call was over -/
  left : Option LifecycleState
  deriving DecidableEq, Repr

/-- During the call for a message `Receive` was given that message. -/
def Call.got (call : Call U K) : Prop := ∃ r ∈ call.given, r.message = (unwrapEnvelope call.message).2.1

def Call.hear (call : Call U K) (news : List (Received U K)) : Call U K := { call with given := call.given ++ news }

structure History (P U K σ C : Type) where
  state : Spawn.State P U K σ C
  /-- the calls that are over -/
  ended : List (Call U K)
  running : Option (Call U K)

/-- What `Receive` has been given so far. -/
def received (s : Spawn.State P U K σ C) : List (Received U K) :=
  match s.context with
  | none => []
  | some c => c.received

/-- The call that a step makes. -/
def making (s : Spawn.State P U K σ C) (l : Spawn.Label U K) : Option (Call U K) :=
  match l, s.context with
  | .mail (.worker n), some c =>
    match s.mailbox.calls[n]?.map Worker.pc with
    | some (.invoke k message) => some ⟨k, message, c.state, c.actor, [], none⟩
    | _ => none
  | _, _ => none

namespace History

def step (cfg : Spawner U K σ C) : Machine (History P U K σ C) (Spawn.Label U K) := fun h l =>
  (Spawn.step cfg h.state l).map fun s =>
    let running := h.running.map fun call => call.hear ((received s).drop (received h.state).length)
    if s.handled.length = h.state.handled.length then
      { state := s, ended := h.ended, running := (making h.state l).or running }
    else
      let leaving := running.map fun call => { call with left := s.context.map ActorContext.state }
      { state := s, ended := h.ended ++ leaving.toList, running := none }

def begin (r : ProcessRegistry P) : History P U K σ C := ⟨start r, [], none⟩

/-- The calls for user messages, in the order in which they were made. -/
def userCalls (h : History P U K σ C) : List (Call U K) := (h.ended ++ h.running.toList).filter fun call => call.kind = .user

/-- The user messages in the order in which they were enqueued. -/
def enqueued (h : History P U K σ C) : List (Ptr U K) := h.state.mailbox.box.user.enqueued

/-- The history is that of a run, step by step. -/
theorem state_run {ok : History P U K σ C → Spawn.Label U K → Prop} {h h' : History P U K σ C} {ls : List (Spawn.Label U K)}
    (run : Machine.Run (step cfg) ok h ls h') : Machine.Run (Spawn.step cfg) Machine.free h.state ls h'.state := by
  induction run with
  | nil => exact .nil _
  | cons next _ _ ih =>
    obtain ⟨s, act, rfl⟩ := Option.map_eq_some_iff.1 next
    refine .cons act True.intro ?_
    split at ih <;> exact ih

/-- And every run has a history. -/
theorem run_state {s s' : Spawn.State P U K σ C} {ls : List (Spawn.Label U K)}
    (run : Machine.Run (Spawn.step cfg) Machine.free s ls s') :
    ∀ h : History P U K σ C, h.state = s → ∃ h', Machine.Run (step cfg) Machine.free h ls h' ∧ h'.state = s' := by
  induction run with
  | nil => exact fun h same => ⟨h, .nil h, same⟩
  | @cons s s₁ s' l ls act _ _ ih =>
    intro h same
    subst same
    cases next : step cfg h l with
    | none => simp [step, act] at next
    | some h₁ =>
      have stepped : h₁.state = s₁ := by
        simp only [step, act, Option.map_some, Option.some.injEq] at next
        rw [← next]
        split <;> rfl
      obtain ⟨h', later, last⟩ := ih h₁ stepped
      exact ⟨h', .cons next True.intro later, last⟩

end History

/-! ## Before the process is known -/

/-- `Add` has made the process known. -/
def SpawnerPc.known : SpawnerPc → Bool
  | .setSelf | .setInvoker | .setDispatcher | .postStarted | .posting _ => true
  | _ => false

/-- Nobody has the process, and nothing was posted to it. -/
structure Unknown (s : Spawn.State P U K σ C) : Prop where
  absent : Absent s.registry
  unresolved : .spawned ∉ s.resolved
  mailbox : s.mailbox = Interleaving.init

structure Sound (s : Spawn.State P U K σ C) : Prop where
  unknown : s.spawner.known = false → Unknown s
  made : s.context = none ↔ s.spawner = .createContext ∨ s.spawner = .threw
  lanes : Exclusive s.mailbox ∧ InOrder s.mailbox

theorem Sound.exclusive (sound : Sound s) : Exclusive s.mailbox := sound.lanes.1

theorem Sound.mailbox (sound : Sound s) (none : s.context = none) : s.mailbox = Interleaving.init := by
  refine (sound.unknown ?_).mailbox
  rcases sound.made.1 none with pc | pc <;> rw [pc] <;> rfl

theorem sound_start (r : ProcessRegistry P) : Sound (start r : Spawn.State P U K σ C) where
  unknown := fun _ => ⟨absent_map r, nofun, rfl⟩
  made := ⟨fun _ => .inl rfl, fun _ => rfl⟩
  lanes := ⟨exclusive_init, inOrder_init⟩

/-- No call, task or post of a mailbox that was not posted to can go on. -/
theorem mailStep_init {m : Interleaving.Label (Ptr U K)} (init : s.mailbox = Interleaving.init) : mailStep cfg s m = none := by
  cases m <;> simp [mailStep, Interleaving.step, init, Interleaving.init]

theorem lanes_post {k : Kind} {message : Ptr U K} (lanes : Exclusive s.mailbox ∧ InOrder s.mailbox) :
    Exclusive (s.post k message).mailbox ∧ InOrder (s.post k message).mailbox :=
  inOrder_keeps (h := ⟨0⟩) _ (.post k (item message)) _ lanes True.intro rfl

theorem sound_spawner (sound : Sound s) (act : spawnerStep cfg s = some s') : Sound s' := by
  obtain ⟨unknown, made, lanes⟩ := sound
  -- the context stays once it is made
  have kept : ∀ {pc : SpawnerPc} {o : Option (ActorContext U K σ C)}, (o = none ↔ s.context = none) →
      ¬ (s.spawner = .createContext ∨ s.spawner = .threw) → ¬ (pc = .createContext ∨ pc = .threw) →
      (o = none ↔ pc = .createContext ∨ pc = .threw) := by
    intro pc o same there later
    rw [same, made]
    exact iff_of_false there later
  unfold spawnerStep at act
  split at act
  · rename_i pc
    obtain ⟨absent, unresolved, init⟩ := unknown (by rw [pc]; rfl)
    split at act
    · cases act
      exact ⟨fun _ => ⟨absent, unresolved, init⟩, iff_of_true (made.2 (.inl pc)) (.inr rfl), lanes⟩
    · cases act
      exact ⟨fun _ => ⟨absent, unresolved, init⟩, iff_of_false nofun (by simp), lanes⟩
  · rename_i pc
    obtain ⟨absent, unresolved, -⟩ := unknown (by rw [pc]; rfl)
    cases act
    exact ⟨fun _ => ⟨absent, unresolved, rfl⟩, kept Iff.rfl (by simp [pc]) (by simp), exclusive_init, inOrder_init⟩
  · rename_i pc
    obtain ⟨absent, unresolved, init⟩ := unknown (by rw [pc]; rfl)
    split at act
    · rename_i r refused
      cases act
      exact ⟨fun _ => ⟨absent_add absent refused, unresolved, init⟩, kept Iff.rfl (by simp [pc]) (by simp), lanes⟩
    · cases act
      exact ⟨nofun, kept Iff.rfl (by simp [pc]) (by simp), lanes⟩
  · rename_i pc
    cases act
    exact ⟨nofun, kept Option.map_eq_none_iff (by simp [pc]) (by simp), lanes⟩
  · rename_i pc
    cases act
    exact ⟨nofun, kept Iff.rfl (by simp [pc]) (by simp), lanes⟩
  · rename_i pc
    cases act
    exact ⟨nofun, kept Iff.rfl (by simp [pc]) (by simp), lanes⟩
  · rename_i pc
    cases act
    exact ⟨nofun, kept Iff.rfl (by simp [pc]) (by simp), lanes_post lanes⟩
  · cases act
  · cases act
  · cases act

/-- A mailbox that was posted to has a context behind it. -/
theorem sound_mail {m : Interleaving.Label (Ptr U K)} (sound : Sound s) (act : mailStep cfg s m = some s') : Sound s' := by
  have facts := mailed act
  have early : s.spawner.known = true := by
    cases known : s.spawner.known with
    | true => rfl
    | false =>
      rw [mailStep_init (sound.unknown known).mailbox] at act
      cases act
  constructor
  case unknown =>
    intro late
    rw [facts.spawner, early] at late
    cases late
  case made =>
    cases context : s.context with
    | none =>
      rw [mailStep_init (sound.mailbox context)] at act
      cases act
    | some c =>
      obtain ⟨⟨c', context', -⟩, -⟩ := mailed_context act context
      rw [context', facts.spawner, ← sound.made, context]
      exact iff_of_false nofun nofun
  case lanes =>
    rcases facts.outcome with ⟨n, -, -, -, rfl⟩ | ⟨move, -, -⟩
    · exact sound.lanes
    · exact inOrder_keeps _ m _ sound.lanes True.intro move

theorem sound_keeps : Machine.Keeps (Spawn.step cfg) Machine.free (Sound (P := P)) := by
  intro s l s' sound _ act
  have same := sound
  obtain ⟨unknown, made, lanes⟩ := sound
  unfold Spawn.step at act
  split at act
  · cases act
  cases l with
  | spawner => exact sound_spawner same act
  | get pid =>
    cases act
    refine ⟨fun early => ?_, made, lanes⟩
    obtain ⟨absent, unresolved, init⟩ := unknown early
    refine ⟨absent, fun member => ?_, init⟩
    rcases List.mem_append.1 member with old | new
    · exact unresolved old
    · exact absent.get pid (List.mem_singleton.1 new).symm
  | send n k message =>
    dsimp only at act
    split at act
    · cases act
    · rename_i here
      cases act
      refine ⟨fun early => ?_, made, lanes_post lanes⟩
      exact absurd (List.mem_of_getElem? here) (unknown early).unresolved
    · cases act
      exact same
  | mail m => exact sound_mail same act
  | run =>
    obtain ⟨c, context, act⟩ := Option.bind_eq_some_iff.1 act
    obtain ⟨c', call, rfl⟩ := Option.map_eq_some_iff.1 act
    refine ⟨fun early => ?_, ?_, lanes⟩
    · obtain ⟨absent, unresolved, init⟩ := unknown early
      exact ⟨absent, unresolved, init⟩
    · show some c' = none ↔ _
      rw [← made, context]
      exact iff_of_false nofun nofun

/-- The step of the mailbox that a step can be. -/
inductive Brings (l : Spawn.Label U K) : Interleaving.Label (Ptr U K) → Prop where
  | mail {m : Interleaving.Label (Ptr U K)} (own : l = .mail m) (noPost : ∀ k message, m ≠ .post k message) : Brings l m
  | send {n : Nat} {k : Kind} {message : Ptr U K} (own : l = .send n k message) : Brings l (.post k (item message))
  | started (own : l = .spawner) : Brings l (.post .system (item startedEnvelope))

/-- Every step leaves the mailbox alone or is one of its steps. -/
theorem mailbox_step {l : Spawn.Label U K} (sound : Sound s) (act : Spawn.step cfg s l = some s') :
    s'.mailbox = s.mailbox ∨ ∃ m, Brings l m ∧ Interleaving.step cfg.dispatcher s.mailbox m = some s'.mailbox := by
  unfold Spawn.step at act
  split at act
  · cases act
  cases l with
  | spawner =>
    replace act : spawnerStep cfg s = some s' := act
    unfold spawnerStep at act
    split at act
    · split at act <;> (cases act; exact .inl rfl)
    · rename_i pc
      cases act
      exact .inl (sound.unknown (by rw [pc]; rfl)).mailbox.symm
    · split at act <;> (cases act; exact .inl rfl)
    · cases act
      exact .inl rfl
    · cases act
      exact .inl rfl
    · cases act
      exact .inl rfl
    · cases act
      exact .inr ⟨_, .started rfl, rfl⟩
    · cases act
    · cases act
    · cases act
  | get pid =>
    cases act
    exact .inl rfl
  | send n k message =>
    dsimp only at act
    split at act
    · cases act
    · cases act
      exact .inr ⟨_, .send rfl, rfl⟩
    · cases act
      exact .inl rfl
  | mail m =>
    rcases (mailed act).outcome with ⟨n, -, -, -, rfl⟩ | ⟨move, -, noPost⟩
    · exact .inl rfl
    · exact .inr ⟨m, .mail rfl noPost, move⟩
  | run =>
    obtain ⟨c, -, act⟩ := Option.bind_eq_some_iff.1 act
    obtain ⟨c', -, rfl⟩ := Option.map_eq_some_iff.1 act
    exact .inl rfl

/-! ## What a step can do -/

/-- Only `self_` may differ. -/
def Renamed (c c' : ActorContext U K σ C) : Prop := ∃ self, c' = { c with self := self }

/-- What a step of the history can be: one that has nothing to do with the calls of the context, a call, a
step of the running call, or its end. -/
inductive Moved (cfg : Spawner U K σ C) (h : History P U K σ C) (l : Spawn.Label U K) : History P U K σ C → Prop where
  | aside {s : Spawn.State P U K σ C} (unmoved : Unmoved h.state.mailbox s.mailbox)
      (renamed : ∀ c, h.state.context = some c → ∃ c', s.context = some c' ∧ Renamed c c')
      (fresh : h.state.context = none → ∀ c, s.context = some c → Fresh c) :
      Moved cfg h l ⟨s, h.ended, h.running⟩
  | call {s : Spawn.State P U K σ C} {n : Nat} {w : Worker (Ptr U K)} {k : Kind} {message : Ptr U K} {c c' : ActorContext U K σ C}
      (here : h.state.mailbox.calls[n]? = some w) (pc : w.pc = .invoke k message)
      (move : Interleaving.step cfg.dispatcher h.state.mailbox (.worker n) = some s.mailbox)
      (context : h.state.context = some c) (called : ActorContext.step cfg.props cfg.beh c (callOf k message) = some c')
      (context' : s.context = some c') (made : making h.state l = some ⟨k, message, c.state, c.actor, [], none⟩) :
      Moved cfg h l ⟨s, h.ended, some ⟨k, message, c.state, c.actor, [], none⟩⟩
  | run {s : Spawn.State P U K σ C} {c c' : ActorContext U K σ C} (context : h.state.context = some c)
      (act : ActorContext.step cfg.props cfg.beh c .run = some c') (context' : s.context = some c')
      (mailbox : s.mailbox = h.state.mailbox) :
      Moved cfg h l ⟨s, h.ended, h.running.map fun call => call.hear (c'.received.drop c.received.length)⟩
  | leave {s : Spawn.State P U K σ C} {m : Interleaving.Label (Ptr U K)} {n : Nat} {w : Worker (Ptr U K)} {k : Kind}
      {message : Ptr U K} {c : ActorContext U K σ C} (acts : m = .worker n ∨ m = .raise n)
      (here : h.state.mailbox.calls[n]? = some w) (pc : w.pc = .invoking k message)
      (move : Interleaving.step cfg.dispatcher h.state.mailbox m = some s.mailbox) (context : h.state.context = some c)
      (idle : c.stack = []) (context' : s.context = some c) :
      Moved cfg h l ⟨s, h.ended ++ (h.running.map fun call => { call with left := some c.state }).toList, none⟩

theorem Call.hear_nil (call : Call U K) : call.hear [] = call := by
  simp [Call.hear]

theorem unmoved_of_same {m m' : Interleaving.State (Ptr U K)} (box : m'.box = m.box) (calls : m'.calls = m.calls) : Unmoved m m' where
  invoked := fun k => by rw [box]
  stays := fun _ _ here _ => calls ▸ here
  noOther := fun w member _ => calls ▸ member

theorem making_none {l : Spawn.Label U K} (other : ∀ n, l ≠ .mail (.worker n)) : making s l = none := by
  unfold making
  split
  · exact absurd rfl (other _)
  · rfl

section Moved

variable {h h' : History P U K σ C} {l : Spawn.Label U K}

/-- Where `Receive` hears nothing, no call is made and none is over, the records stay. -/
theorem moved_aside (next : History.step cfg h l = some h') (act : Spawn.step cfg h.state l = some s)
    (made : making h.state l = none) (handled : s.handled = h.state.handled) (unmoved : Unmoved h.state.mailbox s.mailbox)
    (renamed : ∀ c, h.state.context = some c → ∃ c', s.context = some c' ∧ Renamed c c')
    (fresh : h.state.context = none → ∀ c, s.context = some c → Fresh c) : Moved cfg h l h' := by
  have heard : received s = received h.state := by
    unfold received
    cases context : h.state.context with
    | none =>
      split
      · rfl
      · rename_i c context'
        exact (fresh context c context').received
    | some c =>
      obtain ⟨c', context', self, rfl⟩ := renamed c context
      rw [context']
  have same : h.running.map (fun call => call.hear []) = h.running := by
    simp only [Call.hear_nil, Option.map_id']
  simp only [History.step, act, Option.map_some, Option.some.injEq, heard, handled, if_true, made, List.drop_length,
    Option.none_or, same] at next
  subst next
  exact .aside unmoved renamed fresh

/-- The same where the context is left alone as well. -/
theorem moved_alone (next : History.step cfg h l = some h') (act : Spawn.step cfg h.state l = some s)
    (made : making h.state l = none) (handled : s.handled = h.state.handled) (unmoved : Unmoved h.state.mailbox s.mailbox)
    (context : s.context = h.state.context) : Moved cfg h l h' := by
  refine moved_aside next act made handled unmoved (fun c here => ⟨c, context.trans here, c.self, rfl⟩) fun none c here => ?_
  rw [context, none] at here
  cases here

theorem moved_spawner (sound : Sound h.state) (next : History.step cfg h .spawner = some h')
    (act : Spawn.step cfg h.state .spawner = some s) : Moved cfg h .spawner h' := by
  have made : making h.state (.spawner : Spawn.Label U K) = none := making_none nofun
  have spawned := act
  unfold Spawn.step at spawned
  split at spawned
  · cases spawned
  replace spawned : spawnerStep cfg h.state = some s := spawned
  unfold spawnerStep at spawned
  split at spawned
  · rename_i pc
    have unmade := sound.made.2 (.inl pc)
    split at spawned
    · cases spawned
      exact moved_alone next act made rfl (unmoved_of_same rfl rfl) rfl
    · cases spawned
      refine moved_aside next act made rfl (unmoved_of_same rfl rfl) (fun c some => ?_) fun _ c new => ?_
      · rw [unmade] at some
        cases some
      · cases new
        exact ⟨rfl, rfl⟩
  · rename_i pc
    have init := (sound.unknown (by rw [pc]; rfl)).mailbox
    cases spawned
    exact moved_alone next act made rfl (unmoved_of_same (by rw [init]) (by rw [init])) rfl
  · split at spawned <;> (cases spawned; exact moved_alone next act made rfl (unmoved_of_same rfl rfl) rfl)
  · cases spawned
    refine moved_aside next act made rfl (unmoved_of_same rfl rfl) (fun c some => ?_) fun none c new => ?_
    · exact ⟨_, by rw [some]; rfl, _, rfl⟩
    · rw [none] at new
      cases new
  · cases spawned
    exact moved_alone next act made rfl (unmoved_of_same rfl rfl) rfl
  · cases spawned
    exact moved_alone next act made rfl (unmoved_of_same rfl rfl) rfl
  · cases spawned
    exact moved_alone next act made rfl (unmoved_of_same rfl rfl) rfl
  · cases spawned
  · cases spawned
  · cases spawned

/-- The end of a call finds the stack empty. -/
theorem mailStep_idle {m : Interleaving.Label (Ptr U K)} {n : Nat} {w : Worker (Ptr U K)} {k : Kind} {message : Ptr U K}
    {c : ActorContext U K σ C} (act : mailStep cfg s m = some s') (acts : m = .worker n ∨ m = .raise n)
    (here : s.mailbox.calls[n]? = some w) (pc : w.pc = .invoking k message) (context : s.context = some c) : c.stack = [] := by
  obtain ⟨mailbox, -, rest⟩ := Option.bind_eq_some_iff.1 act
  rcases acts with rfl | rfl
  all_goals
    simp only [here, Option.map_some, pc, context] at rest
    split at rest
    · rename_i idle
      exact List.isEmpty_iff.1 idle
    · cases rest

theorem moved_mail {m : Interleaving.Label (Ptr U K)} (sound : Sound h.state) (next : History.step cfg h (.mail m) = some h')
    (act : Spawn.step cfg h.state (.mail m) = some s) (mail : mailStep cfg h.state m = some s) : Moved cfg h (.mail m) h' := by
  cases context : h.state.context with
  | none =>
    rw [mailStep_init (sound.mailbox context)] at mail
    cases mail
  | some c =>
    cases mailStep_cases mail with
    | crash dispatching missing =>
      exact moved_alone next act (making_none nofun) rfl (unmoved_of_same rfl rfl) rfl
    | alone move noPost quiet =>
      have calm : Calm h.state.mailbox m := fun n w acts here k message => quiet n w c acts here context k message
      have made : making h.state (.mail m) = none := by
        unfold making
        split
        · rename_i n c₁ same context'
          split
          · rename_i k message invoke
            cases same
            obtain ⟨w, here, pc⟩ := Option.map_eq_some_iff.1 invoke
            exact absurd pc (calm n w (.inl rfl) here k message).1
          · rfl
        · rfl
      exact moved_alone next act made rfl (unmoved_of_calm calm move) rfl
    | @call n w k message c₀ c' mailbox move here pc context' called =>
      have made : making h.state (.mail (.worker n)) = some ⟨k, message, c₀.state, c₀.actor, [], none⟩ := by
        simp only [making, context', here, Option.map_some, pc]
      have recorded := next
      simp only [History.step, act, Option.map_some, Option.some.injEq, if_true, made, Option.some_or] at recorded
      subst recorded
      exact .call here pc move context' called rfl made
    | @handled _ n w k message c₀ mailbox move acts here pc context' =>
      have silent : received ({ h.state with mailbox := mailbox, handled := h.state.handled ++ [(k, message)] } : Spawn.State P U K σ C) =
          received h.state := rfl
      have left : h.state.context.map ActorContext.state = some c₀.state := by rw [context']; rfl
      have recorded := next
      simp only [History.step, act, Option.map_some, Option.some.injEq, List.length_append, List.length_singleton,
        Nat.succ_ne_self, if_false, silent, List.drop_length, Call.hear_nil, Option.map_id', left] at recorded
      subst recorded
      exact .leave acts here pc move context' (mailStep_idle mail acts here pc context') context'

/-- Whatever the step is. -/
theorem moved (sound : Sound h.state) (next : History.step cfg h l = some h') : Moved cfg h l h' := by
  obtain ⟨s, act, -⟩ := Option.map_eq_some_iff.1 next
  have spawned := act
  unfold Spawn.step at spawned
  split at spawned
  · cases spawned
  cases l with
  | spawner => exact moved_spawner sound next act
  | get pid =>
    cases spawned
    exact moved_alone next act (making_none nofun) rfl (unmoved_of_same rfl rfl) rfl
  | send n k message =>
    dsimp only at spawned
    split at spawned
    · cases spawned
    · cases spawned
      exact moved_alone next act (making_none nofun) rfl (unmoved_of_same rfl rfl) rfl
    · cases spawned
      exact moved_alone next act (making_none nofun) rfl (unmoved_of_same rfl rfl) rfl
  | mail m => exact moved_mail sound next act spawned
  | run =>
    obtain ⟨c, context, spawned⟩ := Option.bind_eq_some_iff.1 spawned
    obtain ⟨c', called, rfl⟩ := Option.map_eq_some_iff.1 spawned
    have recorded := next
    have made : making h.state (.run : Spawn.Label U K) = none := making_none nofun
    simp only [History.step, act, Option.map_some, Option.some.injEq, if_true, made, Option.none_or, received, context] at recorded
    subst recorded
    exact .run context called rfl rfl

end Moved

end Protoactor.Actor.Spawn
