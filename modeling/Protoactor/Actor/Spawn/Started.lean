import Protoactor.Actor.Spawn.Handlers
import Protoactor.Actor.Context.Receiving
import Protoactor.Actor.Mailbox.First

/-!
# Started comes first

The spawner posts `Started` after it has made the process known and stored its handlers, so
other posts can come before. If none does, `Started` is the first message of the mailbox:
`Progress` follows it from its push to the end of its invocation, and no other call of the
context is made meanwhile.
-/

namespace Protoactor.Actor.Spawn
set_option autoImplicit false
open Lib Interleaving

variable {P U K σ C : Type} {cfg : Spawner U K σ C} {s s' : Spawn.State P U K σ C}

/-- The spawner has pushed `Started`. -/
def Announced (s : Spawn.State P U K σ C) : Prop :=
  ∃ p c, s.spawner = .posting p ∧ s.mailbox.posts[p]? = some c ∧ c.pc ≠ .push

/-- The step is not the push of another post before the spawner's. -/
def Orderly (s : Spawn.State P U K σ C) (l : Spawn.Label U K) : Prop :=
  ∀ n c, l = .mail (.poster n) → s.mailbox.posts[n]? = some c → c.pc = .push → s.spawner = .posting n ∨ Announced s

/-- The first message that `Receive` was given is `Started`. -/
def StartedFirst (s : Spawn.State P U K σ C) : Prop :=
  ∀ c r, s.context = some c → c.received.head? = some r → r.message = .started

/-- No user message has been handed to the context before `Started` was processed. -/
def UserAfter (s : Spawn.State P U K σ C) : Prop :=
  s.mailbox.box.user.invoked ≠ [] → (.system, startedEnvelope) ∈ s.handled

/-! ## What a step of the mailbox does to the context -/

/-- A step that makes no call and ends none leaves the context alone. -/
theorem mailed_calm {m : Interleaving.Label (Ptr U K)} (act : mailStep cfg s m = some s') (calm : Calm s.mailbox m) :
    s'.context = s.context ∧ s'.handled = s.handled := by
  cases mailStep_cases act with
  | crash dispatching missing => exact ⟨rfl, rfl⟩
  | alone move noPost quiet => exact ⟨rfl, rfl⟩
  | @call n w k message c c' mailbox move here pc context called => exact absurd pc (calm n w (.inl rfl) here k message).1
  | @handled _ n w k message c mailbox move acts here pc context => exact absurd pc (calm n w acts here k message).2

/-- The call of the context for a message. -/
theorem mailed_invoke {n : Nat} {w : Worker (Ptr U K)} {k : Kind} {message : Ptr U K} {c : ActorContext U K σ C}
    (act : mailStep cfg s (.worker n) = some s') (here : s.mailbox.calls[n]? = some w) (pc : w.pc = .invoke k message)
    (context : s.context = some c) :
    ∃ c', ActorContext.step cfg.props cfg.beh c (callOf k message) = some c' ∧ s'.context = some c' ∧ s'.handled = s.handled := by
  cases mailStep_cases act with
  | alone move noPost quiet => exact absurd pc (quiet n w c (.inl rfl) here context k message).1
  | call move there pc' context' called =>
    rw [here] at there
    cases there
    rw [pc] at pc'
    cases pc'
    rw [context] at context'
    cases context'
    exact ⟨_, called, rfl, rfl⟩
  | handled move acts there pc' context' =>
    rcases acts with same | same
    · cases same
      rw [here] at there
      cases there
      rw [pc] at pc'
      cases pc'
    · cases same

/-- The end of that call. -/
theorem mailed_invoking {n : Nat} {w : Worker (Ptr U K)} {k : Kind} {message : Ptr U K} {c : ActorContext U K σ C}
    {m : Interleaving.Label (Ptr U K)} (act : mailStep cfg s m = some s') (acts : m = .worker n ∨ m = .raise n)
    (here : s.mailbox.calls[n]? = some w) (pc : w.pc = .invoking k message) (context : s.context = some c) :
    s'.context = some c ∧ s'.handled = s.handled ++ [(k, message)] := by
  cases mailStep_cases act with
  | crash dispatching missing => exact acts.elim nofun nofun
  | alone move noPost quiet => exact absurd pc (quiet n w c acts here context k message).2
  | call move there pc' context' called =>
    rcases acts with same | same
    · cases same
      rw [here] at there
      cases there
      rw [pc] at pc'
      cases pc'
    · cases same
  | @handled _ n' w' k' message' c' mailbox move acts' there pc' context' =>
    have same : n' = n := by
      rcases acts with rfl | rfl <;> rcases acts' with same | same <;> cases same <;> rfl
    subst same
    rw [here] at there
    cases there
    rw [pc] at pc'
    cases pc'
    exact ⟨context, rfl⟩

/-- Whatever a step of the mailbox does, the context makes at most one step. -/
theorem mailed_context {m : Interleaving.Label (Ptr U K)} {c : ActorContext U K σ C} (act : mailStep cfg s m = some s')
    (context : s.context = some c) :
    (∃ c', s'.context = some c' ∧ (c' = c ∨ ∃ l, ActorContext.step cfg.props cfg.beh c l = some c')) ∧
    ∀ call ∈ s.handled, call ∈ s'.handled := by
  cases mailStep_cases act with
  | crash dispatching missing => exact ⟨⟨c, context, .inl rfl⟩, fun _ member => member⟩
  | alone move noPost quiet => exact ⟨⟨c, context, .inl rfl⟩, fun _ member => member⟩
  | call move here pc context' called =>
    rw [context] at context'
    cases context'
    exact ⟨⟨_, rfl, .inr ⟨_, called⟩⟩, fun _ member => member⟩
  | handled move acts here pc _ => exact ⟨⟨c, context, .inl rfl⟩, fun _ member => List.mem_append_left _ member⟩

/-! ## The way of Started -/

/-- The context has not been called. -/
structure Fresh (c : ActorContext U K σ C) : Prop where
  received : c.received = []
  idle : c.stack = []

/-- Nothing has been pushed yet. -/
structure Unpushed (s : Spawn.State P U K σ C) : Prop where
  box : s.mailbox.box = .new
  tasks : s.mailbox.scheduled = 0
  calls : s.mailbox.calls = []
  posts : ∀ c ∈ s.mailbox.posts, c.pc = .push
  started : ∀ p, s.spawner = .posting p → s.mailbox.posts[p]? = some (postOf .system startedEnvelope)
  made : s.context = none → s.spawner = .createContext ∨ s.spawner = .threw
  fresh : ∀ c, s.context = some c → Fresh c

/-- Without receiver middleware `Receive` has had `Started` first. -/
def OpenedIn (cfg : Spawner U K σ C) (s : Spawn.State P U K σ C) : Prop :=
  ∃ c, s.context = some c ∧ (cfg.props.receiverMiddlewareChain = none → c.Opened)

/-- How far `Started` has got, once pushed. -/
inductive Stage (cfg : Spawner U K σ C) (s : Spawn.State P U K σ C) : Prop where
  | queued (queued : Queued startedEnvelope s.mailbox) (fresh : ∃ c, s.context = some c ∧ Fresh c)
  | carried (carried : Carried startedEnvelope s.mailbox) (fresh : ∃ c, s.context = some c ∧ Fresh c)
  | running (running : Running startedEnvelope s.mailbox) (opened : OpenedIn cfg s)
  | through (handled : (.system, startedEnvelope) ∈ s.handled) (opened : OpenedIn cfg s)

/-- The invariant of the spawn. -/
structure Progress (cfg : Spawner U K σ C) (s : Spawn.State P U K σ C) : Prop where
  exclusive : Exclusive s.mailbox
  place : Unpushed s ∨ ((∃ p, s.spawner = .posting p) ∧ Stage cfg s)

theorem progress_start (r : ProcessRegistry P) : Progress cfg (start r) where
  exclusive := exclusive_init
  place := .inl ⟨rfl, rfl, rfl, nofun, nofun, fun _ => .inl rfl, nofun⟩

/-- The call for `Started` on a fresh context: its message is what `Receive` is given next. -/
theorem opened_call {c c' : ActorContext U K σ C} (fresh : Fresh c)
    (act : ActorContext.step cfg.props cfg.beh c (callOf .system startedEnvelope) = some c') : c'.Opened := by
  obtain ⟨received, idle⟩ := fresh
  simp only [callOf, ActorContext.step, idle] at act
  cases act
  exact .due received rfl rfl

/-- A step that makes no call and ends none. -/
theorem stage_calm {l : Interleaving.Label (Ptr U K)} (excl : Exclusive s.mailbox) (stage : Stage cfg s)
    (move : Interleaving.step cfg.dispatcher s.mailbox l = some s'.mailbox) (calm : Calm s.mailbox l)
    (context : s'.context = s.context) (handled : s'.handled = s.handled) : Stage cfg s' := by
  cases stage with
  | queued queued fresh =>
    rw [← context] at fresh
    rcases (queued_step queued move).2 with again | carried
    · exact .queued again fresh
    · exact .carried carried fresh
  | carried carried fresh =>
    rw [← context] at fresh
    rcases carried_step excl carried move with ⟨-, again⟩ | ⟨-, n, w, rfl, here, pc⟩
    · exact .carried again fresh
    · exact absurd pc (calm n w (.inl rfl) here _ _).1
  | running running opened =>
    have opened' : OpenedIn cfg s' := by rwa [OpenedIn, context]
    rcases running_step excl running move with ⟨-, again⟩ | ⟨n, w, acts, here, pc⟩
    · exact .running again opened'
    · exact absurd pc (calm n w acts here _ _).2
  | through past opened =>
    have opened' : OpenedIn cfg s' := by rwa [OpenedIn, context]
    exact .through (handled ▸ past) opened'

/-- Any step of the mailbox after the push of `Started`. -/
theorem stage_mail {l : Interleaving.Label (Ptr U K)} (excl : Exclusive s.mailbox) (stage : Stage cfg s)
    (act : mailStep cfg s l = some s') (move : Interleaving.step cfg.dispatcher s.mailbox l = some s'.mailbox) :
    Stage cfg s' := by
  cases stage with
  | queued queued fresh =>
    have calm := (queued_step queued move).1
    obtain ⟨context, handled⟩ := mailed_calm act calm
    exact stage_calm excl (.queued queued fresh) move calm context handled
  | carried carried fresh =>
    rcases carried_step excl carried move with ⟨calm, -⟩ | ⟨running, n, w, rfl, here, pc⟩
    · obtain ⟨context, handled⟩ := mailed_calm act calm
      exact stage_calm excl (.carried carried fresh) move calm context handled
    · obtain ⟨c, context, fresh⟩ := fresh
      obtain ⟨c', call, context', -⟩ := mailed_invoke act here pc context
      exact .running running ⟨c', context', fun _ => opened_call fresh call⟩
  | running running opened =>
    rcases running_step excl running move with ⟨calm, -⟩ | ⟨n, w, acts, here, pc⟩
    · obtain ⟨context, handled⟩ := mailed_calm act calm
      exact stage_calm excl (.running running opened) move calm context handled
    · obtain ⟨c, context, opened⟩ := opened
      obtain ⟨context', handled⟩ := mailed_invoking act acts here pc context
      exact .through (handled ▸ List.mem_append_right _ List.mem_cons_self) ⟨c, context', opened⟩
  | through past opened =>
    obtain ⟨c, context, opened⟩ := opened
    obtain ⟨⟨c', context', called⟩, kept⟩ := mailed_context act context
    refine .through (kept _ past) ⟨c', context', fun plain => ?_⟩
    rcases called with rfl | ⟨l, called⟩
    · exact opened plain
    · exact ActorContext.opened_step plain (opened plain) called

/-- The first push is the spawner's. -/
theorem unpushed_mail {l : Interleaving.Label (Ptr U K)} (unpushed : Unpushed s) (orderly : Orderly s (.mail l))
    (act : mailStep cfg s l = some s') (move : Interleaving.step cfg.dispatcher s.mailbox l = some s'.mailbox) :
    (∃ p, s.spawner = .posting p) ∧ Stage cfg s' := by
  obtain ⟨box, tasks, calls, posts, started, made, fresh⟩ := unpushed
  cases l with
  | post k message => exact absurd act (by simp [mailStep, Interleaving.step])
  | start => simp [Interleaving.step, tasks] at move
  | lose => simp [Interleaving.step, tasks] at move
  | worker n => simp [Interleaving.step, calls] at move
  | raise n => simp [Interleaving.step, calls] at move
  | poster n =>
    cases here : s.mailbox.posts[n]? with
    | none => simp [Interleaving.step, here] at move
    | some c =>
      have pc := posts c (List.mem_of_getElem? here)
      have own : s.spawner = .posting n := by
        rcases orderly n c rfl here pc with own | ⟨p, c', -, there, pushed⟩
        · exact own
        · exact absurd (posts c' (List.mem_of_getElem? there)) pushed
      have spawners := started n own
      rw [here] at spawners
      cases spawners
      obtain ⟨context, -⟩ := mailed_calm act fun _ _ acts => absurd acts (by simp)
      simp only [Interleaving.step, here, PostCall.step, postOf, box] at move
      have after := Option.some.inj move
      refine ⟨⟨n, own⟩, .queued ⟨⟨[], ?_⟩, ?_, ?_⟩ ?_⟩
      · rw [← after]
        rfl
      · rw [← after]
        rfl
      · rw [← after]
        exact fun w member => absurd (show w ∈ s.mailbox.calls from member) (by simp [calls])
      · cases made' : s.context with
        | none =>
          rcases made made' with pc | pc <;> (rw [own] at pc; cases pc)
        | some c => exact ⟨c, context.trans made', fresh c made'⟩

/-- A step of the spawner that leaves the mailbox alone. -/
theorem Unpushed.goes (unpushed : Unpushed s) (mailbox : s'.mailbox = s.mailbox) (context : s'.context ≠ none)
    (fresh : ∀ c, s'.context = some c → Fresh c) (spawner : ∀ p, s'.spawner ≠ .posting p) : Unpushed s' where
  box := mailbox ▸ unpushed.box
  tasks := mailbox ▸ unpushed.tasks
  calls := mailbox ▸ unpushed.calls
  posts := mailbox ▸ unpushed.posts
  started := fun p posting => absurd posting (spawner p)
  made := fun none => absurd none context
  fresh := fresh

/-- A post begins with its push. -/
theorem posted_push (posts : ∀ c ∈ s.mailbox.posts, c.pc = .push) (k : Kind) (message : Ptr U K) :
    ∀ c ∈ (s.post k message).mailbox.posts, c.pc = .push := pool_all_new posts rfl

theorem unpushed_spawner (unpushed : Unpushed s) (act : spawnerStep cfg s = some s') : Unpushed s' := by
  have same := unpushed
  obtain ⟨box, tasks, calls, posts, started, made, fresh⟩ := unpushed
  have context : s.spawner ≠ .createContext → s.spawner ≠ .threw → s.context ≠ none := fun new threw none =>
    (made none).elim new threw
  unfold spawnerStep at act
  split at act
  · split at act
    · cases act
      exact ⟨box, tasks, calls, posts, nofun, fun _ => .inr rfl, fresh⟩
    · cases act
      exact same.goes rfl nofun (fun c new => by cases new; exact ⟨rfl, rfl⟩) nofun
  · rename_i pc
    cases act
    exact ⟨rfl, rfl, rfl, nofun, nofun, fun none => absurd none (context (by simp [pc]) (by simp [pc])), fresh⟩
  · rename_i pc
    split at act <;> (cases act; exact same.goes rfl (context (by simp [pc]) (by simp [pc])) fresh nofun)
  · rename_i pc
    cases act
    refine same.goes rfl ?_ (fun c named => ?_) nofun
    · simpa using context (by simp [pc]) (by simp [pc])
    · obtain ⟨c₀, old, rfl⟩ := Option.map_eq_some_iff.1 named
      exact ⟨(fresh c₀ old).received, (fresh c₀ old).idle⟩
  · rename_i pc
    cases act
    exact same.goes rfl (context (by simp [pc]) (by simp [pc])) fresh nofun
  · rename_i pc
    cases act
    exact same.goes rfl (context (by simp [pc]) (by simp [pc])) fresh nofun
  · rename_i pc
    cases act
    refine ⟨box, tasks, calls, posted_push posts _ _, fun p posting => ?_,
      fun none => absurd none (context (by simp [pc]) (by simp [pc])), fresh⟩
    cases posting
    exact List.getElem?_concat_length
  · cases act
  · cases act
  · cases act

/-- Nobody holds the right of a mailbox nothing was pushed to. -/
theorem Unpushed.exclusive (unpushed : Unpushed s) : Exclusive s.mailbox := by
  have none : holders s.mailbox = 0 := by
    have posts : s.mailbox.posts.countP dispatching = 0 := by
      rw [List.countP_eq_zero]
      intro c member
      simp [dispatching, unpushed.posts c member]
    simp [holders, unpushed.tasks, unpushed.calls, posts]
  exact ⟨by omega, fun _ => none⟩

/-- What a step leaves alone when it only resolves a PID or crashes. -/
theorem Progress.same (progress : Progress cfg s) (spawner : s'.spawner = s.spawner) (context : s'.context = s.context)
    (mailbox : s'.mailbox = s.mailbox) (handled : s'.handled = s.handled) : Progress cfg s' := by
  obtain ⟨excl, place⟩ := progress
  refine ⟨mailbox ▸ excl, ?_⟩
  rw [spawner]
  rcases place with ⟨box, tasks, calls, posts, started, made, fresh⟩ | ⟨posting, stage⟩
  · left
    constructor <;> simpa only [spawner, context, mailbox]
  · refine .inr ⟨posting, ?_⟩
    cases stage with
    | queued queued fresh => exact .queued (mailbox ▸ queued) (context ▸ fresh)
    | carried carried fresh => exact .carried (mailbox ▸ carried) (context ▸ fresh)
    | running running opened => exact .running (mailbox ▸ running) (by rwa [OpenedIn, context])
    | through past opened => exact .through (handled ▸ past) (by rwa [OpenedIn, context])

theorem exclusive_post {k : Kind} {message : Ptr U K} (excl : Exclusive s.mailbox) :
    Exclusive (s.post k message).mailbox :=
  exclusive_keeps (h := ⟨0⟩) Machine.free _ (.post k (item message)) _ excl True.intro rfl

/-- After the push the spawner is inside its post. -/
theorem spawnerStep_posting {p : Nat} (posting : s.spawner = .posting p) : spawnerStep cfg s = none := by
  simp [spawnerStep, posting]

/-- A thread begins a post. -/
theorem progress_post (progress : Progress cfg s) (k : Kind) (message : Ptr U K) : Progress cfg (s.post k message) := by
  obtain ⟨excl, place⟩ := progress
  refine ⟨exclusive_post excl, place.imp ?_ ?_⟩
  · rintro ⟨box, tasks, calls, posts, started, made, fresh⟩
    exact ⟨box, tasks, calls, posted_push posts k message, fun p posting => pool_grow (started p posting) _, made, fresh⟩
  · rintro ⟨posting, stage⟩
    exact ⟨posting, stage_calm (l := .post k (item message)) excl stage rfl nofun rfl rfl⟩

/-- The context makes a step of a call. It is running one, so `Started` has been given to it. -/
theorem progress_run {c c' : ActorContext U K σ C} (progress : Progress cfg s) (context : s.context = some c)
    (call : ActorContext.step cfg.props cfg.beh c .run = some c') : Progress cfg { s with context := some c' } := by
  obtain ⟨excl, place⟩ := progress
  have busy : ∀ {c₀}, s.context = some c₀ → ¬ Fresh c₀ := by
    intro c₀ same fresh
    rw [context] at same
    cases same
    simp [ActorContext.step, fresh.idle] at call
  have opens : OpenedIn cfg s → OpenedIn cfg { s with context := some c' } := by
    rintro ⟨c₀, same, opened⟩
    rw [context] at same
    cases same
    exact ⟨c', rfl, fun plain => ActorContext.opened_step plain (opened plain) call⟩
  refine ⟨excl, .inr ?_⟩
  rcases place with unpushed | ⟨posting, stage⟩
  · exact absurd (unpushed.fresh c context) (busy context)
  · refine ⟨posting, ?_⟩
    cases stage with
    | queued queued fresh =>
      obtain ⟨c₀, same, fresh⟩ := fresh
      exact absurd fresh (busy same)
    | carried carried fresh =>
      obtain ⟨c₀, same, fresh⟩ := fresh
      exact absurd fresh (busy same)
    | running running opened => exact .running running (opens opened)
    | through past opened => exact .through past (opens opened)

/-- Every allowed step keeps track of `Started`. -/
theorem progress_keeps : Machine.Keeps (Spawn.step cfg) Orderly (Progress (P := P) cfg) := by
  intro s l s' progress orderly act
  have same := progress
  obtain ⟨excl, place⟩ := progress
  unfold Spawn.step at act
  split at act
  · cases act
  cases l with
  | spawner =>
    rcases place with unpushed | ⟨⟨p, posting⟩, -⟩
    · have unpushed' := unpushed_spawner unpushed act
      exact ⟨unpushed'.exclusive, .inl unpushed'⟩
    · rw [spawnerStep_posting posting] at act
      cases act
  | get pid =>
    cases act
    exact same.same rfl rfl rfl rfl
  | send n k message =>
    dsimp only at act
    split at act
    · cases act
    · cases act
      exact progress_post same k message
    · cases act
      exact same
  | mail m =>
    have facts := mailed act
    rcases facts.outcome with ⟨n, rfl, dispatching, missing, rfl⟩ | ⟨move, -, -⟩
    · exact same.same rfl rfl rfl rfl
    · refine ⟨exclusive_keeps (h := cfg.dispatcher) Machine.free _ m _ excl True.intro move, .inr ?_⟩
      rw [facts.spawner]
      rcases place with unpushed | ⟨posting, stage⟩
      · exact unpushed_mail unpushed orderly act move
      · exact ⟨posting, stage_mail excl stage act move⟩
  | run =>
    obtain ⟨c, context, act⟩ := Option.bind_eq_some_iff.1 act
    obtain ⟨c', call, rfl⟩ := Option.map_eq_some_iff.1 act
    exact progress_run same context call

/-- **Started comes first**, in every run in which no other post pushes before the spawner's:
`Receive` is given `Started` first, whatever middleware there is no user message is handed to
the context before `Started` has been processed. -/
theorem started_first {r : ProcessRegistry P} {ls : List (Spawn.Label U K)}
    (run : Machine.Run (Spawn.step cfg) Orderly (start r) ls s) :
    (cfg.props.receiverMiddlewareChain = none → StartedFirst s) ∧ UserAfter s := by
  have progress := run.keeps progress_keeps (progress_start r)
  rcases progress.place with ⟨box, -, -, -, -, -, fresh⟩ | ⟨-, stage⟩
  · refine ⟨fun _ c first context head => ?_, fun some => absurd (congrArg (fun b => b.user.invoked) box) some⟩
    simp [(fresh c context).received] at head
  · have early : ∀ {c}, s.context = some c → (∃ c, s.context = some c ∧ Fresh c) → c.received = [] := by
      rintro c context ⟨c₀, same, fresh⟩
      rw [context] at same
      cases same
      exact fresh.received
    have late : OpenedIn cfg s → cfg.props.receiverMiddlewareChain = none → StartedFirst s := by
      rintro ⟨c₀, same, opened⟩ plain c first context head
      rw [context] at same
      cases same
      exact (opened plain).first head
    cases stage with
    | queued queued fresh =>
      refine ⟨fun _ c first context head => ?_, fun some => absurd queued.untouched some⟩
      simp [early context fresh] at head
    | carried carried fresh =>
      refine ⟨fun _ c first context head => ?_, fun some => absurd carried.untouched some⟩
      simp [early context fresh] at head
    | running running opened => exact ⟨late opened, fun some => absurd running.untouched some⟩
    | through past opened => exact ⟨late opened, fun _ => past⟩

/-- `Orderly`, to be computed. -/
def orderly (s : Spawn.State P U K σ C) : Spawn.Label U K → Bool
  | .mail (.poster n) =>
    (s.mailbox.posts[n]?).all (fun c => c.pc ≠ .push) ||
      match s.spawner with
      | .posting p => p = n || (s.mailbox.posts[p]?).any fun c => c.pc ≠ .push
      | _ => false
  | _ => true

theorem orderly_of_check {l : Spawn.Label U K} (passed : orderly s l = true) : Orderly s l := by
  rintro n c rfl here pc
  simp only [orderly, here, Option.all_some, pc, ne_eq, not_true_eq_false, decide_false, Bool.false_or] at passed
  split at passed
  · rename_i p at_
    rcases Bool.or_eq_true_iff.1 passed with own | pushed
    · exact .inl (at_.trans (congrArg _ (of_decide_eq_true own)))
    · obtain ⟨c', there, past⟩ := Option.any_eq_true _ _ |>.1 pushed
      exact .inr ⟨p, c', at_, there, of_decide_eq_true past⟩
  · cases passed

/-- A user message is posted when `Started` has been and no worker has run yet; both are given to `Receive`. -/
def bothReceived : List (Spawn.Label Nat Nat) :=
  List.replicate 7 .spawner ++ List.replicate 4 (.mail (.poster 0)) ++ [.get (some idlePid), .send 0 .user (.user 5)] ++
    List.replicate 3 (.mail (.poster 1)) ++ .mail .start :: List.replicate 3 (.mail (.worker 0)) ++ List.replicate 3 .run ++
    List.replicate 6 (.mail (.worker 0)) ++ [.run]

theorem started_first_posted : ∃ s, Machine.Run (Spawn.step idleSpawner) Orderly (start emptyRegistry) bothReceived s ∧
    s.context.any (fun c => c.received.map Received.message = [.started, .user 5]) ∧ s.mailbox.box.user.invoked ≠ [] ∧
    (idleSpawner.props.receiverMiddlewareChain = none → StartedFirst s) ∧ UserAfter s := by
  obtain ⟨s, run, seen⟩ := Machine.checked_of_any
    (p := fun s : Spawn.State Unit Nat Nat Unit Unit =>
      s.context.any (fun c => c.received.map Received.message = [.started, .user 5]) && decide (s.mailbox.box.user.invoked ≠ []))
    (show (Machine.execChecked (Spawn.step idleSpawner) orderly bothReceived (start emptyRegistry)).any _ = true from rfl)
  obtain ⟨received, invoked⟩ := Bool.and_eq_true_iff.1 seen
  have allowed := run.mono fun _ _ passed => orderly_of_check passed
  exact ⟨s, allowed, received, of_decide_eq_true invoked, started_first allowed⟩

/-- A post between `RegisterHandlers` and the spawner's own: the worker it starts finds
nothing but the user message. -/
theorem user_comes_first : ¬ ∀ (ls : List (Spawn.Label Nat Nat)) (s : Spawn.State Unit Nat Nat Unit Unit),
    Machine.Run (Spawn.step idleSpawner) Machine.free (start emptyRegistry) ls s → StartedFirst s ∧ UserAfter s := by
  intro all
  have early : (Machine.exec (Spawn.step idleSpawner) (List.replicate 6 Label.spawner ++
      [Label.get (some idlePid), .send 0 .user (.user 5)] ++ List.replicate 4 (Label.mail (.poster 0)) ++
      Label.mail .start :: List.replicate 5 (.mail (.worker 0)) ++ [Label.run]) (start emptyRegistry)).map
      (fun s => s.context.map fun c => c.received.map Received.message) = some (some [.user 5]) := rfl
  obtain ⟨s, ran, received⟩ := Option.map_eq_some_iff.1 early
  obtain ⟨c, context, messages⟩ := Option.map_eq_some_iff.1 received
  obtain ⟨first, none, message⟩ := List.map_eq_singleton_iff.1 messages
  have started := (all _ s (Machine.free_of_exec ran)).1 c first context (by simp [none])
  rw [message] at started
  cases started

end Protoactor.Actor.Spawn
