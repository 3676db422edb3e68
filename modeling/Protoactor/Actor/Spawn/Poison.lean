import Protoactor.Actor.Context.Lifecycle
import Protoactor.Actor.Spawn.Calls.Records

/-!
# Poison (`src/actor/actor_context.cpp`)

`Poison` sends a `PoisonPill` behind the user messages that are waiting, and the actor is to stop
once it has processed those ("stop after processing current messages"). A comment in
`DefaultReceive` leaves the pill to `InvokeSystemMessage`, which never sees it, the pill
being a user message, and has no case for it. So the pill is given to `Receive` like any
other message, and the state stays. Only an actor that a `Stop` has reached in between behaves as
promised: after its messages and before the pill.
-/

namespace Protoactor.Actor.Spawn
set_option autoImplicit false
open Lib Interleaving

variable {P U K σ C : Type} {cfg : Spawner U K σ C}

/-- The first pill among the calls for user messages. -/
structure FirstPill (calls ahead : List (Call U K)) (pill : Call U K) (behind : List (Call U K)) : Prop where
  split : calls = ahead ++ pill :: behind
  pill : pill.message = .poisonPill
  first : ∀ call ∈ ahead, call.message ≠ .poisonPill

/-- **Poison drains, then stops**: the user messages are handed over as they were enqueued, `Receive`
gets those ahead of the pill, neither the pill nor one behind it, and once the call for the pill is over
the state is `STATE_STOPPED`. -/
structure DrainsThenStops (h : History P U K σ C) : Prop where
  inOrder : h.userCalls.map Call.message <+: h.enqueued
  drained : ∀ ahead pill behind, FirstPill h.userCalls ahead pill behind → ∀ call ∈ ahead, call.got
  neither : ∀ ahead pill behind, FirstPill h.userCalls ahead pill behind → ∀ call ∈ pill :: behind, ¬ call.got
  stopped : ∀ ahead pill behind, FirstPill h.userCalls ahead pill behind → pill.left.isSome →
    pill.left = some .stopped ∧ ∃ c, h.state.context = some c ∧ c.state = .stopped

/-- The call found an actor that was not stopped; receiver middleware, where there is any, has passed the
message on. -/
def Call.Reached (cfg : Spawner U K σ C) (call : Call U K) : Prop :=
  call.found ≠ .stopped ∧ call.actor = true ∧ (cfg.props.receiverMiddlewareChain.isSome → call.got)

/-- The first pill finds the actor stopped, and the messages ahead of it have reached one that was not; a
`Restart` does not come after a pill. -/
def Call.InTime (cfg : Spawner U K σ C) (h : History P U K σ C) (call : Call U K) : Prop :=
  (call.kind = .user → call.message = .poisonPill → (∀ earlier ∈ h.userCalls, earlier.message ≠ .poisonPill) →
    call.found = .stopped ∧ ∀ earlier ∈ h.userCalls, earlier.Reached cfg) ∧
  (call.kind = .system → ActorContext.actualMessage call.message = .restart → ∀ earlier ∈ h.userCalls, earlier.message ≠ .poisonPill)

/-- The step makes no call, or one that is in time. -/
def stoppedBetween (cfg : Spawner U K σ C) (h : History P U K σ C) (l : Spawn.Label U K) : Prop :=
  ∀ call ∈ making h.state l, call.InTime cfg h

section Decide

variable [DecidableEq U] [DecidableEq K]

instance (call : Call U K) : Decidable call.got := inferInstanceAs (Decidable (∃ r ∈ call.given, _))

instance (call : Call U K) : Decidable (call.Reached cfg) := inferInstanceAs (Decidable (_ ∧ _))

instance (h : History P U K σ C) (call : Call U K) : Decidable (call.InTime cfg h) := inferInstanceAs (Decidable (_ ∧ _))

instance (h : History P U K σ C) (l : Spawn.Label U K) : Decidable (stoppedBetween cfg h l) :=
  inferInstanceAs (Decidable (∀ call ∈ making h.state l, _))

end Decide

/-! ## The first pill -/

section Calls

variable {calls ahead ahead' behind behind' : List (Call U K)} {pill pill' call call' : Call U K}

theorem FirstPill.unique (one : FirstPill calls ahead pill behind) (other : FirstPill calls ahead' pill' behind') :
    ahead' = ahead ∧ pill' = pill ∧ behind' = behind := by
  induction ahead generalizing calls ahead' with
  | nil =>
    obtain ⟨split, isPill, -⟩ := one
    obtain ⟨split', -, first'⟩ := other
    subst split
    cases ahead' with
    | nil =>
      obtain ⟨rfl, rfl⟩ := List.cons.inj split'
      exact ⟨rfl, rfl, rfl⟩
    | cons a ahead' =>
      obtain ⟨rfl, -⟩ := List.cons.inj split'
      exact absurd isPill (first' _ List.mem_cons_self)
  | cons a ahead ih =>
    obtain ⟨split, isPill, first⟩ := one
    obtain ⟨split', isPill', first'⟩ := other
    subst split
    cases ahead' with
    | nil =>
      obtain ⟨rfl, -⟩ := List.cons.inj split'
      exact absurd isPill' (first _ List.mem_cons_self)
    | cons a' ahead' =>
      obtain ⟨rfl, rest⟩ := List.cons.inj split'
      have shorter : FirstPill (ahead ++ pill :: behind) ahead pill behind :=
        ⟨rfl, isPill, fun call member => first call (List.mem_cons_of_mem _ member)⟩
      have later := ih shorter ⟨rest, isPill', fun call member => first' call (List.mem_cons_of_mem _ member)⟩
      exact ⟨by rw [later.1], later.2⟩

/-- How far the calls are: no pill yet, or a pill ahead of which all messages were received and from
which on every call found the actor stopped. -/
inductive Phase (calls : List (Call U K)) : Prop where
  | before (none : ∀ call ∈ calls, call.message ≠ .poisonPill)
  | after {ahead behind : List (Call U K)} {pill : Call U K} (first : FirstPill calls ahead pill behind)
      (got : ∀ call ∈ ahead, call.got) (found : ∀ call ∈ pill :: behind, call.found = .stopped)

/-- The call that is running hears something, or ends. -/
theorem Phase.last (phase : Phase (calls ++ [call])) (message : call'.message = call.message) (found : call'.found = call.found) :
    Phase (calls ++ [call']) := by
  cases phase with
  | before none =>
    refine .before fun other member => ?_
    rcases List.mem_append.1 member with old | new
    · exact none other (List.mem_append_left _ old)
    · rw [List.mem_singleton.1 new, message]
      exact none call (List.mem_append_right _ List.mem_cons_self)
  | @after ahead behind pill first got stopped =>
    obtain ⟨split, isPill, first⟩ := first
    rcases List.eq_nil_or_concat behind with rfl | ⟨behind, last, rfl⟩
    · obtain ⟨rfl, same⟩ := List.append_inj' split rfl
      obtain rfl : call = pill := (List.cons.inj same).1
      refine .after ⟨rfl, message.trans isPill, first⟩ got fun other member => ?_
      rw [List.mem_singleton.1 member, found]
      exact stopped call List.mem_cons_self
    · rw [List.concat_eq_append, ← List.cons_append, ← List.append_assoc] at split
      obtain ⟨rfl, same⟩ := List.append_inj' split rfl
      obtain rfl : call = last := (List.cons.inj same).1
      have longer : FirstPill (ahead ++ pill :: behind ++ [call']) ahead pill (behind ++ [call']) := ⟨by simp, isPill, first⟩
      refine .after longer got fun other member => ?_
      rw [← List.cons_append] at member
      rcases List.mem_append.1 member with old | new
      · exact stopped other (by simp only [List.concat_eq_append, ← List.cons_append]; exact List.mem_append_left _ old)
      · rw [List.mem_singleton.1 new, found]
        exact stopped call (by simp)

/-- Another call is made. -/
theorem Phase.snoc (phase : Phase calls) (own : call.message = .poisonPill → (∀ earlier ∈ calls, earlier.message ≠ .poisonPill) →
      call.found = .stopped ∧ ∀ earlier ∈ calls, earlier.got)
    (later : (∃ earlier ∈ calls, earlier.message = .poisonPill) → call.found = .stopped) : Phase (calls ++ [call]) := by
  cases phase with
  | before none =>
    by_cases isPill : call.message = .poisonPill
    · obtain ⟨found, got⟩ := own isPill none
      refine .after ⟨rfl, isPill, none⟩ got fun other member => ?_
      rw [List.mem_singleton.1 member]
      exact found
    · refine .before fun other member => ?_
      rcases List.mem_append.1 member with old | new
      · exact none other old
      · rw [List.mem_singleton.1 new]
        exact isPill
  | @after ahead behind pill first got stopped =>
    obtain ⟨rfl, isPill, first⟩ := first
    have longer : FirstPill (ahead ++ pill :: behind ++ [call]) ahead pill (behind ++ [call]) := ⟨by simp, isPill, first⟩
    refine .after longer got fun other member => ?_
    rw [← List.cons_append] at member
    rcases List.mem_append.1 member with old | new
    · exact stopped other old
    · rw [List.mem_singleton.1 new]
      exact later ⟨pill, by simp, isPill⟩

end Calls

/-! ## The runs -/

section Runs

variable {h h' : History P U K σ C} {l : Spawn.Label U K} {call : Call U K}

/-- A pill has been handed over. -/
def Pilled (h : History P U K σ C) : Prop := ∃ call ∈ h.userCalls, call.message = .poisonPill

/-- The actor is stopped, and no restart is under way. -/
def Halted (s : Spawn.State P U K σ C) : Prop := ∃ c, s.context = some c ∧ c.state = .stopped ∧ Plain c.stack

structure Poisoned (h : History P U K σ C) : Prop where
  phase : Phase h.userCalls
  halted : Pilled h → Halted h.state

/-- What the record of a call for a user message says. -/
theorem Recorded.userCall (recorded : Recorded cfg h) (member : call ∈ h.userCalls) :
    (∀ state, call.left = some state → state = call.found) ∧ (call.found = .stopped → call.given = []) ∧
      (call.actor = false → call.given = []) ∧ (call.left.isSome → Done cfg call) := by
  obtain ⟨place, done, -⟩ := recorded
  obtain ⟨member, user⟩ := List.mem_filter.1 member
  have user : call.kind = .user := by simpa using user
  rcases List.mem_append.1 member with old | new
  · have own := done call old user
    refine ⟨fun state left => ?_, own.dropped, own.nobody, fun _ => own⟩
    exact Option.some.inj (left.symm.trans own.left)
  · have running : h.running = some call := by simpa using new
    cases place with
    | between none => rw [none] at running; cases running
    | within running' here pc context unfinished during =>
      cases running'.symm.trans running
      have own := during user
      refine ⟨fun state left => ?_, fun stopped => (own.dropped stopped).2, fun absent => (own.nobody absent).2, fun some => ?_⟩
      · rw [unfinished] at left
        cases left
      · rw [unfinished] at some
        cases some

/-- A call that was made before the one that is running is over. -/
theorem Recorded.ended (recorded : Recorded cfg h) (none : h.running = none) (member : call ∈ h.userCalls) : Done cfg call := by
  obtain ⟨member, user⟩ := List.mem_filter.1 member
  refine recorded.done call ?_ (by simpa using user)
  simpa [none] using member

/-- Then it was received, where nothing was in the way. -/
theorem Done.got (done : Done cfg call) (reached : call.Reached cfg) : call.got := by
  obtain ⟨live, actor, passed⟩ := reached
  cases chain : cfg.props.receiverMiddlewareChain with
  | none => exact done.taken live actor chain
  | some middleware => exact passed (by rw [chain]; rfl)

theorem Poisoned.found {c : ActorContext U K σ C} (poisoned : Poisoned h) (context : h.state.context = some c) (pilled : Pilled h) :
    c.state = .stopped := by
  obtain ⟨c₀, there, state, -⟩ := poisoned.halted pilled
  cases context.symm.trans there
  exact state

section Call

variable {s : Spawn.State P U K σ C} {message : Ptr U K} {c c' : ActorContext U K σ C}

/-- `InvokeUserMessage` is called, in time. -/
theorem poisoned_user (recorded : Recorded cfg h) (poisoned : Poisoned h) (none : h.running = none) (idle : c.stack = [])
    (inTime : Call.InTime cfg h ⟨.user, message, c.state, c.actor, [], Option.none⟩) (context : h.state.context = some c)
    (called : ActorContext.step cfg.props cfg.beh c (.user message) = some c') (context' : s.context = some c') :
    Poisoned ⟨s, h.ended, some ⟨.user, message, c.state, c.actor, [], Option.none⟩⟩ := by
  obtain ⟨first, -⟩ := inTime
  have users : History.userCalls ⟨s, h.ended, some ⟨.user, message, c.state, c.actor, [], Option.none⟩⟩ =
      h.userCalls ++ [⟨.user, message, c.state, c.actor, [], Option.none⟩] := by
    rw [userCalls_snoc]
    simp only [History.userCalls, none, if_true]
  constructor
  case phase =>
    rw [users]
    refine poisoned.phase.snoc (fun isPill earlier => ?_) (poisoned.found context)
    obtain ⟨found, reached⟩ := first rfl isPill earlier
    exact ⟨found, fun call member => (recorded.ended none member).got (reached call member)⟩
  case halted =>
    rintro ⟨call, member, isPill⟩
    rw [users] at member
    have found : c.state = .stopped := by
      by_cases pilled : Pilled h
      · exact poisoned.found context pilled
      · rcases List.mem_append.1 member with old | new
        · exact absurd ⟨call, old, isPill⟩ pilled
        · cases List.mem_singleton.1 new
          exact (first rfl isPill fun earlier old same => pilled ⟨earlier, old, same⟩).1
    simp only [ActorContext.step, idle, ActorContext.invokeUserMessage, found, if_true, Option.some.injEq] at called
    subst called
    exact ⟨c, context', found, plain_of_idle idle⟩

/-- `InvokeSystemMessage` is called, in time. -/
theorem poisoned_system (poisoned : Poisoned h) (none : h.running = none) (idle : c.stack = [])
    (inTime : Call.InTime cfg h ⟨.system, message, c.state, c.actor, [], Option.none⟩) (context : h.state.context = some c)
    (called : ActorContext.step cfg.props cfg.beh c (.system message) = some c') (context' : s.context = some c') :
    Poisoned ⟨s, h.ended, some ⟨.system, message, c.state, c.actor, [], Option.none⟩⟩ := by
  obtain ⟨-, restart⟩ := inTime
  have users : History.userCalls ⟨s, h.ended, some ⟨.system, message, c.state, c.actor, [], Option.none⟩⟩ = h.userCalls := by
    rw [userCalls_snoc, if_neg nofun, List.append_nil]
    simp only [History.userCalls, none]
  constructor
  case phase => exact users ▸ poisoned.phase
  case halted =>
    rintro ⟨call, member, isPill⟩
    rw [users] at member
    have other : ActorContext.actualMessage message ≠ .restart := fun same => restart rfl same call member isPill
    have invoked : c.invokeSystemMessage cfg.beh message = some c' := (ActorContext.returned_of_system called).2
    have plain : Plain c.stack := plain_of_idle idle
    exact ⟨c', context', ActorContext.steady_system (poisoned.found context ⟨call, member, isPill⟩) plain other invoked⟩

end Call

theorem Poisoned.of_same (poisoned : Poisoned h) (users : h'.userCalls = h.userCalls) (halted : Halted h.state → Halted h'.state) :
    Poisoned h' where
  phase := users ▸ poisoned.phase
  halted := fun ⟨call, member, isPill⟩ => halted (poisoned.halted ⟨call, users ▸ member, isPill⟩)

/-- The running call hears something, or leaves. -/
theorem Poisoned.last {state s : Spawn.State P U K σ C} {ended : List (Call U K)} {call' : Call U K}
    (poisoned : Poisoned ⟨state, ended, some call⟩) (kind : call'.kind = call.kind) (message : call'.message = call.message)
    (found : call'.found = call.found) (halted : Halted state → Halted s) : Poisoned ⟨s, ended, some call'⟩ := by
  have pilled : Pilled ⟨s, ended, some call'⟩ → Pilled (⟨state, ended, some call⟩ : History P U K σ C) := by
    rintro ⟨other, member, isPill⟩
    have named := List.mem_map_of_mem (f := Call.message) member
    rw [messages_running (s := state) kind message, isPill] at named
    obtain ⟨other', member', isPill'⟩ := List.mem_map.1 named
    exact ⟨other', member', isPill'⟩
  obtain ⟨phase, stops⟩ := poisoned
  refine ⟨?_, fun is => halted (stops (pilled is))⟩
  rw [userCalls_snoc] at phase ⊢
  rw [kind]
  by_cases user : call.kind = .user
  · rw [if_pos user] at phase ⊢
    exact phase.last message found
  · rw [if_neg user] at phase ⊢
    exact phase

theorem halted_run {s : Spawn.State P U K σ C} {c c' : ActorContext U K σ C} (context : h.state.context = some c)
    (act : ActorContext.step cfg.props cfg.beh c .run = some c') (context' : s.context = some c') (halted : Halted h.state) :
    Halted s := by
  obtain ⟨c₀, there, stopped, plain⟩ := halted
  cases context.symm.trans there
  obtain ⟨state, plain'⟩ := ActorContext.steady_run plain act
  exact ⟨c', context', state.trans stopped, plain'⟩

theorem poisoned_moved (sound : Sound h.state) (recorded : Recorded cfg h) (poisoned : Poisoned h)
    (between : stoppedBetween cfg h l) (moved : Moved cfg h l h') : Poisoned h' := by
  cases moved with
  | aside unmoved renamed fresh =>
    refine poisoned.of_same rfl ?_
    rintro ⟨c, context, stopped, plain⟩
    obtain ⟨c', context', self, rfl⟩ := renamed c context
    exact ⟨_, context', stopped, plain⟩
  | @call s n w k message c c' here pc move context called context' made =>
    obtain ⟨none, idle⟩ := recorded.place.calm sound.exclusive here pc
    cases k with
    | user => exact poisoned_user recorded poisoned none (idle c context) (between _ made) context called context'
    | system => exact poisoned_system poisoned none (idle c context) (between _ made) context called context'
  | @run s c c' context act context' mailbox =>
    obtain ⟨state, ended, running⟩ := h
    cases running with
    | none => exact poisoned.of_same rfl (halted_run context act context')
    | some call => exact poisoned.last rfl rfl rfl (halted_run context act context')
  | @leave s m n w k message c acts here pc move context idle context' =>
    obtain ⟨state, ended, running⟩ := h
    have halted : Halted state → Halted s := by
      rintro ⟨c₀, there, stopped, plain⟩
      cases context.symm.trans there
      exact ⟨c, context', stopped, plain⟩
    cases running with
    | none => exact poisoned.of_same (by simp [History.userCalls]) halted
    | some call =>
      have left : Poisoned ⟨s, ended, some { call with left := some c.state }⟩ := poisoned.last rfl rfl rfl halted
      exact left.of_same (userCalls_over s s ended _) id

theorem poisoned_keeps : Machine.Keeps (History.step cfg) (stoppedBetween cfg)
    fun h : History P U K σ C => (Sound h.state ∧ Recorded cfg h) ∧ Poisoned h := by
  refine (recorded_keeps.mono fun _ _ _ => True.intro).with ?_
  rintro h l h' ⟨sound, recorded⟩ poisoned between next
  exact poisoned_moved sound recorded poisoned between (moved sound next)

theorem poisoned_begin (r : ProcessRegistry P) : Poisoned (History.begin r : History P U K σ C) where
  phase := .before nofun
  halted := fun ⟨_, member, _⟩ => nomatch member

theorem inOrder_of_recorded (sound : Sound h.state) (recorded : Recorded cfg h) : h.userCalls.map Call.message <+: h.enqueued := by
  rw [recorded.messages]
  exact (sound.lanes.2 .user).invoked

theorem drains_of_poisoned (sound : Sound h.state) (recorded : Recorded cfg h) (poisoned : Poisoned h) : DrainsThenStops h := by
  have phase : ∀ ahead pill behind, FirstPill h.userCalls ahead pill behind →
      (∀ call ∈ ahead, call.got) ∧ ∀ call ∈ pill :: behind, call.found = .stopped := by
    intro ahead pill behind first
    cases poisoned.phase with
    | before none => exact absurd first.pill (none pill (by rw [first.split]; simp))
    | after first' got found =>
      obtain ⟨rfl, rfl, rfl⟩ := first'.unique first
      exact ⟨got, found⟩
  constructor
  case inOrder => exact inOrder_of_recorded sound recorded
  case drained => exact fun ahead pill behind first => (phase ahead pill behind first).1
  case neither =>
    intro ahead pill behind first call member got
    have here : call ∈ h.userCalls := by
      rw [first.split]
      exact List.mem_append_right _ member
    have nothing := (recorded.userCall here).2.1 ((phase ahead pill behind first).2 call member)
    obtain ⟨r, heard, -⟩ := got
    rw [nothing] at heard
    cases heard
  case stopped =>
    intro ahead pill behind first isOver
    have here : pill ∈ h.userCalls := by
      rw [first.split]
      simp
    obtain ⟨state, left⟩ := Option.isSome_iff_exists.1 isOver
    have same := (recorded.userCall here).1 state left
    obtain ⟨c, context, stopped, -⟩ := poisoned.halted ⟨pill, here, first.pill⟩
    refine ⟨?_, c, context, stopped⟩
    rw [left, same, (phase ahead pill behind first).2 pill List.mem_cons_self]

/-- Nothing less would do. -/
theorem reached_of_drains (recorded : Recorded cfg h) (drains : DrainsThenStops h) {ahead behind : List (Call U K)} {pill : Call U K}
    (first : FirstPill h.userCalls ahead pill behind) (isOver : pill.left.isSome) :
    pill.found = .stopped ∧ ∀ call ∈ ahead, call.Reached cfg := by
  constructor
  · have here : pill ∈ h.userCalls := by
      rw [first.split]
      simp
    exact ((recorded.userCall here).1 .stopped (drains.stopped ahead pill behind first isOver).1).symm
  · intro call member
    have here : call ∈ h.userCalls := by
      rw [first.split]
      exact List.mem_append_left _ member
    obtain ⟨-, dropped, nobody, -⟩ := recorded.userCall here
    have got := drains.drained ahead pill behind first call member
    have some : call.given ≠ [] := by
      obtain ⟨r, heard, -⟩ := got
      exact List.ne_nil_of_mem heard
    refine ⟨fun stopped => some (dropped stopped), ?_, fun _ => got⟩
    cases actor : call.actor with
    | true => rfl
    | false => exact absurd (nobody actor) some

/-- **Poison drains, then stops** in every run in which a `Stop` has come in between: when the first pill
is handed over the actor is stopped, and it was not for the messages ahead, and no `Restart`
comes later. Where the call for a pill is over and all went well, the first part was so. -/
theorem drains_then_stops {r : ProcessRegistry P} :
    (∀ ls h, Machine.Run (History.step cfg) (stoppedBetween cfg) (History.begin r) ls h → DrainsThenStops h) ∧
    ∀ ls h, Machine.Run (History.step cfg) Machine.free (History.begin r) ls h → DrainsThenStops h →
      ∀ ahead pill behind, FirstPill h.userCalls ahead pill behind → pill.left.isSome →
        pill.found = .stopped ∧ ∀ call ∈ ahead, call.Reached cfg := by
  constructor
  · intro ls h run
    obtain ⟨⟨sound, recorded⟩, poisoned⟩ := run.keeps poisoned_keeps ⟨⟨sound_start r, recorded_begin r⟩, poisoned_begin r⟩
    exact drains_of_poisoned sound recorded poisoned
  · intro ls h run drains ahead pill behind first isOver
    obtain ⟨-, recorded⟩ := run.keeps recorded_keeps ⟨sound_start r, recorded_begin r⟩
    exact reached_of_drains recorded drains first isOver

end Runs

/-- A post that finds the mailbox being processed. -/
def posted (n : Nat) (k : Kind) (message : Ptr Nat Nat) : List (Spawn.Label Nat Nat) :=
  .send 0 k message :: List.replicate 3 (.mail (.poster n))

/-- A message and a pill are posted to a new actor, and its worker has processed the message. -/
def pillNext : List (Spawn.Label Nat Nat) :=
  List.replicate 7 .spawner ++ [.get (some idlePid)] ++ List.replicate 4 (.mail (.poster 0)) ++ posted 1 .user (.user 5) ++
    posted 2 .user .poisonPill ++ [.mail .start] ++ List.replicate 3 (.mail (.worker 0)) ++ List.replicate 3 .run ++
    List.replicate 6 (.mail (.worker 0)) ++ List.replicate 3 .run ++ [.mail (.worker 0)]

/-- A `Stop` overtakes the pill. -/
theorem drains_then_stops_overtaken : ∃ h : History Unit Nat Nat Unit Unit,
    Machine.Run (History.step idleSpawner) (stoppedBetween idleSpawner) (History.begin emptyRegistry)
      (pillNext ++ posted 3 .system .stop ++ List.replicate 10 (.mail (.worker 0))) h ∧
    h.userCalls.map Call.message = [.user 5, .poisonPill] ∧ DrainsThenStops h := by
  have checked : (Machine.execChecked (History.step idleSpawner) (fun h l => decide (stoppedBetween idleSpawner h l))
      (pillNext ++ posted 3 .system .stop ++ List.replicate 10 (Label.mail (.worker 0))) (History.begin emptyRegistry)).map
      (fun h => h.userCalls.map Call.message) = some [.user 5, .poisonPill] := rfl
  obtain ⟨h, ran, messages⟩ := Option.map_eq_some_iff.1 checked
  have run := Machine.run_of_execChecked ran
  simp only [decide_eq_true_eq] at run
  exact ⟨h, run, messages, drains_then_stops.1 _ h run⟩

/-- Nobody stops the actor: `Receive` gets the pill, and the actor stays alive. -/
theorem not_drains_then_stops : ∃ ls, ∃ h : History Unit Nat Nat Unit Unit,
    Machine.Run (History.step idleSpawner) Machine.free (History.begin emptyRegistry) ls h ∧ ¬ DrainsThenStops h := by
  have live : (Machine.exec (History.step idleSpawner)
      (pillNext ++ List.replicate 5 (Label.mail (.worker 0)) ++ List.replicate 3 Label.run ++ [Label.mail (.worker 0)])
      (History.begin emptyRegistry)).map
      History.userCalls = some [⟨.user, .user 5, .alive, true, [⟨.user 5, none, none⟩], some .alive⟩,
        ⟨.user, .poisonPill, .alive, true, [⟨.poisonPill, none, none⟩], some .alive⟩] := rfl
  obtain ⟨h, ran, calls⟩ := Option.map_eq_some_iff.1 live
  refine ⟨_, h, Machine.free_of_exec ran, fun drains => ?_⟩
  have first : FirstPill h.userCalls [⟨.user, .user 5, .alive, true, [⟨.user 5, none, none⟩], some .alive⟩]
      ⟨.user, .poisonPill, .alive, true, [⟨.poisonPill, none, none⟩], some .alive⟩ [] := ⟨calls, rfl, by simp⟩
  exact drains.neither _ _ _ first _ List.mem_cons_self ⟨_, List.mem_cons_self, rfl⟩

end Protoactor.Actor.Spawn
