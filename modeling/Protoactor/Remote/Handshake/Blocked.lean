import Protoactor.Remote.Handshake.Stale

/-!
# What a block list does (`blocklist.cpp`, `grpc_service.cpp`, `endpoint_writer.cpp`)

The list is looked at when a request is answered and at no other time. A member that is on it
before it calls never gets a batch through, and nobody is told (`refused_run`). A member that is
put on it later goes on as if it were not there (`block_late`).
-/

namespace Protoactor.Remote
set_option autoImplicit false
open Lib

variable {P M : Type} {env : Surroundings P M} {ends : Ends}

namespace Session

variable [DecidableEq P] {s s' t : Session P M} {ownBlockList blocked : BlockList} {labels : List (SessionLabel P M)}

/-- Only the receive thread publishes. -/
def Silent (s : Session P M) : Prop := s.loop = none → s.published = 0

/-- A step has to do with the receive thread, or it leaves it and the events alone. -/
theorem step_thread {label : SessionLabel P M} (h : step env ends s label = some s') :
    s'.loop = s.loop ∧ s'.published = s.published ∨ s'.loop ≠ none := by
  have on_call {call : Option Nat} {f : Call → Option Call} (h : s.onCall call f = some s') :
      s'.loop = s.loop ∧ s'.published = s.published := by
    rcases onCall_cases h with ⟨_, _, _, _, rfl⟩ | ⟨_, _, _, _, _, rfl⟩
    · exact ⟨rfl, rfl⟩
    · exact ⟨rfl, rfl⟩
  cases label with
  | response =>
    simp only [step] at h
    split at h
    · split at h <;> cases h
      · exact .inl ⟨rfl, rfl⟩
      · exact .inr fun h => by cases h
    · cases h
      exact .inl ⟨rfl, rfl⟩
    · cases h
  | deliver d =>
    simp only [step] at h
    split at h
    · cases h
      exact .inl ⟨(deliverStep_delivered env s d).loop, (deliverStep_delivered env s d).published⟩
    · cases h
  | loop =>
    simp only [step, loopStep] at h
    repeat' split at h
    all_goals
      cases h
      try exact .inr fun h => by cases h
  | serve call => exact .inl (on_call h)
  | cut call keepUp keepDown => exact .inl (on_call h)
  | opening succeeds =>
    simp only [step] at h
    split at h
    · cases succeeds <;> cases h <;> exact .inl ⟨rfl, rfl⟩
    · cases h
  | request =>
    simp only [step] at h
    split at h
    · split at h <;> cases h <;> exact .inl ⟨rfl, rfl⟩
    · cases h
  | connect | giveUp | disconnect | join =>
    simp only [step] at h
    split at h
    · cases h
      exact .inl ⟨rfl, rfl⟩
    · cases h
  | block memberIds | blockOwn memberIds =>
    cases h
    exact .inl ⟨rfl, rfl⟩

theorem silent_step : Machine.Keeps (step env ends) Machine.free (Silent (P := P) (M := M)) := by
  intro s label s' silent _ h none
  rcases step_thread h with ⟨thread, published⟩ | thread
  · exact published.trans (silent (thread ▸ none))
  · exact absurd none thread

/-- **A blocked member is kept out.** If the member is on the list before it calls, then in every
run the writer never connects and writes no batch, the service handles none, no event is published,
and the writer calls at most as often as it is configured to try. -/
theorem refused_run (h : Reached env ends ownBlockList blocked labels s) (member : ends.memberId ∈ blocked.blockedMembers) :
    s.writer.connected = false ∧ s.writer.wire = [] ∧ (∀ c ∈ s.earlier ++ s.current.toList, c.handled = []) ∧ s.published = 0 ∧
      s.calls ≤ env.config.maxRetryCount.toNat := by
  have inv := h.inv
  have waiting : Waiting s.writer s.loop s.current := by
    refine inv.here.waiting_or_through.resolve_right fun ⟨_, c, is, _, ⟨response, unblocked, read⟩, _⟩ => ?_
    exact (inv.current c is).allows read unblocked member
  have unhandled {c : Call} {allowed : Prop} (sound : c.Sound ends allowed) (quiet : c.batches = []) : c.handled = [] := by
    have short := sound.handled_short
    rwa [quiet, List.prefix_nil] at short
  refine ⟨waiting.unconnected, waiting.unwritten, fun c there => ?_, ?_, ?_⟩
  · rcases List.mem_append.1 there with old | new
    · exact unhandled (inv.earlier c old).1 (inv.earlier c old).2
    · have is := Option.mem_toList.1 new
      exact unhandled (inv.current c is) (waiting.quiet c is)
  · exact Machine.Run.keeps silent_step h (fun _ => rfl) waiting.threadless
  · have tries := (tries_run tries_start h).1
    unfold Tries at tries
    split at tries <;> omega

theorem refused_once :
    ∃ s, Reached onceEach pair .new (BlockList.new.blockOne "a") (answered ++ [.giveUp]) s ∧ s.place = .receiving ∧
      s.writer.connected = false ∧ s.published = 0 := by
  have ends_ : (Machine.exec (step onceEach pair) (answered ++ [SessionLabel.giveUp]) (start .new (BlockList.new.blockOne "a"))).any
      (fun s => decide (s.place = .receiving)) = true := by decide
  obtain ⟨s, run, there⟩ := Machine.run_of_any ends_
  obtain ⟨unconnected, _, _, silent, _⟩ := refused_run run (by decide)
  exact ⟨s, run, of_decide_eq_true there, unconnected, silent⟩

/-! ## After the handshake -/

/-- A label that is about a call the writer has given up. -/
def abandoned : SessionLabel P M → Bool
  | .serve (some _) | .cut (some _) _ _ => true
  | _ => false

/-- The same session over other block lists, and after other tries. -/
def Alike (s u : Session P M) : Prop :=
  ∃ earlier ownBlockList blockList, u = { s with earlier := earlier, ownBlockList := ownBlockList, blockList := blockList }

omit [DecidableEq P] in
/-- A call that was accepted has its request behind it: the block list is not looked at again. -/
theorem serve_through {c : Call} {allowed : Prop} (sound : c.Sound ends allowed) {response : ConnectResponse}
    (read : .connectResponse response ∈ c.down.read) (registry : SerializerRegistry M) (blockList blockList' : BlockList) :
    serve registry ends blockList c = serve registry ends blockList' c := by
  unfold serve
  split
  · rename_i reading
    split
    · rename_i message up popped
      rcases sound.next popped with ⟨first, _⟩ | ⟨_, batch, rfl⟩
      · -- nothing was read upwards, so nothing was answered
        have answers := sound.answers
        rw [reading] at answers
        obtain ⟨_, nothing⟩ | ⟨later, _⟩ := answers
        · have written := c.down.read_prefix.subset read
          rw [nothing] at written
          cases written
        · exact absurd first later
      · rfl
    · rfl
  · rfl
  · rfl

omit [DecidableEq P] in
/-- The receive thread knows the current call only. -/
theorem loopStep_alike (s : Session P M) (earlier : List Call) (ownBlockList blockList : BlockList) :
    ({ s with earlier := earlier, ownBlockList := ownBlockList, blockList := blockList } : Session P M).loopStep =
      s.loopStep.map fun s' => { s' with earlier := earlier, ownBlockList := ownBlockList, blockList := blockList } := by
  unfold loopStep
  cases s.loop with
  | none => rfl
  | some place =>
    cases place with
    | testing | leaving | lost | done => rfl
    | reading =>
      dsimp only
      split
      · rfl
      · split
        · split <;> rfl
        · rfl
        · rfl

omit [DecidableEq P] in
/-- So does a step in it. -/
theorem onCall_alike {f f' : Call → Option Call} {c : Call} (is : s.current = some c) (same : f' c = f c)
    (h : s.onCall none f = some s') (earlier : List Call) (ownBlockList blockList : BlockList) :
    ({ s with earlier := earlier, ownBlockList := ownBlockList, blockList := blockList } : Session P M).onCall none f' =
      some { s' with earlier := earlier, ownBlockList := ownBlockList, blockList := blockList } := by
  simp only [onCall, is, Option.bind_some] at h ⊢
  rw [same]
  obtain ⟨c', changed, rfl⟩ := Option.map_eq_some_iff.1 h
  rw [changed]
  rfl

/-- One step on either side. -/
theorem alike_step {u : Session P M} {label : SessionLabel P M} (inv : Inv ends blocked s) (settled : Settled s.place)
    (through : Through s.writer s.loop s.current) (alike : Alike s u) (h : step env ends s label = some s') :
    if abandoned label then Alike s' u else ∃ u', step env ends u label = some u' ∧ Alike s' u' := by
  obtain ⟨earlier, own, list, rfl⟩ := alike
  cases label with
  | deliver d =>
    simp only [step] at h
    split at h
    · rename_i receiving
      cases h
      refine ⟨_, if_pos receiving, earlier, own, list, ?_⟩
      unfold deliverStep close
      dsimp only
      split
      · rfl
      · split <;> rfl
    · cases h
  | disconnect =>
    simp only [step] at h
    split at h
    · rename_i receiving
      cases h
      exact ⟨_, if_pos receiving, earlier, own, list, rfl⟩
    · cases h
  | join =>
    simp only [step] at h
    split at h
    · rename_i closing
      cases h
      exact ⟨_, if_pos closing, earlier, own, list, rfl⟩
    · cases h
  | loop =>
    have taken : s.loopStep = some s' := h
    exact ⟨_, (loopStep_alike s earlier own list).trans (by rw [taken]; rfl), earlier, own, list, rfl⟩
  | serve call =>
    cases call with
    | none =>
      obtain ⟨_, c, is, _, ⟨response, _, read⟩, _⟩ := through
      exact ⟨_, onCall_alike is (serve_through (inv.current c is) read _ _ _) h earlier own list, earlier, own, list, rfl⟩
    | some i =>
      obtain ⟨c', _, rfl⟩ := Option.map_eq_some_iff.1 h
      exact ⟨earlier, own, list, rfl⟩
  | cut call keepUp keepDown =>
    cases call with
    | none =>
      obtain ⟨_, c, is, _⟩ := through
      exact ⟨_, onCall_alike is rfl h earlier own list, earlier, own, list, rfl⟩
    | some i =>
      obtain ⟨c', _, rfl⟩ := Option.map_eq_some_iff.1 h
      exact ⟨earlier, own, list, rfl⟩
  | block memberIds =>
    cases h
    exact ⟨_, rfl, earlier, own, _, rfl⟩
  | blockOwn memberIds =>
    cases h
    exact ⟨_, rfl, earlier, _, list, rfl⟩
  | opening succeeds | request | response | connect | giveUp => exact absurd settled ((step_moves h).unsettled rfl)

/-- A writer that is through stays so. -/
theorem through_step {label : SessionLabel P M} (inv : Inv ends blocked s) (settled : Settled s.place)
    (through : Through s.writer s.loop s.current) (h : step env ends s label = some s') :
    Settled s'.place ∧ Through s'.writer s'.loop s'.current := by
  have settled' : Settled s'.place := by
    cases step_moves h with
    | late _ _ there => exact there
    | stay _ place => exact place ▸ settled
    | opening here => exact absurd settled ((step_moves h).unsettled rfl)
    | failing trying here => exact absurd settled ((step_moves h).unsettled trying)
    | request here => exact absurd settled ((step_moves h).unsettled rfl)
    | response here => exact absurd settled ((step_moves h).unsettled rfl)
    | connect here => exact absurd settled ((step_moves h).unsettled rfl)
    | giveUp here => exact absurd settled ((step_moves h).unsettled rfl)
  refine ⟨settled', (inv_step s label s' inv trivial h).here.waiting_or_through.resolve_left fun waiting => ?_⟩
  rcases step_thread h with ⟨thread, _⟩ | thread
  · exact through.1 (thread ▸ waiting.threadless)
  · exact thread waiting.threadless

/-- **Blocking comes too late after the handshake.** Whatever can happen to a connection that was
accepted can happen as well when the member is then put on the list: the writer and the call go
through the same states. -/
theorem block_late (h : Reached env ends ownBlockList blocked labels s) (settled : Settled s.place)
    (accepted : s.loop ≠ none) {rest : List (SessionLabel P M)} (run : Machine.Run (step env ends) Machine.free s rest t)
    (memberIds : List String) :
    ∃ t', Machine.Run (step env ends) Machine.free { s with blockList := s.blockList.block memberIds }
        (rest.filter fun label => !abandoned label) t' ∧
      t'.writer = t.writer ∧ t'.current = t.current ∧ t'.place = t.place ∧ t'.loop = t.loop ∧ t'.published = t.published := by
  have through : Through s.writer s.loop s.current :=
    h.inv.here.waiting_or_through.resolve_left fun waiting => accepted waiting.threadless
  suffices ∀ u, Alike s u → ∃ t', Machine.Run (step env ends) Machine.free u (rest.filter fun label => !abandoned label) t' ∧
      Alike t t' by
    obtain ⟨t', run', _, _, _, rfl⟩ := this _ ⟨s.earlier, s.ownBlockList, s.blockList.block memberIds, rfl⟩
    exact ⟨_, run', rfl, rfl, rfl, rfl, rfl⟩
  have inv := h.inv
  clear h accepted
  induction run with
  | nil => exact fun u alike => ⟨u, .nil u, alike⟩
  | @cons s s' t label rest taken _ _ ih =>
    intro u alike
    obtain ⟨settled', through'⟩ := through_step inv settled through taken
    have ih := ih settled' through' (inv_step s label s' inv trivial taken)
    have one := alike_step inv settled through alike taken
    cases dropped : abandoned label with
    | true =>
      rw [dropped, if_pos rfl] at one
      rw [List.filter_cons_of_neg (by simp [dropped])]
      exact ih u one
    | false =>
      rw [dropped, if_neg nofun] at one
      obtain ⟨u', taken', alike'⟩ := one
      obtain ⟨t', run', alike''⟩ := ih u' alike'
      rw [List.filter_cons_of_pos (by simp [dropped])]
      exact ⟨t', .cons taken' trivial run', alike''⟩

/-- A member that is blocked once it is connected still gets its batch through. -/
theorem block_late_one :
    ∃ s t', Reached onceEach pair .new .new (answered ++ [.connect]) s ∧
      Machine.Run (step onceEach pair) Machine.free { s with blockList := s.blockList.block ["a"] } [.deliver oneByte, .serve none] t' ∧
      ∃ c, t'.current = some c ∧ c.handled.length = 1 := by
  have handles : (Machine.exec (step onceEach pair) (answered ++ SessionLabel.connect :: [.deliver oneByte, .serve none])
      (start .new .new)).any (fun s => s.current.any fun c => decide (c.handled.length = 1)) = true := by decide
  obtain ⟨t, run, there⟩ := Machine.run_of_any handles
  obtain ⟨u, s, first, connected, rest⟩ := Machine.Run.split run
  have reached : Reached onceEach pair .new .new (answered ++ [.connect]) s := first.append (.cons connected trivial (.nil _))
  have settled : Settled s.place ∧ s.loop ≠ none := by
    simp only [step] at connected
    split at connected
    · rename_i accepted
      cases connected
      have here := (Reached.inv first).here
      rw [accepted] at here
      exact ⟨trivial, here.1.1⟩
    · cases connected
  obtain ⟨t', run', _, current, _⟩ := block_late reached settled.1 settled.2 rest ["a"]
  refine ⟨s, t', reached, run', ?_⟩
  rw [current]
  obtain ⟨c, is, one⟩ := Option.any_eq_true _ _ |>.1 there
  exact ⟨c, is, of_decide_eq_true one⟩

end Session

end Protoactor.Remote
