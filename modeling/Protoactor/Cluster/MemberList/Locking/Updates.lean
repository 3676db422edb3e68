import Protoactor.Cluster.MemberList.Locking.Discipline

/-!
# Updates and their subscribers

Careful runs never make a thread wait for itself, and each step of the thread that has the mutex
is paid for by the weight of its stack. Any other step is a self-deadlock.
-/

namespace Protoactor.Cluster.MemberList.Locking
set_option autoImplicit false
open Lib

variable {s s' : State} {l : Label} {i : Nat}

/-! ## Progress -/

/-- The steps that are left to the thread while it has the mutex. -/
def State.remaining (s : State) (i : Nat) : Nat := if s.owner = some i then weight (s.threads i) else 0

theorem remaining_owner (own : s.owner = some i) : s.remaining i = weight (s.threads i) := if_pos own

theorem remaining_other (other : s.owner ≠ some i) : s.remaining i = 0 := if_neg other

/-- A step pays for itself. -/
structure Paid (s : State) (i : Nat) (l : Label) (s' : State) : Prop where
  less : (if l.actor = some i then 1 else 0) + s'.remaining i ≤ s.remaining i
  inside : s'.owner = some i → ¬ s'.Entered i

/-- Nothing happens to the thread and to its mutex. -/
theorem paid_other (own : s.owner = some i) (inside : ¬ s.Entered i) (actor : l.actor ≠ some i) (owner : s'.owner = s.owner)
    (same : s'.threads i = s.threads i) : Paid s i l s' where
  less := by
    rw [if_neg actor, remaining_owner own, remaining_owner (owner.trans own), same]
    omega
  inside _ entered := by
    unfold State.Entered at inside entered
    rw [same] at entered
    exact inside entered

/-- The thread's own step. -/
theorem paid_own {stack : List Frame} (own : s.owner = some i) (actor : l.actor = some i) (less : weight stack < weight (s.threads i))
    (threads : s'.threads i = stack) (kept : s'.owner = some i → ∀ op below, stack ≠ .body op :: below) : Paid s i l s' where
  less := by
    rw [if_pos actor, remaining_owner own]
    by_cases own' : s'.owner = some i
    · rw [remaining_owner own', threads]
      omega
    · rw [remaining_other own']
      omega
  inside own' := by
    rintro ⟨op, below, top⟩
    exact kept own' op below (threads.symm.trans top)

theorem not_body {above below stack : List Frame} {topology : Option ClusterTopology} {op : Op} (loose : Loose above) :
    above ++ .unlock topology :: below ≠ .body op :: stack := by
  intro same
  cases above with
  | nil => cases same
  | cons top above =>
    cases same
    cases (List.forall_mem_cons.1 loose).1

/-- What catches an exception is code. -/
theorem unwind_not_body {stack below : List Frame} {op : Op} : unwind stack ≠ .body op :: below := by
  intro caught
  have code := List.head?_dropWhile_not (fun frame => !frame.code) stack
  unfold unwind at caught
  rw [caught] at code
  cases code

theorem paid (disciplined : Disciplined s) (own : s.owner = some i) (inside : ¬ s.Entered i) (silent : l.actor = some i → l.calls = false)
    (act : step s l = some s') : Paid s i l s' := by
  have mine : ∀ {j}, s.owner = some j → j = i := fun own' => Option.some.inj (own'.symm.trans own)
  cases stepped act with
  | subscribed subscribers => exact paid_other own inside (fun same => by cases same) rfl rfl
  | @called j call code =>
    have differ : j ≠ i := by
      rintro rfl
      cases silent rfl
    exact paid_other own inside (fun same => differ (Option.some.inj same)) rfl (threads_put_other differ.symm _ _)
  | locked top free => cases free.symm.trans own
  | @entered j op below top =>
    cases mine (disciplined.holds top (fun op' same => by cases same) rfl)
    exact absurd ⟨op, below, top⟩ inside
  | @unlocked j topology below top =>
    cases mine (disciplined.holds top (fun op same => by cases same) rfl)
    refine paid_own own rfl ?_ (threads_put_self _ _ _) fun none => by cases none
    rw [top, weight_cons, Frame.weight]
    omega
  | @moved _ j frame below frames actor returns top kind loose less =>
    by_cases same : j = i
    · subst same
      have holding := disciplined.owner j own
      rw [top] at holding
      refine paid_own own actor ?_ (threads_put_self _ _ _) fun _ op rest => ?_
      · rw [top, weight_cons, weight_append]
        omega
      · rcases holding_cons holding with ⟨op, rfl, -⟩ | ⟨topology, rfl, -⟩ | ⟨-, above, topology, below', rfl, above_loose, -⟩
        · cases kind
        · cases kind
        · rw [← List.append_assoc]
          exact not_body (List.forall_mem_append.2 ⟨loose, above_loose⟩)
    · refine paid_other own inside ?_ rfl (threads_put_other (Ne.symm same) _ _)
      rw [actor]
      exact fun equal => same (Option.some.inj equal)
  | @thrown j frame below top code =>
    have kind := loose_of_code code
    have light := weight_unwind below
    by_cases same : j = i
    · subst same
      refine paid_own own rfl ?_ (threads_put_self _ _ _) fun _ op rest => unwind_not_body
      have some : 0 < frame.weight := by
        cases frame with
        | lock op | body op => cases kind
        | unlock topology | publish subs | predicate subs | handler => simp [Frame.weight]
      rw [top, weight_cons]
      omega
    · have waiting := disciplined.others j fun own' => same (mine own')
      rw [top] at waiting
      rcases waiting_cons waiting with ⟨op, rfl, -⟩ | ⟨-, loose⟩
      · cases kind
      · refine paid_other own inside (fun equal => same (Option.some.inj equal)) ?_ (threads_put_other (Ne.symm same) _ _)
        simp [State.throw, State.put, (unwind_loose loose).2]

/-- Where the thread has the mutex and its code makes no calls, the steps are careful. -/
theorem careful_of_silent (own : s.owner = some i) (silent : l.actor = some i → l.calls = false) : careful s l = true := by
  cases l with
  | call j call =>
    have differ : s.owner ≠ some j := by
      intro own'
      cases silent (congrArg some (Option.some.inj (own'.symm.trans own)))
    simp [careful, differ]
  | subscribers | run | answer | finish | throw => rfl

theorem bounded_run {ls : List Label} (disciplined : Disciplined s) (inside : s.owner = some i → ¬ s.Entered i)
    (run : Machine.Run step (fun t l => t.owner = some i ∧ (l.actor = some i → l.calls = false)) s ls s') :
    ls.countP (·.actor = some i) + s'.remaining i ≤ s.remaining i := by
  induction run with
  | nil => simp
  | @cons s s₁ s' l ls act allowed _ ih =>
    have here := paid disciplined allowed.1 (inside allowed.1) allowed.2 act
    have later := ih (disciplined_keeps _ _ _ disciplined (careful_of_silent allowed.1 allowed.2) act) here.inside
    have less := here.less
    rw [List.countP_cons]
    simp only [decide_eq_true_eq]
    omega

/-- The event stream and its subscribers wait for nobody. -/
theorem loose_moves {frame : Frame} {below : List Frame} (top : s.threads i = frame :: below) (loose : frame.loose = true) :
    ∃ l : Label, l.actor = some i ∧ l.calls = false ∧ (step s l).isSome := by
  cases frame with
  | lock op | body op | unlock topology => cases loose
  | publish subs =>
    refine ⟨.run i, rfl, rfl, ?_⟩
    simp only [step, top]
    cases subs with
    | nil => rfl
    | cons sub subs =>
      simp only [State.run]
      split <;> rfl
  | predicate subs =>
    refine ⟨.answer i true, rfl, rfl, ?_⟩
    simp only [step, top]
    rfl
  | handler =>
    refine ⟨.finish i, rfl, rfl, ?_⟩
    simp only [step, top]
    rfl

theorem unlock_not_loose {stack : List Frame} {topology : Option ClusterTopology} (loose : Loose stack) : Frame.unlock topology ∉ stack := by
  intro member
  cases loose _ member

/-- The lock guard of `UpdateTopology` is there while the list is that of its topology. -/
theorem Disciplined.sees {topology : ClusterTopology} (disciplined : Disciplined s) (inside : Frame.unlock (some topology) ∈ s.threads i) :
    s.list.members = topology.members := by
  by_cases own : s.owner = some i
  · have holding := disciplined.owner i own
    generalize s.threads i = stack at inside holding
    cases holding with
    | entered loose =>
      rcases List.mem_cons.1 inside with same | below
      · cases same
      · exact absurd below (unlock_not_loose loose)
    | inside above above_loose below_loose new =>
      rcases List.mem_append.1 inside with before | rest
      · exact absurd before (unlock_not_loose above_loose)
      · rcases List.mem_cons.1 rest with same | below
        · cases same
          exact new topology rfl
        · exact absurd below (unlock_not_loose below_loose)
  · have waiting := disciplined.others i own
    generalize s.threads i = stack at inside waiting
    cases waiting with
    | running loose => exact absurd inside (unlock_not_loose loose)
    | locking loose =>
      rcases List.mem_cons.1 inside with same | below
      · cases same
      · exact absurd below (unlock_not_loose loose)

theorem Disciplined.completes (disciplined : Disciplined s) : Completes s where
  free := by
    rintro i ⟨own, op, below, top⟩
    have holding := disciplined.owner i own
    rw [top] at holding
    rcases holding_cons holding with ⟨op', same, -⟩ | ⟨topology, same, -⟩ | ⟨kind, -⟩
    · cases same
    · cases same
    · cases kind
  sees i topology inside := disciplined.sees inside
  moves := by
    intro i busy
    obtain ⟨frame, below, top⟩ := List.exists_cons_of_ne_nil busy
    by_cases other : ∃ j, j ≠ i ∧ s.owner = some j
    · exact .inl other
    · right
      by_cases own : s.owner = some i
      · have holding := disciplined.owner i own
        rw [top] at holding
        rcases holding_cons holding with ⟨op, rfl, -⟩ | ⟨topology, rfl, -⟩ | ⟨kind, -⟩
        · exact ⟨.run i, rfl, rfl, by simp [step, top, State.run]⟩
        · exact ⟨.run i, rfl, rfl, by simp [step, top, State.run]⟩
        · exact loose_moves top kind
      · have waiting := disciplined.others i own
        rw [top] at waiting
        have free : s.owner = none := Option.eq_none_iff_forall_ne_some.2 fun j own' => other ⟨j, fun same => own (same ▸ own'), own'⟩
        rcases waiting_cons waiting with ⟨op, rfl, -⟩ | ⟨kind, -⟩
        · exact ⟨.run i, rfl, rfl, by simp [step, top, State.run, free]⟩
        · exact loose_moves top kind
  ends := by
    intro i own inside
    refine ⟨s.remaining i, fun ls s' run => ?_⟩
    have bound := bounded_run disciplined (fun _ => inside) run
    omega

/-- **Updates complete** in every run whose steps are careful; a step that is not careful deadlocks its
thread at once. -/
theorem updates_complete {members : List Member} {subscribers : List Subscriber} {ls : List Label}
    (run : Machine.Run step (fun s l => careful s l = true) (start members subscribers) ls s) :
    Completes s ∧ ∀ l s', step s l = some s' → careful s l = false → ∃ i, s'.SelfDeadlock i := by
  have disciplined := run.keeps disciplined_keeps (disciplined_start members subscribers)
  refine ⟨disciplined.completes, fun l s' act careless => ?_⟩
  cases l with
  | subscribers | run | answer | finish | throw => cases careless
  | call i call =>
    have facts : s.owner = some i ∧ call.op.isSome = true := by simpa [careful] using careless
    cases stepped act with
    | called call code =>
      rcases frames_cases call s.subscribers with ⟨none, -⟩ | ⟨op, -, frames⟩
      · rw [none] at facts
        cases facts.2
      · refine ⟨i, facts.1, op, s.threads i, ?_⟩
        rw [threads_put_self, frames]
        rfl
    | moved frames actor returns => cases returns

/-- A topology of one member. -/
def alone : ClusterTopology := ⟨[⟨"a", "host", 1, []⟩], [], []⟩

/-- A subscriber that returns and one that throws. -/
theorem updates_complete_two : ∃ s, Machine.Run step (fun s l => careful s l = true) (start [] [⟨true⟩, ⟨false⟩])
      [.call 0 (.updateTopology (some alone)), .run 0, .run 0, .run 0, .answer 0 true, .finish 0, .run 0, .throw 0] s ∧
    Completes s ∧ ∀ l s', step s l = some s' → careful s l = false → ∃ i, s'.SelfDeadlock i := by
  have run : ∃ s, Machine.Run step (fun s l => careful s l = true) (start [] [⟨true⟩, ⟨false⟩])
      [.call 0 (.updateTopology (some alone)), .run 0, .run 0, .run 0, .answer 0 true, .finish 0, .run 0, .throw 0] s :=
    ⟨_, Machine.run_of_execChecked rfl⟩
  obtain ⟨s, run⟩ := run
  exact ⟨s, run, updates_complete run⟩

/-- A handler that reads the members. -/
theorem not_updates_complete : ¬ ∀ (ls : List Label) (s : State), Machine.Run step Machine.free (start [] [⟨false⟩]) ls s → Completes s := by
  intro all
  have reading : ∃ s, Machine.exec step [.call 0 (.updateTopology (some alone)), .run 0, .run 0, .run 0, .call 0 .getMembers]
      (start [] [⟨false⟩]) = some s ∧ s.SelfDeadlock 0 := ⟨_, rfl, rfl, _, _, rfl⟩
  obtain ⟨s, ran, deadlock⟩ := reading
  exact (all _ s (Machine.free_of_exec ran)).free 0 deadlock

end Protoactor.Cluster.MemberList.Locking
