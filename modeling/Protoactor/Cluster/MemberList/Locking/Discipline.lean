import Mathlib.Algebra.GroupWithZero.Nat
import Mathlib.Data.List.Basic
import Protoactor.Cluster.MemberList.Locking

/-!
# Who is inside of the member list

In a careful run the stack of the thread that holds the mutex has one lock guard, with nothing but
loops and code of others above and below it. The other threads have no lock guard; one of them may
be about to make one.
-/

namespace Protoactor.Cluster.MemberList.Locking
set_option autoImplicit false
open Lib

/-- A frame of the event stream or of its subscribers, which needs no mutex. -/
def Frame.loose : Frame → Bool
  | .publish _ | .predicate _ | .handler => true
  | _ => false

abbrev Loose (stack : List Frame) : Prop := ∀ frame ∈ stack, frame.loose = true

/-- A bound for the steps that a frame takes if no code calls. -/
def Frame.weight : Frame → Nat
  | .lock _ | .body _ => 0
  | .unlock _ | .handler => 1
  | .publish subs => 3 * subs.length + 1
  | .predicate subs => 3 * subs.length + 3

def weight (stack : List Frame) : Nat := (stack.map Frame.weight).sum

/-- The stack of the thread that holds the mutex. -/
inductive Holding (list : MemberList) : List Frame → Prop where
  | entered {op : Op} {below : List Frame} (loose : Loose below) : Holding list (.body op :: below)
  | inside (above : List Frame) {below : List Frame} {topology : Option ClusterTopology} (above_loose : Loose above) (below_loose : Loose below)
      (new : ∀ t, topology = some t → list.members = t.members) : Holding list (above ++ .unlock topology :: below)

/-- The stack of any other thread. -/
inductive Waiting : List Frame → Prop where
  | running {stack : List Frame} (loose : Loose stack) : Waiting stack
  | locking {op : Op} {below : List Frame} (loose : Loose below) : Waiting (.lock op :: below)

structure Disciplined (s : State) : Prop where
  owner : ∀ i, s.owner = some i → Holding s.list (s.threads i)
  others : ∀ i, s.owner ≠ some i → Waiting (s.threads i)

section Stacks

variable {list : MemberList} {frame : Frame} {frames above below stack : List Frame} {topology : Option ClusterTopology}

theorem loose_of_code (code : frame.code = true) : frame.loose = true := by
  cases frame with
  | lock op | body op | unlock topology | publish subs => cases code
  | predicate subs | handler => rfl

/-- What is on top of the owner's stack. -/
theorem holding_cons (holding : Holding list (frame :: below)) :
    (∃ op, frame = .body op ∧ Loose below) ∨ (∃ topology, frame = .unlock topology ∧ Loose below) ∨
      (frame.loose = true ∧ ∃ above topology below', below = above ++ .unlock topology :: below' ∧ Loose above ∧ Loose below' ∧
        ∀ t, topology = some t → list.members = t.members) := by
  generalize whole : frame :: below = stack at holding
  cases holding with
  | entered loose =>
    cases whole
    exact .inl ⟨_, rfl, loose⟩
  | @inside above below' topology above_loose below_loose new =>
    cases above with
    | nil =>
      cases whole
      exact .inr (.inl ⟨topology, rfl, below_loose⟩)
    | cons top above =>
      cases whole
      have parts := List.forall_mem_cons.1 above_loose
      exact .inr (.inr ⟨parts.1, above, topology, below', rfl, parts.2, below_loose, new⟩)

/-- Other loose frames in the place of one. -/
theorem Holding.replace (holding : Holding list (frame :: below)) (top : frame.loose = true) (loose : Loose frames) :
    Holding list (frames ++ below) := by
  rcases holding_cons holding with ⟨op, rfl, -⟩ | ⟨topology, rfl, -⟩ | ⟨-, above, topology, below', rfl, above_loose, below_loose, new⟩
  · cases top
  · cases top
  · rw [← List.append_assoc]
    exact .inside (frames ++ above) (List.forall_mem_append.2 ⟨loose, above_loose⟩) below_loose new

/-- Loose frames on top of the lock guard, by a call of code. -/
theorem Holding.push (holding : Holding list stack) (code : stack.head?.all Frame.code = true) (loose : Loose frames) :
    Holding list (frames ++ stack) := by
  cases stack with
  | nil =>
    generalize none : ([] : List Frame) = stack at holding
    cases holding with
    | entered => cases none
    | @inside above => cases above <;> cases none
  | cons top below =>
    have top_loose := loose_of_code (show top.code = true from code)
    have grown := holding.replace top_loose (List.forall_mem_append.2 ⟨loose, List.forall_mem_singleton.2 top_loose⟩)
    rwa [List.append_assoc, List.singleton_append] at grown

theorem waiting_cons (waiting : Waiting (frame :: below)) : (∃ op, frame = .lock op ∧ Loose below) ∨ (frame.loose = true ∧ Loose below) := by
  cases waiting with
  | running loose => exact .inr (List.forall_mem_cons.1 loose)
  | locking loose => exact .inl ⟨_, rfl, loose⟩

theorem Waiting.replace (waiting : Waiting (frame :: below)) (top : frame.loose = true) (loose : Loose frames) : Waiting (frames ++ below) := by
  rcases waiting_cons waiting with ⟨op, rfl, -⟩ | ⟨-, rest⟩
  · cases top
  · exact .running (List.forall_mem_append.2 ⟨loose, rest⟩)

/-- A thread whose code can call has no lock guard on top. -/
theorem Waiting.loose (waiting : Waiting stack) (code : stack.head?.all Frame.code = true) : Loose stack := by
  cases waiting with
  | running loose => exact loose
  | locking => cases code

/-! ## Exceptions -/

theorem unwind_cons_code (code : frame.code = true) : unwind (frame :: below) = frame :: below ∧ unlocks (frame :: below) = false := by
  simp [unwind, unlocks, code]

theorem unwind_loose (loose : Loose stack) : Loose (unwind stack) ∧ unlocks stack = false := by
  refine ⟨fun frame member => loose frame ((List.dropWhile_sublist _).subset member), ?_⟩
  refine List.any_eq_false.2 fun frame member => ?_
  have kind := loose frame ((List.takeWhile_sublist _).subset member)
  cases frame with
  | lock op | body op | unlock topology => cases kind
  | publish subs | predicate subs | handler => simp

/-- An exception above a lock guard is caught there, or passes it. -/
theorem unwind_guard (above_loose : Loose above) (below_loose : Loose below) (new : ∀ t, topology = some t → list.members = t.members) :
    (unlocks (above ++ .unlock topology :: below) = false ∧ Holding list (unwind (above ++ .unlock topology :: below))) ∨
      (unlocks (above ++ .unlock topology :: below) = true ∧ Loose (unwind (above ++ .unlock topology :: below))) := by
  induction above with
  | nil =>
    refine .inr ⟨by simp [unlocks, Frame.code], ?_⟩
    have later := (unwind_loose below_loose).1
    exact later
  | cons top above ih =>
    obtain ⟨kind, above_loose'⟩ := List.forall_mem_cons.1 above_loose
    cases code : top.code with
    | true =>
      rw [List.cons_append, (unwind_cons_code code).1, (unwind_cons_code code).2]
      exact .inl ⟨rfl, .inside (top :: above) above_loose below_loose new⟩
    | false =>
      have skip : unwind (top :: (above ++ .unlock topology :: below)) = unwind (above ++ .unlock topology :: below) := by
        simp [unwind, code]
      have same : unlocks (top :: (above ++ .unlock topology :: below)) = unlocks (above ++ .unlock topology :: below) := by
        cases top with
        | lock op | body op | unlock topology => cases kind
        | predicate subs | handler => cases code
        | publish subs => simp [unlocks, Frame.code]
      rw [List.cons_append, skip, same]
      exact ih above_loose'

theorem weight_cons : weight (frame :: below) = frame.weight + weight below := by
  simp [weight]

theorem weight_append : weight (frames ++ below) = weight frames + weight below := by
  simp [weight]

theorem weight_unwind (stack : List Frame) : weight (unwind stack) ≤ weight stack := by
  induction stack with
  | nil => exact Nat.le_refl 0
  | cons frame below ih =>
    cases code : frame.code with
    | true => rw [(unwind_cons_code code).1]
    | false =>
      have skip : unwind (frame :: below) = unwind below := by simp [unwind, code]
      rw [skip, weight_cons]
      omega

end Stacks

/-! ## What a step can do -/

variable {s s' : State} {l : Label}

@[simp] theorem threads_put_self (i : Nat) (stack : List Frame) (s : State) : (s.put i stack).threads i = stack := if_pos rfl

theorem threads_put_other {i j : Nat} (differ : j ≠ i) (stack : List Frame) (s : State) : (s.put i stack).threads j = s.threads j := if_neg differ

inductive Stepped (s : State) : Label → State → Prop where
  | subscribed (subscribers : List Subscriber) : Stepped s (.subscribers subscribers) { s with subscribers := subscribers }
  | called {i : Nat} (call : Call) (code : (s.threads i).head?.all Frame.code = true) :
      Stepped s (.call i call) (s.put i (call.frames s.subscribers ++ s.threads i))
  | locked {i : Nat} {op : Op} {below : List Frame} (top : s.threads i = .lock op :: below) (free : s.owner = none) :
      Stepped s (.run i) ({ s with owner := some i }.put i (.body op :: below))
  | entered {i : Nat} {op : Op} {below : List Frame} (top : s.threads i = .body op :: below) : Stepped s (.run i) (s.body i below op)
  | unlocked {i : Nat} {topology : Option ClusterTopology} {below : List Frame} (top : s.threads i = .unlock topology :: below) :
      Stepped s (.run i) ({ s with owner := none }.put i below)
  /-- a step of the event stream or of its subscribers, paid for by the frame on top -/
  | moved {l : Label} {i : Nat} {frame : Frame} {below : List Frame} (frames : List Frame) (actor : l.actor = some i) (returns : l.calls = false)
      (top : s.threads i = frame :: below) (kind : frame.loose = true) (loose : Loose frames) (less : weight frames < frame.weight) :
      Stepped s l (s.put i (frames ++ below))
  | thrown {i : Nat} {frame : Frame} {below : List Frame} (top : s.threads i = frame :: below) (code : frame.code = true) :
      Stepped s (.throw i) (s.throw i below)

theorem loose_publish (subs : List Subscriber) : Loose [.publish subs] := List.forall_mem_singleton.2 rfl

theorem loose_handler (subs : List Subscriber) : Loose [.handler, .publish subs] := List.forall_mem_cons.2 ⟨rfl, loose_publish subs⟩

theorem weight_publish (subs : List Subscriber) : weight [.publish subs] = 3 * subs.length + 1 := rfl

theorem weight_handler (subs : List Subscriber) : weight [.handler, .publish subs] = 3 * subs.length + 2 := by
  rw [weight_cons, weight_publish, Frame.weight]
  omega

theorem stepped_run {i : Nat} {frame : Frame} {below : List Frame} (top : s.threads i = frame :: below)
    (act : s.run i frame below = some s') : Stepped s (.run i) s' := by
  cases frame with
  | lock op =>
    simp only [State.run] at act
    split at act
    · cases act
    · next free =>
      cases act
      exact .locked top (by simpa using free)
  | body op =>
    cases act
    exact .entered top
  | unlock topology =>
    cases act
    exact .unlocked top
  | publish subs =>
    cases subs with
    | nil =>
      cases act
      exact .moved [] rfl rfl top rfl (List.forall_mem_nil _) (by decide)
    | cons sub subs =>
      simp only [State.run] at act
      split at act
      · cases act
        refine .moved [Frame.predicate subs] rfl rfl top rfl (List.forall_mem_singleton.2 rfl) ?_
        simp only [weight, Frame.weight, List.map_cons, List.map_nil, List.sum_cons, List.sum_nil, List.length_cons]
        omega
      · cases act
        refine .moved [Frame.handler, Frame.publish subs] rfl rfl top rfl (loose_handler subs) ?_
        rw [weight_handler, Frame.weight, List.length_cons]
        omega
  | predicate subs | handler => cases act

theorem stepped (act : step s l = some s') : Stepped s l s' := by
  cases l with
  | subscribers subscribers =>
    cases act
    exact .subscribed subscribers
  | call i call =>
    simp only [step] at act
    split at act
    · next code =>
      cases act
      exact .called call code
    · cases act
  | run i =>
    simp only [step] at act
    split at act
    · next frame below top => exact stepped_run top act
    · cases act
  | answer i accepts =>
    simp only [step] at act
    split at act
    · next subs below top =>
      cases act
      cases accepts with
      | true =>
        refine .moved [Frame.handler, Frame.publish subs] rfl rfl top rfl (loose_handler subs) ?_
        rw [weight_handler, Frame.weight]
        omega
      | false =>
        refine .moved [Frame.publish subs] rfl rfl top rfl (loose_publish subs) ?_
        rw [weight_publish, Frame.weight]
        omega
    · cases act
  | finish i =>
    simp only [step] at act
    split at act
    · next below top =>
      cases act
      exact .moved [] rfl rfl top rfl (List.forall_mem_nil _) (by decide)
    · cases act
  | throw i =>
    simp only [step] at act
    split at act
    · next frame below top =>
      split at act
      · next code =>
        cases act
        exact .thrown top code
      · cases act
    · cases act

/-! ## The invariant -/

/-- The owner, the thread that becomes it or the one that is it no more gets another stack. -/
theorem Disciplined.holder {i : Nat} {list : MemberList} {owner : Option Nat} {stack : List Frame} {answers : List (Nat × Answer)}
    (disciplined : Disciplined s) (holds : s.owner = none ∨ s.owner = some i)
    (next : owner = some i ∧ Holding list stack ∨ owner = none ∧ Waiting stack) :
    Disciplined ({ s with list := list, owner := owner, answers := answers }.put i stack) := by
  have rest : ∀ j, j ≠ i → Waiting (s.threads j) := by
    intro j differ
    refine disciplined.others j fun own => ?_
    rcases holds with free | own'
    · rw [free] at own
      cases own
    · exact differ (Option.some.inj (own.symm.trans own'))
  constructor
  · intro j own
    rcases next with ⟨mine, holding⟩ | ⟨free, -⟩
    · have same : j = i := Option.some.inj (own.symm.trans mine)
      rw [same, threads_put_self]
      exact holding
    · cases own.symm.trans free
  · intro j other
    by_cases same : j = i
    · rw [same, threads_put_self]
      rcases next with ⟨mine, -⟩ | ⟨-, waiting⟩
      · exact absurd (mine.trans (congrArg some same.symm)) other
      · exact waiting
    · rw [threads_put_other same]
      exact rest j same

/-- A thread's stack changes and the mutex stays where it is. -/
theorem Disciplined.keeps {i : Nat} {stack : List Frame} (disciplined : Disciplined s)
    (own : s.owner = some i → Holding s.list stack) (other : s.owner ≠ some i → Waiting stack) : Disciplined (s.put i stack) := by
  constructor
  · intro j holds
    by_cases same : j = i
    · subst same
      rw [threads_put_self]
      exact own holds
    · rw [threads_put_other same]
      exact disciplined.owner j holds
  · intro j waits
    by_cases same : j = i
    · subst same
      rw [threads_put_self]
      exact other waits
    · rw [threads_put_other same]
      exact disciplined.others j waits

theorem disciplined_start (members : List Member) (subscribers : List Subscriber) : Disciplined (start members subscribers) where
  owner i own := by cases own
  others i _ := .running (List.forall_mem_nil _)

/-- A thread about to release the mutex, or inside of it, has it. -/
theorem Disciplined.holds {i : Nat} {frame : Frame} {below : List Frame} (disciplined : Disciplined s)
    (top : s.threads i = frame :: below) (inner : ∀ op, frame ≠ .lock op) (strict : frame.loose = false) : s.owner = some i := by
  by_contra other
  have waiting := disciplined.others i other
  rw [top] at waiting
  rcases waiting_cons waiting with ⟨op, same, -⟩ | ⟨loose, -⟩
  · exact inner op same
  · exact Bool.false_ne_true (strict.symm.trans loose)

/-- A call begins with a lock guard, or with nothing that needs the mutex. -/
theorem frames_cases (call : Call) (subs : List Subscriber) :
    (call.op = none ∧ Loose (call.frames subs)) ∨ ∃ op, call.op = some op ∧ call.frames subs = [.lock op] := by
  cases call with
  | getMembers | getMember memberId => exact .inr ⟨_, rfl, rfl⟩
  | updateTopology topology =>
    cases topology with
    | none => exact .inl ⟨rfl, List.forall_mem_nil _⟩
    | some topology => exact .inr ⟨_, rfl, rfl⟩
  | publish => exact .inl ⟨rfl, loose_publish subs⟩

theorem disciplined_call {i : Nat} {call : Call} (disciplined : Disciplined s) (allowed : careful s (.call i call) = true)
    (code : (s.threads i).head?.all Frame.code = true) : Disciplined (s.put i (call.frames s.subscribers ++ s.threads i)) := by
  refine disciplined.keeps (fun own => ?_) fun other => ?_
  · rcases frames_cases call s.subscribers with ⟨-, loose⟩ | ⟨op, locks, -⟩
    · exact (disciplined.owner i own).push code loose
    · simp [careful, own, locks] at allowed
  · have below := (disciplined.others i other).loose code
    rcases frames_cases call s.subscribers with ⟨-, loose⟩ | ⟨op, -, frames⟩
    · exact .running (List.forall_mem_append.2 ⟨loose, below⟩)
    · rw [frames]
      exact .locking below

theorem disciplined_body {i : Nat} {op : Op} {below : List Frame} (disciplined : Disciplined s) (top : s.threads i = .body op :: below) :
    Disciplined (s.body i below op) := by
  have own := disciplined.holds top (fun op' same => by cases same) rfl
  have holding := disciplined.owner i own
  rw [top] at holding
  rcases holding_cons holding with ⟨op', -, loose⟩ | ⟨topology, same, -⟩ | ⟨kind, -⟩
  · cases op with
    | getMembers | getMember memberId =>
      exact disciplined.holder (.inr own) (.inl ⟨own, .inside [] (List.forall_mem_nil _) loose fun t none => by cases none⟩)
    | updateTopology topology =>
      refine disciplined.holder (.inr own) (.inl ⟨own, .inside [Frame.publish s.subscribers] (loose_publish _) loose ?_⟩)
      rintro t ⟨⟩
      rfl
  · cases same
  · cases kind

theorem disciplined_throw {i : Nat} {frame : Frame} {below : List Frame} (disciplined : Disciplined s) (top : s.threads i = frame :: below)
    (code : frame.code = true) : Disciplined (s.throw i below) := by
  have kind := loose_of_code code
  by_cases own : s.owner = some i
  · have holding := disciplined.owner i own
    rw [top] at holding
    rcases holding_cons holding with ⟨op, rfl, -⟩ | ⟨topology, rfl, -⟩ | ⟨-, above, topology, below', rfl, above_loose, below_loose, new⟩
    · cases kind
    · cases kind
    · refine disciplined.holder (.inr own) ?_
      rcases unwind_guard above_loose below_loose new with ⟨kept, holding⟩ | ⟨released, loose⟩
      · rw [kept]
        exact .inl ⟨own, holding⟩
      · rw [released]
        exact .inr ⟨rfl, .running loose⟩
  · have waiting := disciplined.others i own
    rw [top] at waiting
    rcases waiting_cons waiting with ⟨op, rfl, -⟩ | ⟨-, loose⟩
    · cases kind
    · obtain ⟨rest, kept⟩ := unwind_loose loose
      rw [State.throw, kept]
      exact disciplined.keeps (fun mine => absurd mine own) fun _ => .running rest

theorem disciplined_keeps : Machine.Keeps step (fun s l => careful s l = true) Disciplined := by
  intro s l s' disciplined allowed act
  cases stepped act with
  | subscribed subscribers => exact ⟨disciplined.owner, disciplined.others⟩
  | called call code => exact disciplined_call disciplined allowed code
  | @locked i op below top free =>
    have waiting := disciplined.others i (by rw [free]; exact fun own => by cases own)
    rw [top] at waiting
    rcases waiting_cons waiting with ⟨op', -, loose⟩ | ⟨kind, -⟩
    · exact disciplined.holder (.inl free) (.inl ⟨rfl, .entered loose⟩)
    · cases kind
  | entered top => exact disciplined_body disciplined top
  | @unlocked i topology below top =>
    have own := disciplined.holds top (fun op same => by cases same) rfl
    have holding := disciplined.owner i own
    rw [top] at holding
    rcases holding_cons holding with ⟨op, same, -⟩ | ⟨topology', -, loose⟩ | ⟨kind, -⟩
    · cases same
    · exact disciplined.holder (.inr own) (.inr ⟨rfl, .running loose⟩)
    · cases kind
  | @moved _ i frame below frames actor returns top kind loose less =>
    refine disciplined.keeps (fun own => ?_) fun other => ?_
    · have holding := disciplined.owner i own
      rw [top] at holding
      exact holding.replace kind loose
    · have waiting := disciplined.others i other
      rw [top] at waiting
      exact waiting.replace kind loose
  | thrown top code => exact disciplined_throw disciplined top code

end Protoactor.Cluster.MemberList.Locking
