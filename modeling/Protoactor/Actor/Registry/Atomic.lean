import Protoactor.Actor.Registry.Concurrent

/-!
# The sharded registry is one atomic map

A call takes effect when its section ends. What a thread has looked up stays true until
then, because another thread that changes the entry would have to hold the same mutex: the
bucket is a function of the id. So at every moment the shards hold the map that the
finished sections, performed one after the other, lead to.
-/

namespace Protoactor.Actor.ProcessRegistry.Concurrent
set_option autoImplicit false
open Lib

variable {P : Type}

/-- What is known of the `i`-th thread where it is. -/
def Phase.Ok (address : String) (r : ProcessRegistry P) (h : List (Event (Call P) (Answer P)))
    (order : List (Operation (Call P) (Answer P))) (i : Nat) : Phase P → Prop
  | .idle => True
  | .called n call => Waiting h order n i call ∧ Local address call
  | .locked n call => Waiting h order n i call ∧ Local address call
  | .looked n call entry => Waiting h order n i call ∧ Local address call ∧ ∃ id, key address call = some id ∧ entry = r.find id
  | .leaving n call answer => Decided h order ⟨n, i, call, answer⟩

section Frame

variable {address : String} {r r' : ProcessRegistry P} {h : List (Event (Call P) (Answer P))}
  {order : List (Operation (Call P) (Answer P))} {i : Nat} {phase : Phase P} {op : Operation (Call P) (Answer P)}

theorem Phase.Ok.invoke (ok : phase.Ok address r h order i) (n t : Nat) (call : Call P) :
    phase.Ok address r (h ++ [.invoke n t call]) order i := by
  cases phase with
  | idle => exact True.intro
  | called | locked => exact ⟨ok.1.invoke n t call, ok.2⟩
  | looked => exact ⟨ok.1.invoke n t call, ok.2⟩
  | leaving => exact Decided.invoke ok n t call

theorem Phase.Ok.respond (ok : phase.Ok address r h order i) (op : Operation (Call P) (Answer P))
    (other : ∀ n, phase.ticket = some n → op.ticket ≠ n) :
    phase.Ok address r (h ++ [op.responded]) order i := by
  cases phase with
  | idle => exact True.intro
  | called | locked => exact ⟨ok.1.respond (other _ rfl), ok.2⟩
  | looked => exact ⟨ok.1.respond (other _ rfl), ok.2⟩
  | leaving => exact Decided.respond ok (other _ rfl)

/-- Another thread's call takes effect: what has been looked up must not have changed. -/
theorem Phase.Ok.commit (ok : phase.Ok address r h order i) (other : ∀ n, phase.ticket = some n → op.ticket ≠ n)
    (same : ∀ n call entry id, phase = .looked n call entry → key address call = some id → r'.find id = r.find id) :
    phase.Ok address r' h (order ++ [op]) i := by
  cases phase with
  | idle => exact True.intro
  | called | locked => exact ⟨ok.1.commit (other _ rfl), ok.2⟩
  | looked n call entry =>
    obtain ⟨waiting, near, id, keyed, seen⟩ := ok
    exact ⟨waiting.commit (other _ rfl), near, id, keyed, seen.trans (same n call entry id rfl keyed).symm⟩
  | leaving => exact Decided.commit ok op

end Frame

/-- What every step keeps; `m` is the map at the start. -/
structure Inv (m : IdMap P) (deadLetter : P) (address : String) (s : State P) : Prop where
  constants : s.registry.address = address ∧ s.registry.deadLetter = deadLetter
  recorded : Recorded (IdMap.apply deadLetter address) m s.history s.order s.next
  represents : (final (IdMap.apply deadLetter address) m s.order).Represents s.registry
  phases : ∀ i, (s.threads i).Ok address s.registry s.history s.order i
  accounted : ∀ i n call, .invoke n i call ∈ s.history →
    (∃ answer, .respond n i answer ∈ s.history) ∨ (s.threads i).ticket = some n
  mutexes : ∀ b i, s.mutexes b = some i ↔ (s.threads i).holds address = some b

namespace Inv

variable {m : IdMap P} {deadLetter : P} {address : String} {s : State P}

theorem start {r : ProcessRegistry P} (same : m.Represents r) : Inv m r.deadLetter r.address (start r) where
  constants := ⟨rfl, rfl⟩
  recorded := .nil _ m
  represents := same
  phases := fun _ => True.intro
  accounted := fun _ _ _ member => absurd member List.not_mem_nil
  mutexes := fun _ _ => ⟨nofun, nofun⟩

/-- The call a thread is in was made by it. -/
theorem invoked (inv : Inv m deadLetter address s) {i n : Nat} (ticket : (s.threads i).ticket = some n) :
    ∃ call, .invoke n i call ∈ s.history := by
  have ok := inv.phases i
  cases phase : s.threads i with
  | idle => simp [phase, Phase.ticket] at ticket
  | called n' call | locked n' call | looked n' call entry =>
    rw [phase] at ok ticket
    cases ticket
    exact ⟨call, ok.1.invoked⟩
  | leaving n' call answer =>
    rw [phase] at ok ticket
    cases ticket
    exact ⟨call, inv.recorded.called _ ok.decided⟩

/-- Two threads are in two calls. -/
theorem tickets_differ (inv : Inv m deadLetter address s) {i j n : Nat} (other : j ≠ i) (own : (s.threads i).ticket = some n) :
    ∀ n', (s.threads j).ticket = some n' → n ≠ n' := by
  rintro n' there rfl
  obtain ⟨call, invoked⟩ := inv.invoked own
  obtain ⟨call', invoked'⟩ := inv.invoked there
  exact other (inv.recorded.unique _ _ _ _ _ invoked' invoked)

/-- Two threads hold the mutexes of two shards. -/
theorem shards_differ (inv : Inv m deadLetter address s) {i j b : Nat} (other : j ≠ i)
    (own : (s.threads i).holds address = some b) : (s.threads j).holds address ≠ some b := by
  intro there
  have holder := (inv.mutexes b i).2 own
  rw [(inv.mutexes b j).2 there] at holder
  exact other (Option.some.inj holder)

/-! ## One step -/

section Put

variable {i : Nat} {phase : Phase P}

theorem put_own : (s.put i phase).threads i = phase := by simp [State.put]

theorem put_other {j : Nat} (other : j ≠ i) : (s.put i phase).threads j = s.threads j := by simp [State.put, other]

theorem ticket_put (s : State P) (i : Nat) (phase : Phase P) (same : phase.ticket = (s.threads i).ticket) (j : Nat) :
    ((s.put i phase).threads j).ticket = (s.threads j).ticket := by
  by_cases own : j = i
  · rw [own, put_own, same]
  · rw [put_other own]

theorem holds_put (address : String) (s : State P) (i : Nat) (phase : Phase P)
    (same : phase.holds address = (s.threads i).holds address) (j : Nat) :
    ((s.put i phase).threads j).holds address = (s.threads j).holds address := by
  by_cases own : j = i
  · rw [own, put_own, same]
  · rw [put_other own]

end Put

theorem invoke (inv : Inv m deadLetter address s) {i : Nat} {call : Call P} (idle : s.threads i = .idle)
    (near : Local address call) : Inv m deadLetter address { s.put i (.called s.next call) with
      next := s.next + 1
      history := s.history ++ [.invoke s.next i call] } := by
  have answered : ∀ n c, .invoke n i c ∈ s.history → ∃ answer, .respond n i answer ∈ s.history := by
    intro n c member
    refine (inv.accounted i n c member).resolve_right fun ticket => ?_
    rw [idle] at ticket
    cases ticket
  constructor
  case constants => exact inv.constants
  case recorded => exact inv.recorded.invoke call answered
  case represents => exact inv.represents
  case phases =>
    intro j
    by_cases own : j = i
    · simp only [State.put, own, if_true]
      exact ⟨inv.recorded.waiting i call, near⟩
    · simp only [State.put, if_neg own]
      exact (inv.phases j).invoke _ _ _
  case accounted =>
    intro j n c member
    by_cases own : j = i
    · subst own
      simp only [State.put, if_true]
      rcases List.mem_append.1 member with before | last
      · obtain ⟨answer, inside⟩ := answered n c before
        exact .inl ⟨answer, List.mem_append_left _ inside⟩
      · cases List.mem_singleton.1 last
        exact .inr rfl
    · simp only [State.put, if_neg own]
      rcases List.mem_append.1 member with before | last
      · exact (inv.accounted j n c before).imp_left fun ⟨answer, inside⟩ => ⟨answer, List.mem_append_left _ inside⟩
      · injection List.mem_singleton.1 last with _ same
        exact absurd same own
  case mutexes =>
    intro b j
    have same := holds_put address s i (.called s.next call) (by rw [idle]; rfl) j
    exact (inv.mutexes b j).trans (by rw [← same])

/-- A thread takes the free mutex of its shard. -/
theorem lock (inv : Inv m deadLetter address s) {i n : Nat} {call : Call P} {id : String}
    (here : s.threads i = .called n call) (keyed : key address call = some id) (free : s.mutexes (getBucket id) = none) :
    Inv m deadLetter address ((s.hold (getBucket id) (some i)).put i (.locked n call)) := by
  have ok := inv.phases i
  rw [here] at ok
  constructor
  case constants => exact inv.constants
  case recorded => exact inv.recorded
  case represents => exact inv.represents
  case phases =>
    intro j
    by_cases own : j = i
    · simp only [State.put, State.hold, own, if_true]
      exact ok
    · simp only [State.put, State.hold, if_neg own]
      exact inv.phases j
  case accounted =>
    intro j n' c member
    have known := inv.accounted j n' c member
    by_cases own : j = i
    · subst own
      rw [here] at known
      simpa [State.put, State.hold, Phase.ticket] using known
    · simpa [State.put, State.hold, own] using known
  case mutexes =>
    intro b j
    have known := inv.mutexes b j
    by_cases own : j = i
    · subst own
      rw [here] at known
      by_cases same : b = getBucket id
      · simp [State.put, State.hold, Phase.holds, keyed, same]
      · have other : ¬ getBucket id = b := fun back => same back.symm
        simpa [State.put, State.hold, Phase.holds, keyed, same, other] using known
    · have away : ¬ i = j := fun back => own back.symm
      by_cases same : b = getBucket id
      · subst same
        rw [free] at known
        simpa [State.put, State.hold, own, away] using known
      · simpa [State.put, State.hold, own, same] using known

theorem look (inv : Inv m deadLetter address s) {i n : Nat} {call : Call P} {id : String}
    (here : s.threads i = .locked n call) (keyed : key address call = some id) :
    Inv m deadLetter address (s.put i (.looked n call (s.registry.find id))) := by
  have ok := inv.phases i
  rw [here] at ok
  constructor
  case constants => exact inv.constants
  case recorded => exact inv.recorded
  case represents => exact inv.represents
  case phases =>
    intro j
    by_cases own : j = i
    · rw [own, put_own]
      exact ⟨ok.1, ok.2, id, keyed, rfl⟩
    · rw [put_other own]
      exact inv.phases j
  case accounted =>
    intro j n' c member
    rw [ticket_put s i _ (by rw [here]; rfl)]
    exact inv.accounted j n' c member
  case mutexes =>
    intro b j
    rw [holds_put address s i _ (by rw [here]; rfl)]
    exact inv.mutexes b j

/-- A call takes effect: the thread's section ends, or it returns without one. -/
theorem commit (inv : Inv m deadLetter address s) {i n : Nat} {call : Call P} {before : Phase P} (here : s.threads i = before)
    (ticket : before.ticket = some n) (waiting : Waiting s.history s.order n i call) (near : Local address call)
    (held : before.holds address = (key address call).map getBucket) :
    Inv m deadLetter address { s.put i (.leaving n call (s.registry.perform call).1) with
      registry := (s.registry.perform call).2
      order := s.order ++ [⟨n, i, call, (s.registry.perform call).1⟩] } := by
  obtain ⟨addressed, dead⟩ := inv.constants
  subst addressed dead
  subst here
  obtain ⟨answer, represents⟩ := perform_refines inv.represents near
  obtain ⟨address', dead'⟩ := perform_constant s.registry call
  constructor
  case constants => exact ⟨address', dead'⟩
  case recorded => exact inv.recorded.commit ⟨n, i, call, _⟩ waiting answer
  case represents =>
    rw [final_snoc]
    exact represents
  case phases =>
    intro j
    by_cases own : j = i
    · simp only [State.put, own, if_true]
      exact ⟨List.mem_append_right _ (List.mem_singleton.2 rfl), waiting.unanswered⟩
    · simp only [State.put, if_neg own]
      refine (inv.phases j).commit (inv.tickets_differ own ticket) fun n' call' entry id' there keyed' => ?_
      -- the entry that the other thread has looked up is in another shard
      cases keyed : key s.registry.address call with
      | none => rw [perform_keyless keyed]
      | some id =>
        rw [keyed] at held
        refine perform_frame keyed fun same => inv.shards_differ own held ?_
        rw [there, Phase.holds, keyed', same]
        rfl
  case accounted =>
    intro j n' c member
    have same := ticket_put s i (.leaving n call (s.registry.perform call).1) ticket.symm j
    exact (inv.accounted j n' c member).imp_right fun there => same.trans there
  case mutexes =>
    intro b j
    have same := holds_put s.registry.address s i (.leaving n call (s.registry.perform call).1) held.symm j
    exact (inv.mutexes b j).trans (by rw [← same])

/-- The mutex, if the call has one, is given back. -/
def release (address : String) (call : Call P) (s : State P) : State P :=
  match key address call with
  | some id => s.hold (getBucket id) none
  | none => s

theorem mutexes_release (inv : Inv m deadLetter address s) {i n : Nat} {call : Call P} {answer : Answer P}
    (here : s.threads i = .leaving n call answer) (b j : Nat) :
    ((release address call s).put i .idle).mutexes b = some j ↔
      (((release address call s).put i .idle).threads j).holds address = some b := by
  have known := inv.mutexes b j
  have own := inv.mutexes b i
  rw [here] at own
  cases keyed : key address call with
  | none =>
    simp only [release, keyed]
    have nothing : (s.threads i).holds address = none := by
      rw [here, Phase.holds, keyed]
      rfl
    rw [holds_put address s i .idle nothing.symm]
    exact known
  | some id =>
    have held : (s.threads i).holds address = some (getBucket id) := by
      rw [here, Phase.holds, keyed]
      rfl
    simp only [release, keyed]
    rw [here] at held
    rw [held] at own
    by_cases mine : j = i
    · subst mine
      rw [put_own]
      by_cases same : b = getBucket id
      · simp [State.put, State.hold, same, Phase.holds]
      · have other : ¬ getBucket id = b := fun back => same back.symm
        simpa [State.put, State.hold, same, other, Phase.holds] using own
    · rw [put_other mine]
      by_cases same : b = getBucket id
      · subst same
        simpa [State.put, State.hold] using inv.shards_differ mine (here ▸ held)
      · simpa [State.put, State.hold, same] using known

theorem respond (inv : Inv m deadLetter address s) {i n : Nat} {call : Call P} {answer : Answer P}
    (here : s.threads i = .leaving n call answer) : Inv m deadLetter address
    { (release address call s).put i .idle with history := s.history ++ [.respond n i answer] } := by
  have ok := inv.phases i
  rw [here] at ok
  have unchanged : (release address call s).registry = s.registry ∧ (release address call s).threads = s.threads ∧
      (release address call s).order = s.order ∧ (release address call s).next = s.next := by
    unfold release
    split <;> exact ⟨rfl, rfl, rfl, rfl⟩
  obtain ⟨registry, threads, order, next⟩ := unchanged
  have other : ∀ {j : Nat}, j ≠ i → ((release address call s).put i .idle).threads j = s.threads j := by
    intro j mine
    rw [put_other mine, threads]
  constructor
  case constants =>
    simp only [State.put, registry]
    exact inv.constants
  case recorded =>
    simp only [State.put, order, next]
    exact inv.recorded.respond ok.decided
  case represents =>
    simp only [State.put, order, registry]
    exact inv.represents
  case phases =>
    intro j
    by_cases mine : j = i
    · simp only [State.put, mine, if_true]
      exact True.intro
    · simp only [State.put, if_neg mine, registry, order, threads]
      have ticket : (s.threads i).ticket = some n := by
        rw [here]
        rfl
      exact (inv.phases j).respond ⟨n, i, call, answer⟩ (inv.tickets_differ mine ticket)
  case accounted =>
    intro j n' c member
    rcases List.mem_append.1 member with before | last
    · rcases inv.accounted j n' c before with ⟨answer', inside⟩ | ticket
      · exact .inl ⟨answer', List.mem_append_left _ inside⟩
      · by_cases mine : j = i
        · subst mine
          rw [here] at ticket
          cases ticket
          exact .inl ⟨answer, List.mem_append_right _ (List.mem_singleton.2 rfl)⟩
        · exact .inr (by rw [← ticket, ← other mine])
    · cases List.mem_singleton.1 last
  case mutexes => exact inv.mutexes_release here

end Inv

/-! ## Every run -/

/-- Every step keeps the invariant. -/
theorem keeps_inv (m : IdMap P) (deadLetter : P) (address : String) :
    Machine.Keeps step LocalGets (Inv m deadLetter address) := by
  intro s l s' inv near moved
  have addressed := inv.constants.1
  cases l with
  | invoke i call =>
    cases here : s.threads i with
    | idle =>
      simp only [step, here] at moved
      cases moved
      exact inv.invoke here (addressed ▸ near)
    | called | locked | looked | leaving => simp [step, here] at moved
  | lock i =>
    cases here : s.threads i with
    | called n call =>
      have ok := inv.phases i
      rw [here] at ok
      simp only [step, here, addressed] at moved
      cases keyed : key address call with
      | none =>
        rw [keyed] at moved
        cases moved
        have done := inv.commit here rfl ok.1 ok.2 (by rw [keyed]; rfl)
        rwa [perform_keyless (addressed ▸ keyed)] at done
      | some id =>
        rw [keyed] at moved
        cases free : s.mutexes (getBucket id) with
        | none =>
          simp only [free] at moved
          cases moved
          exact inv.lock here keyed free
        | some j => simp [free] at moved
    | idle | locked | looked | leaving => simp [step, here] at moved
  | look i =>
    cases here : s.threads i with
    | locked n call =>
      simp only [step, here, addressed] at moved
      obtain ⟨id, keyed, rfl⟩ := Option.map_eq_some_iff.1 moved
      exact inv.look here keyed
    | idle | called | looked | leaving => simp [step, here] at moved
  | finish i =>
    cases here : s.threads i with
    | looked n call entry =>
      have ok := inv.phases i
      rw [here] at ok
      obtain ⟨waiting, local_, id, keyed, seen⟩ := ok
      have whole := finish_eq (r := s.registry) (addressed ▸ keyed)
      simp only [step, here, seen, whole] at moved
      cases moved
      exact inv.commit here rfl waiting local_ rfl
    | idle | called | locked | leaving => simp [step, here] at moved
  | respond i =>
    cases here : s.threads i with
    | leaving n call answer =>
      simp only [step, here, addressed] at moved
      cases moved
      exact inv.respond here
    | idle | called | locked | looked => simp [step, here] at moved

/-! ## One id in a sequential order -/

section Sequential

variable {m : IdMap P} {deadLetter : P} {address id : String} {ops : List (Operation (Call P) (Answer P))}

def adds (id : String) (op : Operation (Call P) (Answer P)) : Bool :=
  match op.call with
  | .add _ id' => id' = id
  | _ => false

def removes (id : String) (op : Operation (Call P) (Answer P)) : Bool :=
  match op.call with
  | .remove (some pid) => pid.id = id
  | _ => false

/-- The call is an `Add` that answered true. -/
def succeeds (op : Operation (Call P) (Answer P)) : Bool :=
  match op.result with
  | .added _ _ ok => ok
  | _ => false

theorem adds_iff {op : Operation (Call P) (Answer P)} : adds id op = true ↔ ∃ process, op.call = .add process id := by
  unfold adds
  split
  · rename_i process id' call
    simp [call]
  · rename_i call
    exact ⟨nofun, fun ⟨process, same⟩ => (call process id same).elim⟩

/-- An `Add` of the id stores its process unless there is one, and says so. -/
theorem apply_adds {op : Operation (Call P) (Answer P)} {process : P} (call : op.call = .add process id)
    (answer : (IdMap.apply deadLetter address m op.call).1 = op.result) : succeeds op = (m.find id).isNone ∧
    (IdMap.apply deadLetter address m op.call).2.find id = some ((m.find id).getD process) := by
  rw [call] at answer ⊢
  rw [succeeds, ← answer]
  cases entry : m.find id <;> simp [IdMap.apply, entry, IdMap.insert]

/-- The other calls that do not remove the id leave its entry alone. -/
theorem apply_others (m : IdMap P) (deadLetter : P) (address : String) {op : Operation (Call P) (Answer P)}
    (noAdd : adds id op = false) (noRemove : removes id op = false) :
    (IdMap.apply deadLetter address m op.call).2.find id = m.find id := by
  unfold adds at noAdd
  unfold removes at noRemove
  cases call : op.call with
  | add process id' =>
    have other : ¬ id = id' := by
      rintro rfl
      simp [call] at noAdd
    cases entry : m.find id' <;> simp [IdMap.apply, entry, IdMap.insert, other]
  | remove pid =>
    cases pid with
    | none => rfl
    | some pid =>
      have other : ¬ id = pid.id := by
        rintro rfl
        simp [call] at noRemove
      simp [IdMap.apply, IdMap.erase, other]
  | get pid => cases pid <;> rfl
  | getLocal id' => rfl

/-- A present id stays with its process, and no `Add` of it succeeds. -/
theorem kept {process : P} (legal : Legal (IdMap.apply deadLetter address) m ops) (present : m.find id = some process)
    (stays : ∀ op ∈ ops, removes id op = false) : (final (IdMap.apply deadLetter address) m ops).find id = some process ∧
      ∀ op ∈ ops, adds id op = true → succeeds op = false := by
  induction ops generalizing m with
  | nil => exact ⟨present, fun _ member => absurd member List.not_mem_nil⟩
  | cons op ops ih =>
    obtain ⟨answer, later⟩ := legal
    have first : (IdMap.apply deadLetter address m op.call).2.find id = some process ∧
        (adds id op = true → succeeds op = false) := by
      cases add : adds id op with
      | false => exact ⟨(apply_others m _ _ add (stays op List.mem_cons_self)).trans present, nofun⟩
      | true =>
        obtain ⟨process', call⟩ := adds_iff.1 add
        obtain ⟨result, entry⟩ := apply_adds call answer
        rw [present] at result entry
        exact ⟨entry, fun _ => result⟩
    obtain ⟨last, rest⟩ := ih later first.1 fun o member => stays o (List.mem_cons_of_mem op member)
    refine ⟨last, fun o member => ?_⟩
    rcases List.mem_cons.1 member with rfl | inside
    · exact first.2
    · exact rest o inside

/-- One `Add` among `ops` has stored its process, and the others have changed nothing. -/
structure OneAdd (m : IdMap P) (deadLetter : P) (address id : String) (ops : List (Operation (Call P) (Answer P))) : Prop where
  one : ∃ pre op post process, ops = pre ++ op :: post ∧ op.call = .add process id ∧ succeeds op = true ∧
    (∀ o ∈ pre ++ post, adds id o = true → succeeds o = false) ∧
    (final (IdMap.apply deadLetter address) m ops).find id = some process

/-- **Exactly one `Add` succeeds**, however many there are, on an id that is absent at the start and not removed. -/
theorem exactly_one (legal : Legal (IdMap.apply deadLetter address) m ops) (absent : m.find id = none)
    (stays : ∀ op ∈ ops, removes id op = false) (some_ : ∃ op ∈ ops, adds id op = true) :
    OneAdd m deadLetter address id ops := by
  induction ops generalizing m with
  | nil =>
    obtain ⟨op, member, -⟩ := some_
    exact absurd member List.not_mem_nil
  | cons op ops ih =>
    obtain ⟨answer, later⟩ := legal
    have rest : ∀ o ∈ ops, removes id o = false := fun o member => stays o (List.mem_cons_of_mem op member)
    cases add : adds id op with
    | true =>
      obtain ⟨process, call⟩ := adds_iff.1 add
      obtain ⟨result, entry⟩ := apply_adds call answer
      rw [absent] at result entry
      obtain ⟨last, others⟩ := kept later entry rest
      exact ⟨[], op, ops, process, rfl, call, result, others, last⟩
    | false =>
      have still := (apply_others m deadLetter address add (stays op List.mem_cons_self)).trans absent
      obtain ⟨o, member, first⟩ := some_
      rcases List.mem_cons.1 member with rfl | inside
      · rw [add] at first
        cases first
      · obtain ⟨pre, op', post, process, split, call, result, others, last⟩ :=
          (ih later still rest ⟨o, inside, first⟩).one
        refine ⟨op :: pre, op', post, process, by rw [split]; rfl, call, result, ?_, last⟩
        intro o' member'
        rcases List.mem_cons.1 member' with rfl | inside'
        · rw [add]
          exact nofun
        · exact others o' inside'

end Sequential

/-- What a run of the shards is worth: an order of its calls on the one map. -/
structure Atomic (m : IdMap P) (deadLetter : P) (address : String) (s : State P)
    (order : List (Operation (Call P) (Answer P))) : Prop where
  linearizes : Linearizes (IdMap.apply deadLetter address) m s.history order
  /-- the shards hold what the order leads to -/
  represents : (final (IdMap.apply deadLetter address) m order).Represents s.registry
  /-- between a point where the id is absent and the next `Remove` of it -/
  exactlyOne : ∀ id before ops after, order = before ++ ops ++ after →
    (final (IdMap.apply deadLetter address) m before).find id = none → (∀ op ∈ ops, removes id op = false) →
    (∃ op ∈ ops, adds id op = true) → OneAdd (final (IdMap.apply deadLetter address) m before) deadLetter address id ops

/-- **The sharded registry is one atomic map**, in every interleaving of the threads' sections. -/
theorem atomic {m : IdMap P} {r : ProcessRegistry P} (same : m.Represents r) {ls : List (Label P)} {s : State P}
    (run : Machine.Run step LocalGets (start r) ls s) : ∃ order, Atomic m r.deadLetter r.address s order := by
  have inv := run.keeps (keeps_inv m r.deadLetter r.address) (Inv.start same)
  refine ⟨s.order, inv.recorded.toLinearizes, inv.represents, ?_⟩
  intro id before ops after split absent stays some_
  have legal := inv.recorded.legal
  rw [split, legal_append, legal_append] at legal
  exact exactly_one legal.1.2 absent stays some_

/-- Two threads add one name at the same time, and a third gets it: one `Add` fails. -/
theorem atomic_race : ∃ s : State String, s.history = [.invoke 0 0 (.add "first" "a"), .invoke 1 1 (.add "second" "a"),
      .respond 1 1 (.added "nonhost" "a" true), .respond 0 0 (.added "nonhost" "a" false),
      .invoke 2 2 (.get (some ⟨0, "nonhost", "a"⟩)), .respond 2 2 (.found "second" true)] ∧
    ∃ order, Atomic .empty "deadletter" "nonhost" s order := by
  have run : ∃ s : State String, s.history = [.invoke 0 0 (.add "first" "a"), .invoke 1 1 (.add "second" "a"),
      .respond 1 1 (.added "nonhost" "a" true), .respond 0 0 (.added "nonhost" "a" false),
      .invoke 2 2 (.get (some ⟨0, "nonhost", "a"⟩)), .respond 2 2 (.found "second" true)] ∧
      Machine.Run step LocalGets (start (.new "deadletter")) [.invoke 0 (.add "first" "a"), .invoke 1 (.add "second" "a"),
        .lock 1, .look 1, .finish 1, .respond 1, .lock 0, .look 0, .finish 0, .respond 0,
        .invoke 2 (.get (some ⟨0, "nonhost", "a"⟩)), .lock 2, .look 2, .finish 2, .respond 2] s := by
    refine ⟨_, ?_, .cons rfl True.intro (.cons rfl True.intro (.cons rfl True.intro (.cons rfl True.intro (.cons rfl True.intro
      (.cons rfl True.intro (.cons rfl True.intro (.cons rfl True.intro (.cons rfl True.intro (.cons rfl True.intro
      (.cons rfl rfl (.cons rfl True.intro (.cons rfl True.intro (.cons rfl True.intro (.cons rfl True.intro
      (.nil _)))))))))))))))⟩
    rfl
  obtain ⟨s, history, run⟩ := run
  exact ⟨s, history, atomic (fun _ => rfl) run⟩

end Protoactor.Actor.ProcessRegistry.Concurrent
