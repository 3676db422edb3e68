import Protoactor.Cluster.IdentityLookup
import Protoactor.Lib.LookAside
import Protoactor.Lib.Pool
import Protoactor.Lib.Simulation

/-!
# Activations (`identity_lookup.cpp`, `pid_cache.cpp`)

Any number of threads call `Get`, `RemoveCache` and the operations of the cache, `Add` among them, on one
cluster that has one. An access of the cache is one critical section, and `SpawnNamed` lies between two of
them: two calls of `Get` that miss the same identity both activate it. How far that goes is the general
bound of a cache that is looked up, computed and stored, applied to each identity (`activations_le`). A
cached PID is answered until it is taken out or added over, whatever becomes of its member: the handler of
the topology events of a cluster does nothing.

`activated` and `evicted` are auxiliary.
-/

namespace Protoactor.Cluster
set_option autoImplicit false
open Lib
open Actor (PID)

namespace DefaultIdentityLookup

/-- `PidCache::RemoveByMember`. -/
def removeByMember (member : Option Member) (s : DefaultIdentityLookup) : DefaultIdentityLookup :=
  match member with
  | none => s
  | some member => { s with cache := s.cache.map fun cache i => (cache i).filter fun pid => pid.address ≠ member.address }

/-- `PidCache::Add` as others than `Get` may call it. A null entry is one that `PidCache::Get` does not find. -/
def cacheAdd (identity : String) (pid : Option PID) (s : DefaultIdentityLookup) : DefaultIdentityLookup :=
  { s with cache := s.cache.map fun cache i => if i = identity then pid else cache i }

/-- `PidCache::Clear`. -/
def clear (s : DefaultIdentityLookup) : DefaultIdentityLookup := { s with cache := s.cache.map fun _ _ => none }

end DefaultIdentityLookup

namespace Lookups

/-- Where a call of `Get` is. -/
inductive Phase where
  /-- before `cache->Get` -/
  | looking
  /-- before `GetMembers` -/
  | missed
  /-- in `SpawnNamed` for a member of this address -/
  | asking (address : String)
  /-- before `cache->Add` -/
  | adding (pid : PID)
  | returned (pid : Option PID) (err : Int)
  deriving DecidableEq, Repr

structure GetCall where
  identity : String
  kind : String
  phase : Phase
  deriving DecidableEq, Repr

structure State where
  lookup : DefaultIdentityLookup
  calls : List GetCall
  /-- the PIDs that `SpawnNamed` has answered, with the identity they were asked for -/
  activated : List (String × PID)
  /-- how often an identity was taken out of the cache -/
  evicted : String → Nat

/-- A cluster whose `Initialize` has made the cache. -/
def start : State := ⟨⟨true, some fun _ => none⟩, [], [], fun _ => 0⟩

inductive Label where
  /-- a thread calls `Get` -/
  | get (identity kind : String)
  | look (n : Nat)
  /-- the search for the member, with what it finds -/
  | find (n : Nat) (around : Surroundings)
  /-- `SpawnNamed` returns -/
  | answer (n : Nat) (pid : Option PID) (err : Int)
  | add (n : Nat)
  /-- `PidCache::Add`, outside of `Get` -/
  | cacheAdd (identity : String) (pid : Option PID)
  | removeCache (identity kind : String)
  | removeByMember (member : Option Member)
  | clear

/-- The cache after an operation of its own, with what that has taken out counted. -/
def State.evict (lookup : DefaultIdentityLookup) (s : State) : State :=
  { s with
    lookup := lookup
    evicted := fun i => s.evicted i + if (s.lookup.cached i).isSome ∧ lookup.cached i = none then 1 else 0 }

/-- A call goes on. -/
def State.put (n : Nat) (c : GetCall) (phase : Phase) (s : State) : State := { s with calls := s.calls.set n { c with phase := phase } }

def step : Machine State Label := fun s l =>
  match l with
  | .get identity kind => some { s with calls := s.calls ++ [⟨identity, kind, .looking⟩] }
  | .look n =>
    match s.calls[n]? with
    | none => none
    | some c =>
      match c.phase, s.lookup.cached c.identity with
      | .looking, some pid => some (s.put n c (.returned (some pid) 0))
      | .looking, none => some (s.put n c .missed)
      | _, _ => none
  | .find n around =>
    match s.calls[n]? with
    | none => none
    | some c =>
      match c.phase, DefaultIdentityLookup.owner c.identity c.kind around with
      | .missed, .error err => some (s.put n c (.returned none err))
      | .missed, .ok member => some (s.put n c (.asking member.address))
      | _, _ => none
  | .answer n pid err =>
    match s.calls[n]? with
    | none => none
    | some c =>
      match c.phase, pid with
      | .asking _, none => some (s.put n c (.returned none err))
      | .asking _, some pid =>
        if err ≠ 0 then some (s.put n c (.returned none err))
        else some { s.put n c (.adding pid) with activated := s.activated ++ [(c.identity, pid)] }
      | _, _ => none
  | .add n =>
    match s.calls[n]? with
    | none => none
    | some c =>
      match c.phase with
      | .adding pid => some { s.put n c (.returned (some pid) 0) with lookup := s.lookup.add c.identity pid }
      | _ => none
  | .cacheAdd identity pid => some (s.evict (s.lookup.cacheAdd identity pid))
  | .removeCache identity kind => some (s.evict (s.lookup.removeCache identity kind))
  | .removeByMember member => some (s.evict (s.lookup.removeByMember member))
  | .clear => some (s.evict s.lookup.clear)

/-- The cache after an operation that takes out of it has what it had, or nothing. -/
def Fewer (lookup lookup' : DefaultIdentityLookup) : Prop :=
  (lookup'.cache.isSome = lookup.cache.isSome) ∧ ∀ i, lookup'.cached i = lookup.cached i ∨ lookup'.cached i = none

/-- What a step can do. -/
inductive Step (s : State) : Label → State → Prop where
  | get (identity kind : String) : Step s (.get identity kind) { s with calls := s.calls ++ [⟨identity, kind, .looking⟩] }
  | hit (n : Nat) (c : GetCall) (here : s.calls[n]? = some c) (at_ : c.phase = .looking) (pid : PID)
      (found : s.lookup.cached c.identity = some pid) : Step s (.look n) (s.put n c (.returned (some pid) 0))
  | miss (n : Nat) (c : GetCall) (here : s.calls[n]? = some c) (at_ : c.phase = .looking)
      (absent : s.lookup.cached c.identity = none) : Step s (.look n) (s.put n c .missed)
  | found (n : Nat) (around : Surroundings) (c : GetCall) (here : s.calls[n]? = some c) (at_ : c.phase = .missed) (member : Member)
      (owner : DefaultIdentityLookup.owner c.identity c.kind around = .ok member) :
      Step s (.find n around) (s.put n c (.asking member.address))
  | nobody (n : Nat) (around : Surroundings) (c : GetCall) (here : s.calls[n]? = some c) (at_ : c.phase = .missed) (err : Int)
      (owner : DefaultIdentityLookup.owner c.identity c.kind around = .error err) :
      Step s (.find n around) (s.put n c (.returned none err))
  | refused (n : Nat) (pid : Option PID) (err : Int) (c : GetCall) (here : s.calls[n]? = some c) (address : String)
      (at_ : c.phase = .asking address) (without : pid = none ∨ err ≠ 0) : Step s (.answer n pid err) (s.put n c (.returned none err))
  | spawned (n : Nat) (pid : PID) (c : GetCall) (here : s.calls[n]? = some c) (address : String) (at_ : c.phase = .asking address) :
      Step s (.answer n (some pid) 0) { s.put n c (.adding pid) with activated := s.activated ++ [(c.identity, pid)] }
  | add (n : Nat) (c : GetCall) (here : s.calls[n]? = some c) (pid : PID) (at_ : c.phase = .adding pid) :
      Step s (.add n) { s.put n c (.returned (some pid) 0) with lookup := s.lookup.add c.identity pid }
  | cacheAdd (identity : String) (pid : PID) : Step s (.cacheAdd identity (some pid)) (s.evict (s.lookup.add identity pid))
  | evict (l : Label) (lookup : DefaultIdentityLookup) (fewer : Fewer s.lookup lookup) : Step s l (s.evict lookup)

variable {s s' t : State} {l : Label} {i : String}

theorem fewer_remove (identity : String) (lookup : DefaultIdentityLookup) : Fewer lookup (lookup.remove identity) := by
  refine ⟨by simp [DefaultIdentityLookup.remove], fun i => ?_⟩
  rw [DefaultIdentityLookup.cached_remove]
  split
  · exact .inr rfl
  · exact .inl rfl

theorem fewer_removeCache (identity kind : String) (lookup : DefaultIdentityLookup) :
    Fewer lookup (lookup.removeCache identity kind) := by
  unfold DefaultIdentityLookup.removeCache
  split
  · exact fewer_remove identity lookup
  · exact ⟨rfl, fun i => .inl rfl⟩

theorem fewer_removeByMember (member : Option Member) (lookup : DefaultIdentityLookup) :
    Fewer lookup (lookup.removeByMember member) := by
  cases member with
  | none => exact ⟨rfl, fun i => .inl rfl⟩
  | some member =>
    refine ⟨by simp [DefaultIdentityLookup.removeByMember], fun i => ?_⟩
    unfold DefaultIdentityLookup.removeByMember DefaultIdentityLookup.cached
    cases lookup.cache with
    | none => exact .inl rfl
    | some cache =>
      cases there : cache i with
      | none => exact .inl (by simp [there])
      | some pid => by_cases same : pid.address = member.address <;> simp [there, same]

theorem fewer_clear (lookup : DefaultIdentityLookup) : Fewer lookup lookup.clear := by
  refine ⟨by simp [DefaultIdentityLookup.clear], fun i => .inr ?_⟩
  unfold DefaultIdentityLookup.clear DefaultIdentityLookup.cached
  cases lookup.cache <;> rfl

theorem step_cases (moved : step s l = some s') : Step s l s' := by
  cases l with
  | get identity kind =>
    cases moved
    exact .get identity kind
  | look n =>
    simp only [step] at moved
    split at moved
    · cases moved
    · rename_i c here
      split at moved
      · rename_i pid at_ found
        cases moved
        exact .hit n c here at_ pid found
      · rename_i at_ absent
        cases moved
        exact .miss n c here at_ absent
      · cases moved
  | find n around =>
    simp only [step] at moved
    split at moved
    · cases moved
    · rename_i c here
      split at moved
      · rename_i err at_ owner
        cases moved
        exact .nobody n around c here at_ err owner
      · rename_i member at_ owner
        cases moved
        exact .found n around c here at_ member owner
      · cases moved
  | answer n pid err =>
    simp only [step] at moved
    split at moved
    · cases moved
    · rename_i c here
      split at moved
      · rename_i address at_
        cases moved
        exact .refused n none err c here address at_ (.inl rfl)
      · rename_i address pid at_
        split at moved
        · rename_i failed
          cases moved
          exact .refused n (some pid) err c here address at_ (.inr failed)
        · rename_i success
          cases moved
          rw [Decidable.not_not.1 success]
          exact .spawned n pid c here address at_
      · cases moved
  | add n =>
    simp only [step] at moved
    split at moved
    · cases moved
    · rename_i c here
      split at moved
      · rename_i pid at_
        cases moved
        exact .add n c here pid at_
      · cases moved
  | cacheAdd identity pid =>
    cases moved
    cases pid with
    | none => exact .evict _ _ (fewer_remove identity s.lookup)
    | some pid => exact .cacheAdd identity pid
  | removeCache identity kind =>
    cases moved
    exact .evict _ _ (fewer_removeCache identity kind s.lookup)
  | removeByMember member =>
    cases moved
    exact .evict _ _ (fewer_removeByMember member s.lookup)
  | clear =>
    cases moved
    exact .evict _ _ (fewer_clear s.lookup)

/-! ## A call alone -/

/-- The call can go on by itself, to this lookup and this answer. -/
def Ends (n : Nat) (s : State) (lookup : DefaultIdentityLookup) (pid : Option PID) (err : Int) : Prop :=
  ∃ ls t, Machine.exec step ls s = some t ∧ t.lookup = lookup ∧ (t.calls[n]?).map GetCall.phase = some (.returned pid err)

variable {n : Nat} {c : GetCall} {lookup : DefaultIdentityLookup} {pid : Option PID} {err : Int}

theorem Ends.step (moved : step s l = some s') (rest : Ends n s' lookup pid err) : Ends n s lookup pid err := by
  obtain ⟨ls, t, run, same, ended⟩ := rest
  exact ⟨l :: ls, t, (Machine.exec_cons moved).trans run, same, ended⟩

theorem Ends.ended (here : s.calls[n]? = some c) (at_ : c.phase = .returned pid err) : Ends n s s.lookup pid err :=
  ⟨[], s, rfl, rfl, by rw [here, Option.map_some, at_]⟩

theorem put_calls (here : s.calls[n]? = some c) (phase : Phase) : (s.put n c phase).calls[n]? = some { c with phase := phase } :=
  List.getElem?_set_self (List.getElem?_eq_some_iff.1 here).1

theorem ends_adding (here : s.calls[n]? = some c) {pid : PID} (at_ : c.phase = .adding pid) :
    Ends n s (s.lookup.add c.identity pid) (some pid) 0 := by
  have moved : step s (.add n) = some { s.put n c (.returned (some pid) 0) with lookup := s.lookup.add c.identity pid } := by
    simp only [step, here, at_]
  exact .step moved (.ended (put_calls here _) rfl)

theorem ends_asking (here : s.calls[n]? = some c) {address : String} (at_ : c.phase = .asking address) (pid : Option PID) (err : Int) :
    match pid with
    | none => Ends n s s.lookup none err
    | some pid => if err ≠ 0 then Ends n s s.lookup none err else Ends n s (s.lookup.add c.identity pid) (some pid) 0 := by
  cases pid with
  | none =>
    have moved : step s (.answer n none err) = some (s.put n c (.returned none err)) := by simp only [step, here, at_]
    exact .step moved (.ended (put_calls here _) rfl)
  | some pid =>
    dsimp only
    split
    · rename_i failed
      have moved : step s (.answer n (some pid) err) = some (s.put n c (.returned none err)) := by
        simp only [step, here, at_, if_pos failed]
      exact .step moved (.ended (put_calls here _) rfl)
    · rename_i success
      have moved : step s (.answer n (some pid) err) =
          some { s.put n c (.adding pid) with activated := s.activated ++ [(c.identity, pid)] } := by
        simp only [step, here, at_, if_neg success]
      refine .step moved ?_
      have adding : ({ s.put n c (.adding pid) with activated := s.activated ++ [(c.identity, pid)] } : State).calls[n]? =
          some { c with phase := .adding pid } := put_calls here (.adding pid)
      exact ends_adding adding rfl

/-- **A call alone** does what `Get` does. -/
theorem alone (here : s.calls[n]? = some c) (at_ : c.phase = .looking) (around : Surroundings) (given : around.cluster = true) :
    let got := s.lookup.get around c.identity c.kind
    Ends n s got.lookup got.pid got.err := by
  simp only [DefaultIdentityLookup.get, given, not_true_eq_false, if_false]
  cases found : s.lookup.cached c.identity with
  | some pid =>
    have moved : step s (.look n) = some (s.put n c (.returned (some pid) 0)) := by simp only [step, here, at_, found]
    exact .step moved (.ended (put_calls here _) rfl)
  | none =>
    have moved : step s (.look n) = some (s.put n c .missed) := by simp only [step, here, at_, found]
    refine .step moved ?_
    have missed := put_calls here .missed
    cases search : DefaultIdentityLookup.owner c.identity c.kind around with
    | error err =>
      have ends : step (s.put n c .missed) (.find n around) =
          some ((s.put n c .missed).put n { c with phase := .missed } (.returned none err)) := by simp only [step, missed, search]
      exact .step ends (.ended (put_calls missed _) rfl)
    | ok member =>
      have asks : step (s.put n c .missed) (.find n around) =
          some ((s.put n c .missed).put n { c with phase := .missed } (.asking member.address)) := by simp only [step, missed, search]
      refine .step asks ?_
      have rest := ends_asking (put_calls missed (.asking member.address)) rfl around.answer.1 around.answer.2
      rcases reply : around.answer with ⟨pid, err⟩
      rw [reply] at rest
      cases pid with
      | none => exact rest
      | some pid =>
        dsimp only at rest ⊢
        split at rest
        · rename_i failed
          rw [if_pos failed]
          exact rest
        · rename_i success
          rw [if_neg success]
          exact rest

/-! ## One identity -/

/-- Nothing was found in the cache, and `SpawnNamed` has not returned. -/
def Phase.computes : Phase → Bool
  | .missed | .asking _ => true
  | _ => false

/-- What `SpawnNamed` has answered is not in the cache yet. -/
def Phase.stores : Phase → Bool
  | .adding _ => true
  | _ => false

/-- The calls for the identity that are so far. -/
def countAt (at_ : Phase → Bool) (i : String) (s : State) : Nat := s.calls.countP fun c => c.identity = i && at_ c.phase

/-- How often an actor was activated for the identity. -/
def activations (i : String) (s : State) : Nat := s.activated.countP (·.1 = i)

/-- The calls of `Get` that have missed the identity and not put it into the cache. -/
def pending (i : String) (s : State) : Nat := countAt Phase.computes i s + countAt Phase.stores i s

def view (i : String) (s : State) : LookAside where
  stored := (s.lookup.cached i).isSome
  computing := countAt Phase.computes i s
  storing := countAt Phase.stores i s
  computed := activations i s
  evicted := s.evicted i

/-- There is a cache. -/
def Initialized (s : State) : Prop := s.lookup.cache.isSome = true

theorem keeps_initialized (ok : State → Label → Prop) : Machine.Keeps step ok Initialized := by
  intro s l s' there _ moved
  cases step_cases moved with
  | get | hit | miss | found | nobody | refused | spawned => exact there
  | add | cacheAdd => simpa [Initialized, DefaultIdentityLookup.add, State.evict] using there
  | evict l lookup fewer => exact fewer.1.trans there

/-- A call for the identity goes on. -/
theorem countAt_own (at_ : Phase → Bool) (here : s.calls[n]? = some c) (phase : Phase) :
    countAt at_ c.identity (s.put n c phase) = countAt at_ c.identity s + (at_ phase).toNat - (at_ c.phase).toNat := by
  have count := pool_count here { c with phase := phase } fun c' => c'.identity = c.identity && at_ c'.phase
  simp only [decide_true, Bool.true_and] at count
  unfold countAt State.put
  cases was : at_ c.phase <;> cases next : at_ phase <;> simp [was, next] at count ⊢ <;> omega

/-- A call for another one does. -/
theorem countAt_other (at_ : Phase → Bool) (here : s.calls[n]? = some c) (phase : Phase) (other : ¬c.identity = i) :
    countAt at_ i (s.put n c phase) = countAt at_ i s := by
  have count := pool_count here { c with phase := phase } fun c' => c'.identity = i && at_ c'.phase
  unfold countAt State.put
  simpa [other] using count

theorem countAt_pos {at_ : Phase → Bool} (here : s.calls[n]? = some c) (there : at_ c.phase = true) : 0 < countAt at_ c.identity s :=
  List.countP_pos_iff.2 ⟨c, List.mem_of_getElem? here, by simp [there]⟩

/-- What the identity sees of a call that goes on. -/
theorem view_own (here : s.calls[n]? = some c) (phase : Phase) :
    view c.identity (s.put n c phase) =
      { view c.identity s with
        computing := (view c.identity s).computing + phase.computes.toNat - c.phase.computes.toNat
        storing := (view c.identity s).storing + phase.stores.toNat - c.phase.stores.toNat } := by
  simp only [view, countAt_own _ here phase]
  rfl

/-- What another identity sees of it. -/
theorem view_other (here : s.calls[n]? = some c) (phase : Phase) (other : ¬c.identity = i) : view i (s.put n c phase) = view i s := by
  simp only [view, countAt_other _ here phase other]
  rfl

/-- A call that stays where it does not count is not seen. -/
theorem view_same (here : s.calls[n]? = some c) (phase : Phase) (computes : phase.computes = c.phase.computes)
    (stores : phase.stores = c.phase.stores) : view i (s.put n c phase) = view i s := by
  by_cases own : c.identity = i
  · subst own
    rw [view_own here, computes, stores]
    simp
  · exact view_other here phase own

/-- A call that comes to nothing. -/
theorem seen_fail (here : s.calls[n]? = some c) (computes : c.phase.computes = true) (stores : c.phase.stores = false)
    (pid : Option PID) (err : Int) :
    LookAside.step (view c.identity s) .fail = some (view c.identity (s.put n c (.returned pid err))) := by
  rw [LookAside.step_fail (countAt_pos here computes), view_own here, computes, stores]
  rfl

/-- An operation of the cache leaves the calls as they are. -/
theorem view_evict (lookup : DefaultIdentityLookup) :
    view i (s.evict lookup) =
      { view i s with
        stored := (lookup.cached i).isSome
        evicted := s.evicted i + if (s.lookup.cached i).isSome ∧ lookup.cached i = none then 1 else 0 } := rfl

/-- What is as it was has not been taken out. -/
theorem present : ¬((s.lookup.cached i).isSome ∧ s.lookup.cached i = none) := by
  rintro ⟨there, gone⟩
  rw [gone] at there
  cases there

/-- **What an identity sees** of a step: nothing, or a step of its entry. -/
theorem seen_step (there : Initialized s) (moved : step s l = some s') (i : String) :
    view i s' = view i s ∨ ∃ e, LookAside.step (view i s) e = some (view i s') := by
  cases step_cases moved with
  | get identity kind => exact .inl (by simp [view, countAt, activations, List.countP_append, Phase.computes, Phase.stores])
  | hit n c here at_ pid found => exact .inl (view_same here _ (by rw [at_]; rfl) (by rw [at_]; rfl))
  | found n around c here at_ member owner => exact .inl (view_same here _ (by rw [at_]; rfl) (by rw [at_]; rfl))
  | nobody n around c here at_ err owner =>
    by_cases own : c.identity = i
    · subst own
      exact .inr ⟨.fail, seen_fail here (by rw [at_]; rfl) (by rw [at_]; rfl) none err⟩
    · exact .inl (view_other here _ own)
  | refused n pid err c here address at_ =>
    by_cases own : c.identity = i
    · subst own
      exact .inr ⟨.fail, seen_fail here (by rw [at_]; rfl) (by rw [at_]; rfl) none err⟩
    · exact .inl (view_other here _ own)
  | miss n c here at_ absent =>
    by_cases own : c.identity = i
    · subst own
      refine .inr ⟨.miss, ?_⟩
      have missing : (view c.identity s).stored = false := by simp [view, absent]
      rw [LookAside.step_miss missing, view_own here, at_]
      rfl
    · exact .inl (view_other here _ own)
  | spawned n pid c here address at_ =>
    have others : view i { s.put n c (.adding pid) with activated := s.activated ++ [(c.identity, pid)] } =
        { view i (s.put n c (.adding pid)) with computed := activations i s + if c.identity = i then 1 else 0 } := by
      simp [view, activations, countAt, List.countP_append, List.countP_cons]
    rw [others]
    by_cases own : c.identity = i
    · subst own
      refine .inr ⟨.compute, ?_⟩
      rw [LookAside.step_compute (countAt_pos here (by rw [at_]; rfl)), view_own here, at_, if_pos rfl]
      rfl
    · refine .inl ?_
      rw [view_other here _ own, if_neg own]
      rfl
  | add n c here pid at_ =>
    have others : view i { s.put n c (.returned (some pid) 0) with lookup := s.lookup.add c.identity pid } =
        { view i (s.put n c (.returned (some pid) 0)) with stored := (view i s).stored || c.identity = i } := by
      obtain ⟨cache, some_⟩ := Option.isSome_iff_exists.1 there
      by_cases own : c.identity = i
      · simp [view, countAt, activations, own, some_]
      · simp [view, countAt, activations, own, Ne.symm own]
    rw [others]
    by_cases own : c.identity = i
    · subst own
      refine .inr ⟨.store, ?_⟩
      rw [LookAside.step_store (countAt_pos here (by rw [at_]; rfl)), view_own here, at_]
      simp [Phase.stores, Phase.computes]
    · refine .inl ?_
      rw [view_other here _ own]
      simp [own]
  | cacheAdd identity pid =>
    obtain ⟨cache, some_⟩ := Option.isSome_iff_exists.1 there
    by_cases own : i = identity
    · subst own
      refine .inr ⟨.fill, ?_⟩
      simp only [view_evict, DefaultIdentityLookup.cached_add, some_, if_true, Option.map_some, reduceCtorEq, and_false, if_false]
      rfl
    · refine .inl ?_
      rw [view_evict, DefaultIdentityLookup.cached_add, if_neg own, if_neg present]
      rfl
  | evict l lookup fewer =>
    rw [view_evict]
    rcases fewer.2 i with same | gone
    · refine .inl ?_
      rw [same, if_neg present]
      rfl
    · cases was : (s.lookup.cached i).isSome with
      | false =>
        refine .inl ?_
        simp [view, gone, was]
      | true =>
        refine .inr ⟨.evict, ?_⟩
        rw [LookAside.step_evict was]
        simp [view, gone, was]

/-- A run of the lookups is, for each identity, a run of its entry. -/
theorem seen_run {ok : State → Label → Prop} (ok' : LookAside → LookAside.Event → Prop) (i : String)
    (allowed : ∀ s l e, ok s l → ok' (view i s) e) (there : Initialized s) {ls : List Label} (run : Machine.Run step ok s ls t) :
    ∃ es, Machine.Run LookAside.step ok' (view i s) es (view i t) := by
  refine run.project (keeps_initialized ok) (view i) ?_ there
  intro s l s' there may moved
  rcases seen_step there moved i with same | ⟨e, taken⟩
  · rw [same]
    exact ⟨[], .nil _⟩
  · exact ⟨[e], .cons taken (allowed s l e may) (.nil _)⟩

theorem initialized_run {ok : State → Label → Prop} {ls : List Label} (run : Machine.Run step ok start ls s) : Initialized s :=
  run.keeps (keeps_initialized ok) rfl

/-- **How often an identity is activated**: where never more than `k` calls of `Get` have missed it at once, at most `k` times for
each time that it was taken out of the cache, and `k` times more. -/
theorem activations_le {k : Nat} {i : String} {ls : List Label} (run : Machine.Run step (fun s _ => pending i s ≤ k) start ls s) :
    activations i s ≤ k * (s.evicted i + 1) := by
  obtain ⟨es, entry⟩ := seen_run (fun v _ => v.pending ≤ k) i (fun _ _ _ few => few) (show Initialized start from rfl) run
  exact LookAside.computed_le entry

/-- Two calls for one identity miss it at once, and it is activated twice. -/
theorem activations_le_twice : ∃ s, activations "x" s = 2 ∧ s.evicted "x" = 0 ∧ activations "x" s ≤ 2 * (s.evicted "x" + 1) := by
  let around := DefaultIdentityLookup.alone (none, 0)
  have run : ∃ s, (activations "x" s = 2 ∧ s.evicted "x" = 0) ∧ Machine.Run step (fun s _ => decide (pending "x" s ≤ 2) = true) start
      [.get "x" "Account", .get "x" "Account", .look 0, .look 1, .find 0 around, .find 1 around,
        .answer 0 (some ⟨1, "here:1", "x"⟩) 0, .add 0, .answer 1 (some ⟨2, "here:1", "x"⟩) 0, .add 1] s :=
    ⟨_, ⟨rfl, rfl⟩, Machine.run_of_execChecked rfl⟩
  obtain ⟨s, ⟨twice, never⟩, run⟩ := run
  exact ⟨s, twice, never, activations_le (run.mono fun _ _ few => of_decide_eq_true few)⟩

/-! ## A cached identity -/

/-- What the calls answer for an identity that is cached; `known` are those that were there before. -/
structure Sticky (i : String) (pid : PID) (known : List GetCall) (s : State) : Prop where
  cached : s.lookup.cached i = some pid
  calls : ∀ (n : Nat) (c : GetCall), s.calls[n]? = some c → c.identity = i →
    (known[n]? = some c ∧ ∃ pid err, c.phase = .returned pid err) ∨ c.phase = .looking ∨ c.phase = .returned (some pid) 0

variable {known : List GetCall} {pid : PID}

/-- No call for the identity is between the cache and `SpawnNamed`. -/
theorem Sticky.absurd (sticky : Sticky i pid known s) (here : s.calls[n]? = some c) (busy : c.phase ≠ .looking)
    (open_ : ∀ pid err, c.phase ≠ .returned pid err) : ¬c.identity = i := by
  intro own
  rcases sticky.calls n c here own with ⟨-, pid, err, ended⟩ | looking | returned
  · exact open_ pid err ended
  · exact busy looking
  · exact open_ _ _ returned

/-- A call goes on, to the right answer if it is one for the identity. -/
theorem Sticky.put (sticky : Sticky i pid known s) (here : s.calls[n]? = some c) {phase : Phase}
    (right : c.identity = i → phase = .returned (some pid) 0) : Sticky i pid known (s.put n c phase) where
  cached := sticky.cached
  calls := by
    intro m c' at_ own
    by_cases same : n = m
    · subst same
      rw [put_calls here] at at_
      cases at_
      exact .inr (.inr (right own))
    · rw [State.put, List.getElem?_set_ne same] at at_
      exact sticky.calls m c' at_ own

theorem sticky_step (sticky : Sticky i pid known s) (moved : step s l = some s') (kept : s'.evicted i = s.evicted i)
    (alone : ∀ other, l ≠ .cacheAdd i other) : Sticky i pid known s' := by
  cases step_cases moved with
  | get identity kind =>
    refine ⟨sticky.cached, fun m c here own => ?_⟩
    rcases Nat.lt_or_ge m s.calls.length with before | after
    · rw [List.getElem?_append_left before] at here
      exact sticky.calls m c here own
    · rw [List.getElem?_append_right after, List.getElem?_singleton] at here
      split at here
      · cases here
        exact .inr (.inl rfl)
      · cases here
  | hit n c here at_ found there =>
    refine sticky.put here fun own => ?_
    rw [own, sticky.cached] at there
    cases there
    rfl
  | miss n c here at_ absent =>
    refine sticky.put here fun own => ?_
    rw [own, sticky.cached] at absent
    cases absent
  | found n around c here at_ | nobody n around c here at_ =>
    exact sticky.put here fun own => (sticky.absurd here (by simp [at_]) (by simp [at_]) own).elim
  | refused n answer err c here address at_ =>
    exact sticky.put here fun own => (sticky.absurd here (by simp [at_]) (by simp [at_]) own).elim
  | spawned n answer c here address at_ =>
    have other := sticky.absurd here (by simp [at_]) (by simp [at_])
    have moved : Sticky i pid known (s.put n c (.adding answer)) := sticky.put here fun own => (other own).elim
    exact ⟨moved.cached, moved.calls⟩
  | add n c here answer at_ =>
    have other := sticky.absurd here (by simp [at_]) (by simp [at_])
    have moved : Sticky i pid known (s.put n c (.returned (some answer) 0)) := sticky.put here fun own => (other own).elim
    refine ⟨?_, moved.calls⟩
    rw [DefaultIdentityLookup.cached_add, if_neg fun own => other own.symm]
    exact sticky.cached
  | cacheAdd identity other =>
    refine ⟨?_, sticky.calls⟩
    have own : i ≠ identity := fun own => alone other (by rw [own])
    simp only [State.evict, DefaultIdentityLookup.cached_add, if_neg own]
    exact sticky.cached
  | evict l lookup fewer =>
    refine ⟨?_, sticky.calls⟩
    rcases fewer.2 i with same | gone
    · exact same.trans sticky.cached
    · -- then it would have been counted
      simp [State.evict, sticky.cached, gone] at kept

theorem evicted_mono {ok : State → Label → Prop} (there : Initialized s) {ls : List Label} (run : Machine.Run step ok s ls t) (i : String) :
    s.evicted i ≤ t.evicted i := by
  obtain ⟨es, entry⟩ := seen_run Machine.free i (fun _ _ _ _ => True.intro) there run
  exact (LookAside.counts_mono entry).2

/-- A call for the identity that is not pending has not looked yet, or has returned. -/
theorem sticky_of_idle (cached : s.lookup.cached i = some pid) (idle : pending i s = 0) : Sticky i pid s.calls s := by
  refine ⟨cached, fun n c here own => ?_⟩
  subst own
  have computes : ¬c.phase.computes = true := fun busy => by
    have some_ := countAt_pos here busy
    unfold pending at idle
    omega
  have stores : ¬c.phase.stores = true := fun busy => by
    have some_ := countAt_pos here busy
    unfold pending at idle
    omega
  cases at_ : c.phase with
  | looking => exact .inr (.inl rfl)
  | missed | asking => exact (computes (by rw [at_]; rfl)).elim
  | adding => exact (stores (by rw [at_]; rfl)).elim
  | returned answer err => exact .inl ⟨here, answer, err, rfl⟩

/-- **A cached identity stays where it is.** From a state in which it is cached and no call is about to activate it, and until it is
taken out of the cache or somebody calls `PidCache::Add` for it, every call for it answers the cached PID, under whichever kind it
asks and whatever has become of the members, and it is not activated again. -/
theorem answers_cached {before later : List Label} (run : Machine.Run step Machine.free start before s)
    (cached : s.lookup.cached i = some pid) (idle : pending i s = 0) (rest : Machine.Run step Machine.free s later t)
    (kept : t.evicted i = s.evicted i) (alone : ∀ other, .cacheAdd i other ∉ later) :
    activations i t = activations i s ∧ t.lookup.cached i = some pid ∧ ∀ (n : Nat) (c : GetCall), t.calls[n]? = some c → c.identity = i →
      s.calls[n]? = some c ∨ c.phase = .looking ∨ c.phase = .returned (some pid) 0 := by
  have there := initialized_run run
  have sticky : Sticky i pid s.calls t := by
    have first := sticky_of_idle cached idle
    generalize s.calls = known at first
    clear run idle cached
    induction rest with
    | nil => exact first
    | cons moved allowed rest ih =>
      have there' := keeps_initialized Machine.free _ _ _ there allowed moved
      have more := evicted_mono there' rest i
      have more' := evicted_mono there (.cons moved allowed (.nil _) : Machine.Run step Machine.free _ _ _) i
      have next := sticky_step first moved (by omega) fun other same => alone other (same ▸ List.mem_cons_self)
      exact ih (by omega) (fun other member => alone other (List.mem_cons_of_mem _ member)) there' next
  refine ⟨?_, sticky.cached, fun n c here own => ?_⟩
  · obtain ⟨es, entry⟩ := seen_run Machine.free i (fun _ _ _ _ => True.intro) there rest
    have less := (LookAside.late_computed entry (by simp [view, cached]) kept).2
    have more := (LookAside.counts_mono entry).1
    have none_ : countAt Phase.computes i s = 0 := Nat.eq_zero_of_add_eq_zero_right idle
    simp only [view, none_] at less more
    omega
  · rcases sticky.calls n c here own with ⟨was, -⟩ | rest
    · exact .inl was
    · exact .inr rest

/-- After the member is gone a call for another kind answers the PID on it. -/
theorem answers_cached_gone : ∃ s t, t.calls[1]? = some ⟨"x", "Cart", .returned (some ⟨1, "here:1", "x"⟩) 0⟩ ∧
    activations "x" t = activations "x" s ∧ t.lookup.cached "x" = some ⟨1, "here:1", "x"⟩ ∧
    ∀ (n : Nat) (c : GetCall), t.calls[n]? = some c → c.identity = "x" →
      s.calls[n]? = some c ∨ c.phase = .looking ∨ c.phase = .returned (some ⟨1, "here:1", "x"⟩) 0 := by
  let around := DefaultIdentityLookup.alone (none, 0)
  let gone : Surroundings := { around with memberList := some [] }
  have run : ∃ s, (s.lookup.cached "x" = some ⟨1, "here:1", "x"⟩ ∧ pending "x" s = 0 ∧ s.evicted "x" = 0 ∧ ∃ t,
      (t.calls[1]? = some ⟨"x", "Cart", .returned (some ⟨1, "here:1", "x"⟩) 0⟩ ∧ t.evicted "x" = 0) ∧
      Machine.Run step Machine.free s [.get "x" "Cart", .look 1, .get "y" "Cart", .look 2, .find 2 gone] t) ∧
      Machine.Run step Machine.free start
        [.get "x" "Account", .look 0, .find 0 around, .answer 0 (some ⟨1, "here:1", "x"⟩) 0, .add 0] s :=
    ⟨_, ⟨rfl, rfl, rfl, _, ⟨rfl, rfl⟩, Machine.free_of_exec rfl⟩, Machine.free_of_exec rfl⟩
  obtain ⟨s, ⟨cached, idle, none_, t, ⟨answered, kept⟩, rest⟩, run⟩ := run
  exact ⟨s, t, answered, answers_cached run cached idle rest (kept.trans none_.symm) (by simp)⟩

end Lookups

end Protoactor.Cluster
