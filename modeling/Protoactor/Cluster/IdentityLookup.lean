import Mathlib.Data.List.Induction
import Protoactor.Cluster.Messages

/-!
# Identity lookup (`src/cluster/identity_lookup.cpp`, `src/cluster/pid_cache.cpp`)

`DefaultIdentityLookup` with the cache of its cluster. What `Get` finds besides in the cluster, the
members, the hash and the answer of `Remote::SpawnNamed`, is its surroundings and may differ from call
to call. An error code is its value, zero for success.

The cache knows identities and no kinds, and an answer of `SpawnNamed` without a PID is handed on with
its error code, also where that is success. So the lookup answers for the kind that was asked just
where nobody asks for a cached identity under another kind (`lookup_sound`).
-/

namespace Protoactor.Cluster
set_option autoImplicit false
open Actor (PID)

/-- `std::errc`. -/
def invalidArgument : Int := 22
def noSuchDevice : Int := 19
def networkUnreachable : Int := 101

def Member.address (m : Member) : String := m.host ++ ":" ++ toString m.port

/-- What a call of `Get` is given and finds: whether its `cluster` is non-null, `GetMemberList` with
`GetMembers`, whether there is a `GetRemote`, `std::hash`, and what `SpawnNamed` would answer. -/
structure Surroundings where
  cluster : Bool
  memberList : Option (List (Option Member))
  remote : Bool
  hash : String → Nat
  answer : Option PID × Int

/-- `cache` is `GetPidCache` of the cluster; `cluster` tells whether `Setup` has set `cluster_` to it. -/
structure DefaultIdentityLookup where
  cluster : Bool
  cache : Option (String → Option PID)

/-- What `Get` returns, the call of `SpawnNamed` it makes, and the lookup afterwards. -/
structure Got where
  pid : Option PID
  err : Int
  asked : Option (String × String × String)
  lookup : DefaultIdentityLookup

namespace DefaultIdentityLookup

/-- `PidCache::Get`, if there is a cache. -/
def cached (identity : String) (s : DefaultIdentityLookup) : Option PID := s.cache.bind (· identity)

/-- `PidCache::Add`. -/
def add (identity : String) (pid : PID) (s : DefaultIdentityLookup) : DefaultIdentityLookup :=
  { s with cache := s.cache.map fun cache i => if i = identity then some pid else cache i }

/-- `PidCache::Remove`. -/
def remove (identity : String) (s : DefaultIdentityLookup) : DefaultIdentityLookup :=
  { s with cache := s.cache.map fun cache i => if i = identity then none else cache i }

/-- The member that owns the identity, or the error that ends the search. -/
def owner (identity kind : String) (around : Surroundings) : Except Int Member :=
  match around.memberList with
  | none => .error noSuchDevice
  | some members =>
    if members = [] then .error networkUnreachable
    else
      match (members[around.hash (identity ++ kind) % members.length]?).join with
      | none => .error noSuchDevice
      | some member => if around.remote then .ok member else .error noSuchDevice

def get (around : Surroundings) (identity kind : String) (s : DefaultIdentityLookup) : Got :=
  if ¬ around.cluster then ⟨none, invalidArgument, none, s⟩
  else
    match s.cached identity with
    | some pid => ⟨some pid, 0, none, s⟩
    | none =>
      match owner identity kind around with
      | .error err => ⟨none, err, none, s⟩
      | .ok member =>
        let asked := some (member.address, kind, identity)
        match around.answer with
        | (none, err) => ⟨none, err, asked, s⟩
        | (some pid, err) => if err ≠ 0 then ⟨none, err, asked, s⟩ else ⟨some pid, 0, asked, s.add identity pid⟩

def removeCache (identity _kind : String) (s : DefaultIdentityLookup) : DefaultIdentityLookup :=
  if s.cluster then s.remove identity else s

/-! ## What a call can do -/

/-- The lookup finds the PID in the cache. -/
def Hits (s : DefaultIdentityLookup) (around : Surroundings) (identity : String) (pid : PID) : Prop :=
  around.cluster = true ∧ s.cached identity = some pid

/-- The lookup comes to `SpawnNamed`. -/
def Reaches (s : DefaultIdentityLookup) (around : Surroundings) (identity kind : String) : Prop :=
  around.cluster = true ∧ s.cached identity = none ∧ ∃ member, owner identity kind around = .ok member

theorem get_hit {s : DefaultIdentityLookup} {around : Surroundings} {identity kind : String} {pid : PID}
    (hits : s.Hits around identity pid) : s.get around identity kind = ⟨some pid, 0, none, s⟩ := by
  simp [get, hits.1, hits.2]

/-- `SpawnNamed` has answered neither a PID nor an error. -/
theorem get_unanswered {s : DefaultIdentityLookup} {around : Surroundings} {identity kind : String}
    (reaches : s.Reaches around identity kind) (answer : around.answer = (none, 0)) :
    (s.get around identity kind).pid = none ∧ (s.get around identity kind).err = 0 := by
  obtain ⟨given, absent, member, found⟩ := reaches
  simp [get, given, absent, found, answer]

/-- The four ways a lookup ends. -/
inductive Looked (s : DefaultIdentityLookup) (around : Surroundings) (identity kind : String) (got : Got) : Prop where
  | hit {pid : PID} (hits : s.Hits around identity pid) (pids : got.pid = some pid) (err : got.err = 0) (same : got.lookup = s)
  | spawned {pid : PID} (reaches : s.Reaches around identity kind) (answer : around.answer = (some pid, 0))
      (pids : got.pid = some pid) (err : got.err = 0) (added : got.lookup = s.add identity pid)
  | unanswered (reaches : s.Reaches around identity kind) (answer : around.answer = (none, 0)) (pids : got.pid = none)
      (err : got.err = 0) (same : got.lookup = s)
  | refused (pids : got.pid = none) (err : got.err ≠ 0) (same : got.lookup = s)

theorem owner_error {identity kind : String} {around : Surroundings} {err : Int} (error : owner identity kind around = .error err) :
    err ≠ 0 := by
  unfold owner at error
  repeat' split at error
  all_goals cases error
  all_goals decide

theorem looked (s : DefaultIdentityLookup) (around : Surroundings) (identity kind : String) :
    Looked s around identity kind (s.get around identity kind) := by
  unfold get
  by_cases given : around.cluster = true
  · rw [if_neg (not_not_intro given)]
    cases found : s.cached identity with
    | some pid => exact .hit ⟨given, found⟩ rfl rfl rfl
    | none =>
      cases search : owner identity kind around with
      | error err => exact .refused rfl (owner_error search) rfl
      | ok member =>
        have reaches : s.Reaches around identity kind := ⟨given, found, member, search⟩
        rcases reply : around.answer with ⟨pid, err⟩
        by_cases success : err = 0
        · subst success
          cases pid with
          | none => exact .unanswered reaches reply rfl rfl rfl
          | some pid => exact .spawned reaches reply rfl rfl rfl
        · cases pid with
          | none => exact .refused rfl success rfl
          | some pid =>
            simp only [if_pos success]
            exact .refused rfl success rfl
  · rw [if_pos given]
    have invalid : invalidArgument ≠ 0 := by decide
    exact .refused rfl invalid rfl

@[simp] theorem cached_add (identity : String) (pid : PID) (s : DefaultIdentityLookup) (i : String) :
    (s.add identity pid).cached i = if i = identity then s.cache.map fun _ => pid else s.cached i := by
  unfold cached add
  cases s.cache with
  | none => simp
  | some cache => by_cases own : i = identity <;> simp [own]

@[simp] theorem cached_remove (identity : String) (s : DefaultIdentityLookup) (i : String) :
    (s.remove identity).cached i = if i = identity then none else s.cached i := by
  unfold cached remove
  cases s.cache with
  | none => simp
  | some cache => by_cases own : i = identity <;> simp [own]

/-! ## Histories -/

inductive Call where
  | get (identity kind : String) (around : Surroundings)
  | removeCache (identity kind : String)

/-- `filledBy` is auxiliary: the kind for which the cached PID of an identity was asked. -/
structure Session where
  lookup : DefaultIdentityLookup
  filledBy : String → Option String

def Session.step (s : Session) : Call → Session
  | .get identity kind around =>
    let got := s.lookup.get around identity kind
    { lookup := got.lookup
      filledBy := fun i =>
        if i = identity ∧ s.lookup.cached identity = none ∧ got.pid.isSome then some kind else s.filledBy i }
  | .removeCache identity kind =>
    { lookup := s.lookup.removeCache identity kind
      filledBy := fun i => if i = identity then none else s.filledBy i }

/-- Call after call on a lookup that is set up, with nothing in the cache of its cluster, if it has one. -/
def run (cached : Bool) (calls : List Call) : Session :=
  calls.foldl Session.step ⟨⟨true, if cached then some fun _ => none else none⟩, fun _ => none⟩

/-- The call answered the PID of a `SpawnNamed` for the pair, and the pair was not removed since. -/
def Produced (cached : Bool) (history : List Call) (identity kind : String) (pid : PID) : Prop :=
  ∃ before around after, history = before ++ .get identity kind around :: after ∧
    (run cached before).lookup.Reaches around identity kind ∧ around.answer = (some pid, 0) ∧ .removeCache identity kind ∉ after

/-- **Answers for what is asked**: each `Get` returns a PID with success or an error without a PID, and a PID
that `SpawnNamed` has produced for the same identity and kind since the pair was last removed. -/
def Answers (cached : Bool) (calls : List Call) : Prop :=
  ∀ before identity kind around after, calls = before ++ .get identity kind around :: after →
    let got := (run cached before).lookup.get around identity kind
    (got.pid.isSome = true ↔ got.err = 0) ∧
      ∀ pid, got.pid = some pid → Produced cached (before ++ [.get identity kind around]) identity kind pid

/-- `SpawnNamed` answers with a PID or with an error where it is called, and no identity is asked for that is
cached for another kind. -/
def Separate (cached : Bool) (calls : List Call) : Prop :=
  ∀ before identity kind around after, calls = before ++ .get identity kind around :: after →
    ((run cached before).lookup.Reaches around identity kind → around.answer ≠ (none, 0)) ∧
      ∀ pid, (run cached before).lookup.Hits around identity pid → (run cached before).filledBy identity = some kind

theorem run_concat (cached : Bool) (calls : List Call) (call : Call) :
    run cached (calls ++ [call]) = (run cached calls).step call := by
  unfold run
  rw [List.foldl_append]
  rfl

/-- A `Get` leaves all as it is, unless it caches what `SpawnNamed` has answered. -/
theorem step_get (s : Session) (identity kind : String) (around : Surroundings) :
    s.step (.get identity kind around) = s ∨
      s.lookup.Reaches around identity kind ∧ ∃ pid, around.answer = (some pid, 0) ∧
        s.step (.get identity kind around) =
          ⟨s.lookup.add identity pid, fun i => if i = identity then some kind else s.filledBy i⟩ := by
  have kept : ∀ {got : Got}, s.lookup.get around identity kind = got → got.lookup = s.lookup →
      ¬ (s.lookup.cached identity = none ∧ got.pid.isSome = true) → s.step (.get identity kind around) = s := by
    rintro got rfl same old
    simp only [Session.step, same]
    congr 1
    funext i
    exact if_neg fun new => old new.2
  cases looked s.lookup around identity kind with
  | hit hits pids err same => exact .inl (kept rfl same fun new => by rw [hits.2] at new; cases new.1)
  | spawned reaches answer pids err added =>
    refine .inr ⟨reaches, _, answer, ?_⟩
    simp only [Session.step, added, pids, reaches.2.1, Option.isSome_some, and_true]
  | unanswered reaches answer pids err same => exact .inl (kept rfl same fun new => by rw [pids] at new; cases new.2)
  | refused pids err same => exact .inl (kept rfl same fun new => by rw [pids] at new; cases new.2)

theorem Produced.concat {cached : Bool} {history : List Call} {identity kind : String} {pid : PID}
    (produced : Produced cached history identity kind pid) {call : Call} (other : call ≠ .removeCache identity kind) :
    Produced cached (history ++ [call]) identity kind pid := by
  obtain ⟨before, around, after, rfl, reaches, answer, since⟩ := produced
  refine ⟨before, around, after ++ [call], by simp, reaches, answer, fun member => ?_⟩
  rcases List.mem_append.1 member with old | new
  · exact since old
  · exact other (List.mem_singleton.1 new).symm

/-- What a PID in the cache tells: for which kind it was asked, and that `SpawnNamed` produced it. -/
theorem cached_run (cached : Bool) (calls : List Call) :
    (run cached calls).lookup.cluster = true ∧
    ∀ identity pid, (run cached calls).lookup.cached identity = some pid →
      ∃ kind, (run cached calls).filledBy identity = some kind ∧ Produced cached calls identity kind pid := by
  induction calls using List.reverseRecOn with
  | nil => exact ⟨rfl, fun identity pid there => by cases cached <;> cases there⟩
  | append_singleton calls call ih =>
    obtain ⟨setUp, ih⟩ := ih
    rw [run_concat]
    cases call with
    | get i k around =>
      have different : ∀ identity kind, Call.get i k around ≠ .removeCache identity kind := fun _ _ => by simp
      rcases step_get (run cached calls) i k around with same | ⟨reaches, pid, answer, next⟩
      · rw [same]
        refine ⟨setUp, fun identity pid there => ?_⟩
        obtain ⟨kind, filled, produced⟩ := ih identity pid there
        exact ⟨kind, filled, produced.concat (different _ _)⟩
      · rw [next]
        refine ⟨setUp, fun identity pid' there => ?_⟩
        simp only [cached_add] at there ⊢
        by_cases own : identity = i
        · subst own
          rw [if_pos rfl] at there
          obtain ⟨_, _, rfl⟩ := Option.map_eq_some_iff.1 there
          exact ⟨k, if_pos rfl, calls, around, [], rfl, reaches, answer, List.not_mem_nil⟩
        · rw [if_neg own] at there
          obtain ⟨kind, filled, produced⟩ := ih identity pid' there
          exact ⟨kind, by rw [if_neg own, filled], produced.concat (different _ _)⟩
    | removeCache i k =>
      simp only [Session.step, removeCache, setUp, if_true, cached_remove]
      refine ⟨setUp, fun identity pid there => ?_⟩
      by_cases own : identity = i
      · rw [if_pos own] at there
        cases there
      · rw [if_neg own] at there ⊢
        obtain ⟨kind, filled, produced⟩ := ih identity pid there
        refine ⟨kind, filled, produced.concat fun same => ?_⟩
        cases same
        exact own rfl

/-- No PID is the answer to two calls of `SpawnNamed`. -/
def Fresh (cached : Bool) (calls : List Call) : Prop :=
  ∀ before before' identity identity' kind kind' around around' after after' pid,
    calls = before ++ .get identity kind around :: after → calls = before' ++ .get identity' kind' around' :: after' →
    (run cached before).lookup.Reaches around identity kind → (run cached before').lookup.Reaches around' identity' kind' →
    around.answer = (some pid, 0) → around'.answer = (some pid, 0) → before = before'

theorem answers_of_separate {cached : Bool} {calls : List Call} (separate : Separate cached calls) : Answers cached calls := by
  intro before identity kind around after split
  obtain ⟨answered, own⟩ := separate before identity kind around after split
  obtain ⟨_, produced⟩ := cached_run cached before
  have different : Call.get identity kind around ≠ .removeCache identity kind := by simp
  cases looked (run cached before).lookup around identity kind with
  | hit hits pids err same =>
    refine ⟨by simp [pids, err], fun pid' found => ?_⟩
    rw [pids] at found
    cases found
    obtain ⟨kind', filled, produced⟩ := produced identity _ hits.2
    rw [own _ hits] at filled
    cases filled
    exact produced.concat different
  | spawned reaches answer pids err added =>
    refine ⟨by simp [pids, err], fun pid' found => ?_⟩
    rw [pids] at found
    cases found
    exact ⟨before, around, [], rfl, reaches, answer, List.not_mem_nil⟩
  | unanswered reaches answer pids err same => exact absurd answer (answered reaches)
  | refused pids err same => exact ⟨by simp [pids, err], fun pid' found => by rw [pids] at found; cases found⟩

theorem separate_of_answers {cached : Bool} {calls : List Call} (fresh : Fresh cached calls) (answers : Answers cached calls) :
    Separate cached calls := by
  intro before identity kind around after split
  obtain ⟨pidOrErr, produced⟩ := answers before identity kind around after split
  constructor
  · intro reaches answer
    obtain ⟨none_, success⟩ := get_unanswered reaches answer
    exact absurd (pidOrErr.2 success) (by simp [none_])
  · intro pid hits
    -- the PID has been produced once for the kind that filled the cache, and once for this one
    obtain ⟨kind', filled, early, around', since, here, reaches', answer', _⟩ := (cached_run cached before).2 identity pid hits.2
    obtain ⟨first, around₁, later, whole, reaches₁, answer₁, _⟩ := produced pid (by rw [get_hit hits])
    have there : calls = first ++ .get identity kind around₁ :: (later ++ after) := by
      rw [split, List.append_cons, whole, List.append_assoc, List.cons_append]
    have here' : calls = early ++ .get identity kind' around' :: (since ++ .get identity kind around :: after) := by
      rw [split, here, List.append_assoc, List.cons_append]
    have same : first = early := fresh _ _ _ _ _ _ _ _ _ _ pid there here' reaches₁ reaches' answer₁ answer'
    subst same
    have heads := List.append_cancel_left (there.symm.trans here')
    simp only [List.cons.injEq, Call.get.injEq] at heads
    rw [filled, heads.1.2.1]

/-- **The answers are right** if `SpawnNamed` answers with a PID or with an error wherever it is called, and no
identity is asked for that is cached for another kind; if it never answers one PID twice, then only if. -/
theorem lookup_sound (cached : Bool) (calls : List Call) :
    (Separate cached calls → Answers cached calls) ∧ (Fresh cached calls → Answers cached calls → Separate cached calls) :=
  ⟨answers_of_separate, separate_of_answers⟩

/-- A cluster of one member, with a remote that answers as told. -/
def alone (answer : Option PID × Int) : Surroundings := ⟨true, some [some ⟨"a", "here", 1, []⟩], true, fun _ => 0, answer⟩

theorem lookup_sound_twice :
    Answers true [.get "x" "Account" (alone (some ⟨1, "here:1", "x"⟩, 0)), .get "x" "Account" (alone (none, 0))] := by
  refine (lookup_sound true _).1 fun before identity kind around after split => ?_
  cases before with
  | nil =>
    cases split
    exact ⟨fun _ => by simp [alone], fun pid hits => absurd hits.2 (by simp [run, cached])⟩
  | cons first rest =>
    cases rest with
    | nil =>
      cases split
      exact ⟨fun reaches => absurd reaches.2.1 (by decide), fun pid hits => rfl⟩
    | cons second rest => simp at split

/-- One identity is asked for under two kinds, and the second is answered the actor of the first. -/
theorem not_answers_kinds :
    ¬ Answers true [.get "x" "Account" (alone (some ⟨1, "here:1", "x"⟩, 0)), .get "x" "Cart" (alone (some ⟨2, "here:1", "x"⟩, 0))] := by
  intro answers
  obtain ⟨before, around, after, split, _, answer, _⟩ :=
    (answers [.get "x" "Account" (alone (some ⟨1, "here:1", "x"⟩, 0))] _ _ _ [] rfl).2 ⟨1, "here:1", "x"⟩ rfl
  -- the only call for a cart was answered another PID
  have inside : Call.get "x" "Cart" around ∈ [Call.get "x" "Account" (alone (some ⟨1, "here:1", "x"⟩, 0)),
      .get "x" "Cart" (alone (some ⟨2, "here:1", "x"⟩, 0))] := by
    have whole := List.mem_append_right before (List.mem_cons_self : Call.get "x" "Cart" around ∈ _ :: after)
    rwa [← split] at whole
  have same : around = alone (some ⟨2, "here:1", "x"⟩, 0) := by simpa using inside
  rw [same] at answer
  exact absurd answer (by simp [alone])

end DefaultIdentityLookup

end Protoactor.Cluster
