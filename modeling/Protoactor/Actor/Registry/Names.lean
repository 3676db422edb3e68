import Protoactor.Lib.Numeral
import Protoactor.Lib.Pool
import Protoactor.Actor.Registry
import Protoactor.Actor.Future

/-!
# Generated names

`Uint64ToID` writes the counter in base 64 and ends it with a `$`; a prefix stands in
front of the digits with nothing in between. So a prefix can be read as high digits of a
later counter: the ids of two calls are equal exactly when the earlier counter is the low
digits of the later one and the earlier prefix is the later one followed by the high digits.
-/

namespace Protoactor.Actor
set_option autoImplicit false
open Lib

/-! ## The text of an id -/

theorem getElem?_digits {i : Nat} (low : i < 64) : DIGITS.toList[i]? = some (digit i) := by
  have length : DIGITS.toList.length = 64 := by decide
  rw [digit, List.getD_eq_getElem?_getD, List.getElem?_eq_getElem (length ▸ low), Option.getD_some]

theorem digit_distinct : Distinct digit 64 := by
  have different : DIGITS.toList.Nodup := by decide +kernel
  intro i low j low' same
  obtain ⟨bound, here⟩ := List.getElem?_eq_some_iff.1 (getElem?_digits low)
  obtain ⟨bound', there⟩ := List.getElem?_eq_some_iff.1 (getElem?_digits low')
  rw [← here, ← there] at same
  exact different.getElem_inj_iff.1 same

theorem numeral_small {n : Nat} (positive : 0 < n) (small : n < 64) : numeral digit 64 n = [digit n] := by
  simp [numeral, Nat.digits_of_lt 64 n (by omega) small]

theorem numeral_large {n : Nat} (large : 64 ≤ n) :
    numeral digit 64 n = numeral digit 64 (n / 64) ++ [digit (n % 64)] := by
  simp only [numeral, Nat.digits_def' (show 1 < 64 by decide) (show 0 < n by omega), List.reverse_cons, List.map_append,
    List.map_cons, List.map_nil]

theorem toNat_high (u : UInt64) : (u >>> 6).toNat = u.toNat / 64 := by
  rw [UInt64.toNat_shiftRight, Nat.shiftRight_eq_div_pow]
  rfl

theorem toNat_low (u : UInt64) : (u &&& 0x3f).toNat = u.toNat % 64 := by
  rw [UInt64.toNat_and]
  exact Nat.and_two_pow_sub_one_eq_mod u.toNat 6

/-- The loop of `Uint64ToID` writes the numeral in front of what it has. -/
theorem toList_uint64ToIDLoop (u : UInt64) (result : String) (positive : 0 < u.toNat) :
    (ProcessRegistry.uint64ToIDLoop u result).toList = numeral digit 64 u.toNat ++ result.toList := by
  induction u, result using ProcessRegistry.uint64ToIDLoop.induct with
  | case1 u result large ih =>
    have many : 64 ≤ u.toNat := UInt64.le_iff_toNat_le.1 large
    have high := toNat_high u
    rw [ProcessRegistry.uint64ToIDLoop, if_pos large, ih (by omega), high, toNat_low, numeral_large many]
    simp
  | case2 u result small =>
    have few : u.toNat < 64 := by
      rw [UInt64.le_iff_toNat_le] at small
      exact Nat.not_le.1 small
    rw [ProcessRegistry.uint64ToIDLoop, if_neg small, numeral_small positive few]
    simp

/-- **The id of a counter**: its base-64 digits, then `$`. -/
theorem toList_uint64ToID (u : UInt64) (positive : 0 < u.toNat) :
    (ProcessRegistry.uint64ToID u).toList = numeral digit 64 u.toNat ++ ['$'] := by
  rw [ProcessRegistry.uint64ToID, toList_uint64ToIDLoop u "$" positive]
  rfl

/-! ## The calls that draw a name -/

namespace Naming

inductive Call where
  | spawn
  | spawnPrefix (pre : String)
  | newFuture
  deriving DecidableEq, Repr

/-- `owned` says whether a `shared_ptr` owns a future while its constructor runs. -/
structure Session (P : Type) where
  registry : ProcessRegistry P
  /-- auxiliary: the ids handed to `Add`, with its answers -/
  adds : List (String × Bool)

namespace Session

variable {P : Type}

def start (deadLetter : P) : Session P := ⟨((ProcessRegistry.new deadLetter).add deadLetter "deadletter").2, []⟩

/-- A call of `Add`. -/
def add (s : Session P) (process : P) (id : String) : Session P :=
  let (added, registry) := s.registry.add process id
  ⟨registry, s.adds ++ [(id, added)]⟩

/-- `RootContext::SpawnNamed` with the default spawner, as far as the registry goes. -/
def spawnNamed (s : Session P) (process : P) (id : String) : Session P := s.add process id

/-- `NextID`. -/
def nextID (s : Session P) : String × Session P :=
  let (id, registry) := s.registry.nextID
  (id, { s with registry := registry })

/-- `Spawn`, `SpawnPrefix` and `NewFuture`; a spawn throws where `Add` answers false. -/
def perform (owned : Bool) (s : Session P) (process : P) : Call → Session P
  | .spawn =>
    let (id, s) := s.nextID
    s.spawnNamed process id
  | .spawnPrefix pre =>
    let (id, s) := s.nextID
    s.spawnNamed process (pre ++ id)
  | .newFuture =>
    let (id, s) := s.nextID
    match FutureImpl.sharedFromThis owned with
    | .ok _ => s.add process ("future" ++ id)
    | .error _ => s

/-- One call after the other, each with its own process. -/
def run (owned : Bool) (s : Session P) (calls : List (Call × P)) : Session P :=
  calls.foldl (fun s call => s.perform owned call.2 call.1) s

end Session

/-- What stands in front of the drawn id when it is handed to `Add`; a constructor that
throws hands none. -/
def Call.before (owned : Bool) : Call → Option String
  | .spawn => some ""
  | .spawnPrefix pre => some pre
  | .newFuture => if owned then some "future" else none

/-- The id that the `c`-th call hands to `Add`. -/
def Call.id (owned : Bool) (call : Call) (c : Nat) : Option String :=
  (call.before owned).map (· ++ ProcessRegistry.uint64ToID (.ofNat c))

/-- The ids handed to `Add` by calls that follow `n` others. -/
def ids (owned : Bool) (calls : List Call) (n : Nat) : List String :=
  (calls.zipIdx (n + 1)).filterMap fun call => call.1.id owned call.2

theorem ids_cons (owned : Bool) (call : Call) (calls : List Call) (n : Nat) :
    ids owned (call :: calls) n = (call.id owned (n + 1)).toList ++ ids owned calls (n + 1) := by
  rw [ids, List.zipIdx_cons, List.filterMap_cons]
  cases call.id owned (n + 1) <;> rfl

namespace Session

variable {P : Type} {owned : Bool} {s : Session P} {n : Nat}

theorem nextID_eq (counter : s.registry.sequenceId = .ofNat n) :
    s.nextID = (ProcessRegistry.uint64ToID (.ofNat (n + 1)), { s with registry := { s.registry with sequenceId := .ofNat (n + 1) } }) := by
  simp only [nextID, ProcessRegistry.nextID, counter]
  rw [UInt64.ofNat_add]
  rfl

/-- Every call is a draw and at most one `Add`. -/
theorem perform_eq (counter : s.registry.sequenceId = .ofNat n) (process : P) (call : Call) :
    s.perform owned process call = match call.id owned (n + 1) with
      | some id => s.nextID.2.add process id
      | none => s.nextID.2 := by
  cases call with
  | spawn => simp [perform, spawnNamed, Call.id, Call.before, nextID_eq counter]
  | spawnPrefix pre => simp [perform, spawnNamed, Call.id, Call.before, nextID_eq counter]
  | newFuture => cases owned <;> simp [perform, FutureImpl.sharedFromThis, Call.id, Call.before, nextID_eq counter]

/-- The registry has the names that were handed to `Add`, and the dead letters. -/
def Consistent (s : Session P) : Prop :=
  ∀ key, (s.registry.find key).isSome ↔ key = "deadletter" ∨ key ∈ s.adds.map Prod.fst

theorem consistent_start (deadLetter : P) : (start deadLetter).Consistent := by
  intro key
  have entries := ((ProcessRegistry.new deadLetter).add_eq deadLetter "deadletter").2 key
  simp only [start, entries, ProcessRegistry.find_new, and_true, List.map_nil, List.not_mem_nil, or_false]
  split <;> simp [*]

theorem consistent_add (consistent : s.Consistent) (process : P) (id : String) : (s.add process id).Consistent := by
  intro key
  have entries := (s.registry.add_eq process id).2 key
  have old := consistent key
  have own := consistent id
  simp only [add, entries, List.map_append, List.map_cons, List.map_nil, List.mem_append, List.mem_singleton]
  by_cases same : key = id
  · subst same
    cases entry : s.registry.find key <;> simp_all
  · simp [same, old]

theorem add_answer (consistent : s.Consistent) (process : P) {id : String} (free : id ∉ s.adds.map Prod.fst)
    (other : id ≠ "deadletter") : (s.add process id).adds = s.adds ++ [(id, true)] := by
  have absent : s.registry.find id = none := by
    rw [← Option.not_isSome_iff_eq_none, consistent id]
    exact fun taken => taken.elim other free
  simp [add, (s.registry.add_eq process id).1, absent]

/-- What one call does to the counter, to the names and to the answers. -/
theorem perform_step (owned : Bool) (counter : s.registry.sequenceId = .ofNat n) (consistent : s.Consistent) (process : P) (call : Call) :
    (s.perform owned process call).registry.sequenceId = .ofNat (n + 1) ∧
    (s.perform owned process call).Consistent ∧
    (s.perform owned process call).adds.map Prod.fst = s.adds.map Prod.fst ++ (call.id owned (n + 1)).toList ∧
    ((∀ id ∈ call.id owned (n + 1), id ∉ s.adds.map Prod.fst ∧ id ≠ "deadletter") → (∀ a ∈ s.adds, a.2 = true) →
      ∀ a ∈ (s.perform owned process call).adds, a.2 = true) := by
  have drawn : s.nextID.2.Consistent := consistent
  have advanced : s.nextID.2.registry.sequenceId = .ofNat (n + 1) := by rw [nextID_eq counter]
  have kept : s.nextID.2.adds = s.adds := rfl
  rw [perform_eq counter]
  cases name : call.id owned (n + 1) with
  | none => exact ⟨advanced, drawn, by simp [kept], fun _ all => all⟩
  | some id =>
    refine ⟨?_, consistent_add drawn process id, by simp [add, kept], fun fresh all => ?_⟩
    · have same : ∀ r : ProcessRegistry P, (r.add process id).2.sequenceId = r.sequenceId := by
        intro r
        unfold ProcessRegistry.add
        split <;> rfl
      exact (same _).trans advanced
    · obtain ⟨free, other⟩ := fresh id rfl
      rw [add_answer drawn process free other, kept]
      exact pool_all_new all rfl

/-- A run hands the drawn ids to `Add`, in order; if they are new and distinct, each is added. -/
theorem run_adds (owned : Bool) (calls : List (Call × P)) (counter : s.registry.sequenceId = .ofNat n) (consistent : s.Consistent) :
    (s.run owned calls).adds.map Prod.fst = s.adds.map Prod.fst ++ ids owned (calls.map Prod.fst) n ∧
    ((s.adds.map Prod.fst ++ ids owned (calls.map Prod.fst) n).Nodup → "deadletter" ∉ ids owned (calls.map Prod.fst) n →
      (∀ a ∈ s.adds, a.2 = true) → ∀ a ∈ (s.run owned calls).adds, a.2 = true) := by
  induction calls generalizing s n with
  | nil => exact ⟨by simp [run, ids], fun _ _ all => all⟩
  | cons call calls ih =>
    obtain ⟨counter', consistent', names, answers⟩ := perform_step owned counter consistent call.2 call.1
    obtain ⟨later, fine⟩ := ih counter' consistent'
    rw [names] at later fine
    rw [List.map_cons, ids_cons, ← List.append_assoc]
    refine ⟨later, fun distinct other all => fine distinct ?_ (answers ?_ all)⟩
    · exact fun member => other (List.mem_append_right _ member)
    · intro id drawn
      have member : id ∈ (call.1.id owned (n + 1)).toList := Option.mem_toList.2 drawn
      rw [List.append_assoc] at distinct
      refine ⟨fun old => (List.nodup_append.1 distinct).2.2 id old id (List.mem_append_left _ member) rfl, ?_⟩
      rintro rfl
      exact other (List.mem_append_left _ member)

end Session

/-! ## Which ids are equal -/

/-- The digits of `c` are the low ones of `c'`, and `pre` is `pre'` with the others: the
two ids are the same text. -/
def Ambiguous (c : Nat) (pre : String) (c' : Nat) (pre' : String) : Prop :=
  c' % 64 ^ size 64 c = c ∧ pre.toList = pre'.toList ++ numeral digit 64 (c' / 64 ^ size 64 c)

/-- A later call is given the id of an earlier one. -/
def Clash (owned : Bool) (calls : List Call) : Prop :=
  ∃ i j call call' pre pre', i < j ∧ calls[i]? = some call ∧ calls[j]? = some call' ∧
    call.before owned = some pre ∧ call'.before owned = some pre' ∧ Ambiguous (i + 1) pre (j + 1) pre'

theorem toList_id {c : Nat} (pre : String) (positive : 0 < c) (few : c < 2 ^ 64) :
    (pre ++ ProcessRegistry.uint64ToID (.ofNat c)).toList = pre.toList ++ numeral digit 64 c ++ ['$'] := by
  have counter : (UInt64.ofNat c).toNat = c := UInt64.toNat_ofNat_of_lt' few
  have positive' : 0 < (UInt64.ofNat c).toNat := by rwa [counter]
  rw [String.toList_append, toList_uint64ToID _ positive', counter, List.append_assoc]

theorem id_eq_iff {c c' : Nat} (pre pre' : String) (positive : 0 < c) (order : c < c') (few : c' < 2 ^ 64) :
    pre ++ ProcessRegistry.uint64ToID (.ofNat c) = pre' ++ ProcessRegistry.uint64ToID (.ofNat c') ↔
      Ambiguous c pre c' pre' := by
  rw [← String.toList_inj, toList_id pre positive (by omega), toList_id pre' (by omega) few, List.append_left_inj,
    append_numeral_inj (by decide) digit_distinct (Nat.le_of_lt order), Ambiguous]

theorem id_eq_some {owned : Bool} {call : Call} {c : Nat} {id : String} (drawn : call.id owned c = some id) :
    ∃ pre, call.before owned = some pre ∧ id = pre ++ ProcessRegistry.uint64ToID (.ofNat c) := by
  obtain ⟨pre, before, rfl⟩ := Option.map_eq_some_iff.1 drawn
  exact ⟨pre, before, rfl⟩

/-- `deadletter` does not end with a `$`. -/
theorem deadletter_not_drawn (owned : Bool) {calls : List Call} (few : calls.length < 2 ^ 64) :
    "deadletter" ∉ ids owned calls 0 := by
  intro member
  obtain ⟨⟨call, c⟩, place, drawn⟩ := List.mem_filterMap.1 member
  obtain ⟨pre, -, text⟩ := id_eq_some drawn
  have counter := List.mk_mem_zipIdx_iff_le_and_getElem?_sub.1 place
  have bound := (List.getElem?_eq_some_iff.1 counter.2).1
  have last := congrArg (fun id => id.toList.getLast?) text
  simp only [toList_id (c := c) pre (by omega) (by omega), List.getLast?_append, List.getLast?_singleton,
    Option.some_or] at last
  exact absurd last (by decide)

/-- **Distinctness.** The drawn ids are distinct exactly when no two calls clash. -/
theorem nodup_ids_iff (owned : Bool) (calls : List Call) (few : calls.length < 2 ^ 64) :
    (ids owned calls 0).Nodup ↔ ¬ Clash owned calls := by
  rw [ids, List.Nodup, List.pairwise_filterMap, List.pairwise_iff_getElem]
  constructor
  · rintro distinct ⟨i, j, call, call', pre, pre', order, at_i, at_j, before, before', ambiguous⟩
    obtain ⟨bound, here⟩ := List.getElem?_eq_some_iff.1 at_i
    obtain ⟨bound', there⟩ := List.getElem?_eq_some_iff.1 at_j
    have differ := distinct i j (by simpa using bound) (by simpa using bound') order
    simp only [List.getElem_zipIdx, here, there, Call.id, before, before', Option.map_some] at differ
    have counters : (0 + 1 + i) = i + 1 ∧ (0 + 1 + j) = j + 1 := by omega
    rw [counters.1, counters.2] at differ
    exact differ _ rfl _ rfl ((id_eq_iff pre pre' (by omega) (by omega) (by omega)).2 ambiguous)
  · intro safe i j bound bound' order id drawn id' drawn' same
    simp only [List.getElem_zipIdx] at drawn drawn'
    rw [List.length_zipIdx] at bound bound'
    obtain ⟨pre, before, rfl⟩ := id_eq_some drawn
    obtain ⟨pre', before', rfl⟩ := id_eq_some drawn'
    have counters : (0 + 1 + i) = i + 1 ∧ (0 + 1 + j) = j + 1 := by omega
    rw [counters.1, counters.2] at same
    exact safe ⟨i, j, calls[i], calls[j], pre, pre', order, List.getElem?_eq_getElem bound, List.getElem?_eq_getElem bound',
      before, before', (id_eq_iff pre pre' (by omega) (by omega) (by omega)).1 same⟩

section Results

variable {P : Type} (owned : Bool) (deadLetter : P)

/-- The ids that a system's calls hand to `Add`; all are added if they are distinct. -/
theorem run_start (calls : List (Call × P)) (few : calls.length < 2 ^ 64) :
    ((Session.start deadLetter).run owned calls).adds.map Prod.fst = ids owned (calls.map Prod.fst) 0 ∧
    ((ids owned (calls.map Prod.fst) 0).Nodup → ∀ a ∈ ((Session.start deadLetter).run owned calls).adds, a.2 = true) := by
  have counter : (Session.start deadLetter).registry.sequenceId = .ofNat 0 := by
    simp [Session.start, ProcessRegistry.add, ProcessRegistry.write, ProcessRegistry.new, ProcessRegistry.find]
  obtain ⟨names, answers⟩ := Session.run_adds owned calls counter (Session.consistent_start deadLetter)
  have none : (Session.start deadLetter).adds = [] := rfl
  rw [none, List.map_nil, List.nil_append] at names answers
  exact ⟨names, fun distinct => answers distinct (deadletter_not_drawn owned (by simpa using few)) (by simp)⟩

/-- **Generated names collide exactly when a prefix spells the high digits of a later
counter**: an earlier call has the low digits of the later one's counter and, as its prefix,
the later one's prefix and high digits. -/
theorem names_distinct_iff (calls : List (Call × P)) (few : calls.length < 2 ^ 64) :
    ((((Session.start deadLetter).run owned calls).adds.map Prod.fst).Nodup ∧
      ∀ a ∈ ((Session.start deadLetter).run owned calls).adds, a.2 = true) ↔ ¬ Clash owned (calls.map Prod.fst) := by
  obtain ⟨names, answers⟩ := run_start owned deadLetter calls few
  have distinct := nodup_ids_iff owned (calls.map Prod.fst) (by simpa using few)
  rw [names]
  exact ⟨fun both => distinct.1 both.1, fun safe => ⟨distinct.2 safe, answers (distinct.2 safe)⟩⟩

end Results

/-- A prefix that spells no digits. -/
theorem names_distinct_iff_worker :
    ((((Session.start ()).run false [(.spawn, ()), (.spawnPrefix "worker-", ()), (.newFuture, ())]).adds.map Prod.fst).Nodup ∧
      ∀ a ∈ ((Session.start ()).run false [(.spawn, ()), (.spawnPrefix "worker-", ()), (.newFuture, ())]).adds, a.2 = true) ↔
      ¬ Clash false ([(.spawn, ()), (.spawnPrefix "worker-", ()), (.newFuture, ())].map Prod.fst) :=
  names_distinct_iff false () _ (by decide)

/-- `SpawnPrefix` with the prefix `1` draws counter 1 and hands `11$` to `Add`; so does the
`Spawn` that draws counter 65. -/
theorem takes_later_name : ¬ ∀ calls : List (Call × Unit), calls.length < 2 ^ 64 →
    (((Session.start ()).run false calls).adds.map Prod.fst).Nodup ∧
      ∀ a ∈ ((Session.start ()).run false calls).adds, a.2 = true := by
  intro all
  let calls : List (Call × Unit) := (.spawnPrefix "1", ()) :: List.replicate 64 (.spawn, ())
  have few : calls.length < 2 ^ 64 := by decide
  have distinct := (all calls few).1
  rw [(run_start false () calls few).1, nodup_ids_iff false _ (by decide)] at distinct
  refine distinct ⟨0, 64, .spawnPrefix "1", .spawn, "1", "", by decide, rfl, rfl, rfl, rfl, ?_⟩
  have one : size 64 1 = 1 := by simp [size]
  refine ⟨by rw [one]; rfl, ?_⟩
  rw [one, numeral_small (by decide) (by decide)]
  decide

end Naming

end Protoactor.Actor
