import Protoactor.Lib.Machine
import Protoactor.Actor.Deduplication

/-!
# Deduplication on several threads

One `DedupState` is shared by all actors whose `Props` carry the middleware. A call of
`ShouldProcess` reads the clock, cleans up under the lock, and decides under the lock; between
these steps other calls take theirs, so a decision can be made with a reading that is older than
one that has been used already. Two things go wrong then: the entry is set back, and an entry
that is still recent for this reading has been dropped for a later one.

Where every decision is made in order, messages with one key are passed at least `ttl` apart.
-/

namespace Protoactor.Actor.DedupState.Concurrent
set_option autoImplicit false
open Lib

variable {U K : Type}

/-- A call of `ShouldProcess`, by what it has done. -/
inductive Caller (U K : Type) where
  | entered (message : Ptr U K)
  | read (message : Ptr U K) (now : Int)
  | cleaned (message : Ptr U K) (now : Int)
  | returned (pass : Bool)
  deriving DecidableEq, Repr

/-- A message with a key, and what became of it. -/
structure Decision where
  key : String
  now : Int
  passed : Bool
  deriving DecidableEq, Repr

structure State (U K : Type) where
  /-- what `steady_clock` reads -/
  clock : Int
  shared : DedupState U K
  callers : List (Caller U K)
  /-- auxiliary: the decisions made, in order -/
  decisions : List Decision

inductive Label (U K : Type) where
  | call (envelope : Option (MessageEnvelope U K))
  | read (i : Nat) (now : Int)
  | cleanup (i : Nat)
  | decide (i : Nat)
  deriving DecidableEq, Repr

def step : Machine (State U K) (Label U K) := fun s l =>
  match l with
  | .call envelope =>
    match payload envelope with
    | none => some { s with callers := s.callers ++ [.returned true] }
    | some message => some { s with callers := s.callers ++ [.entered message] }
  | .read i now =>
    match s.callers[i]? with
    | some (.entered message) =>
      if s.clock ≤ now then some { s with clock := now, callers := s.callers.set i (.read message now) } else none
    | _ => none
  | .cleanup i =>
    match s.callers[i]? with
    | some (.read message now) =>
      some { s with shared := s.shared.cleanup now, callers := s.callers.set i (.cleaned message now) }
    | _ => none
  | .decide i =>
    match s.callers[i]? with
    | some (.cleaned message now) =>
      let key := s.shared.dedup message
      if key = "" then some { s with callers := s.callers.set i (.returned true) }
      else
        let (pass, shared) := s.shared.shouldProcessKey key now
        some { s with
          shared := shared
          callers := s.callers.set i (.returned pass)
          decisions := s.decisions ++ [⟨key, now, pass⟩] }
    | _ => none

def start (fn : Ptr U K → String) (ttl clock : Int) : State U K := ⟨clock, .new fn ttl, [], []⟩

/-! ## What should hold -/

/-- Nothing goes back, and what is passed with one key is passed at least `ttl` apart. -/
structure Good (s : State U K) : Prop where
  forwards : s.decisions.Pairwise fun d d' => d.key = d'.key → d.now ≤ d'.now
  apart : s.decisions.Pairwise fun d d' =>
    d.key = d'.key → d.passed = true → d'.passed = true → s.shared.ttl ≤ milliseconds (d'.now - d.now)
  /-- the entry of a key is its last sighting -/
  recorded : ∀ key t, s.shared.seen key = some t → ∀ d ∈ s.decisions, d.key = key → d.now ≤ t

/-- The reading is not older than a sighting of the key, and where the entry has been dropped, it
is too old for this reading too. -/
structure Ordered (s : State U K) (key : String) (now : Int) : Prop where
  newest : ∀ d ∈ s.decisions, d.key = key → d.now ≤ now
  dropped : s.shared.seen key = none → ∀ d ∈ s.decisions, d.key = key → s.shared.ttl ≤ milliseconds (now - d.now)

/-- Every decision is made in order. -/
def inOrder (s : State U K) : Label U K → Prop
  | .decide i => ∀ message now, s.callers[i]? = some (.cleaned message now) → Ordered s (s.shared.dedup message) now
  | _ => True

/-! ## The invariant -/

variable {s s' t : State U K} {l : Label U K} {ls : List (Label U K)} {i : Nat} {message : Ptr U K} {now : Int}

def history (s : State U K) : List (String × Int) := s.decisions.map fun d => (d.key, d.now)

theorem mem_history {key : String} {t : Int} : (key, t) ∈ history s ↔ ∃ d ∈ s.decisions, d.key = key ∧ d.now = t := by
  simp [history]

structure Inv (s : State U K) : Prop where
  forwards : s.decisions.Pairwise fun d d' => d.key = d'.key → d.now ≤ d'.now
  apart : s.decisions.Pairwise fun d d' =>
    d.key = d'.key → d.passed = true → d'.passed = true → s.shared.ttl ≤ milliseconds (d'.now - d.now)
  latest : Window.Latest (history s) s.shared.seen

theorem Inv.good (inv : Inv s) : Good s where
  forwards := inv.forwards
  apart := inv.apart
  recorded := by
    intro key t here d member same
    exact (inv.latest key t here).2 d.now (mem_history.2 ⟨d, member, same, rfl⟩)

/-- **What a step can do** to the shared state. -/
inductive Change (s : State U K) (l : Label U K) (s' : State U K) : Prop where
  | none (shared : s'.shared = s.shared) (decisions : s'.decisions = s.decisions)
  | cleanup (now : Int) (shared : s'.shared = s.shared.cleanup now) (decisions : s'.decisions = s.decisions)
  | decide (i : Nat) (message : Ptr U K) (now : Int) (label : l = .decide i)
      (here : s.callers[i]? = some (.cleaned message now)) (pass : Bool) (shared : DedupState U K)
      (decision : s.shared.shouldProcessKey (s.shared.dedup message) now = (pass, shared)) (after : s'.shared = shared)
      (decisions : s'.decisions = s.decisions ++ [⟨s.shared.dedup message, now, pass⟩])

theorem change_of_step (moved : step s l = some s') : Change s l s' := by
  unfold step at moved
  split at moved
  · split at moved <;> cases moved <;> exact .none rfl rfl
  · split at moved
    · split at moved
      · cases moved
        exact .none rfl rfl
      · cases moved
    · cases moved
  · split at moved
    · rename_i message now here
      cases moved
      exact .cleanup now rfl rfl
    · cases moved
  · rename_i i
    split at moved
    · rename_i message now here
      dsimp only at moved
      split at moved
      · cases moved
        exact .none rfl rfl
      · cases moved
        exact .decide i message now rfl here _ _ rfl rfl rfl
    · cases moved

/-- A decision made in order is the one that the whole history calls for. -/
theorem pass_iff {key : String} {pass : Bool} {shared : DedupState U K} (inv : Inv s) (ordered : Ordered s key now)
    (decision : s.shared.shouldProcessKey key now = (pass, shared)) :
    pass = true ↔ ∀ d ∈ s.decisions, d.key = key → s.shared.ttl ≤ milliseconds (now - d.now) := by
  have spent : (window s.shared.ttl).Spent now (history s) s.shared.seen key := by
    intro gone t seen
    obtain ⟨d, member, same, rfl⟩ := mem_history.1 seen
    have old := ordered.dropped gone d member same
    exact decide_eq_false (by omega)
  have answer := Window.recent_iff inv.latest spent
  rw [shouldProcessKey_eq] at decision
  obtain ⟨rfl, -⟩ := Prod.mk.inj decision
  rw [Bool.not_eq_true', ← Bool.not_eq_true, answer]
  constructor
  · intro unseen d member same
    by_contra recent
    exact unseen ⟨d.now, mem_history.2 ⟨d, member, same, rfl⟩, (window_inside _ _ _).2 (by omega)⟩
  · rintro old ⟨t, seen, recent⟩
    obtain ⟨d, member, same, rfl⟩ := mem_history.1 seen
    have far := old d member same
    rw [window_inside] at recent
    omega

/-- **A decision in order** keeps the invariant. -/
theorem Inv.decided {key : String} {pass : Bool} {shared : DedupState U K} (inv : Inv s) (ordered : Ordered s key now)
    (decision : s.shared.shouldProcessKey key now = (pass, shared)) (after : s'.shared = shared)
    (decisions : s'.decisions = s.decisions ++ [⟨key, now, pass⟩]) : Inv s' := by
  have calls := pass_iff inv ordered decision
  rw [shouldProcessKey_eq] at decision
  obtain ⟨-, rfl⟩ := Prod.mk.inj decision
  have ttl : s'.shared.ttl = s.shared.ttl := by rw [after]; rfl
  constructor
  case forwards =>
    rw [decisions]
    refine List.pairwise_append.2 ⟨inv.forwards, List.pairwise_singleton _ _, fun d member d' last same => ?_⟩
    obtain rfl := List.mem_singleton.1 last
    exact ordered.newest d member same
  case apart =>
    rw [decisions, ttl]
    refine List.pairwise_append.2 ⟨inv.apart, List.pairwise_singleton _ _, fun d member d' last same _ passed => ?_⟩
    obtain rfl := List.mem_singleton.1 last
    exact calls.1 passed d member same
  case latest =>
    have longer : history s' = history s ++ [(key, now)] := by simp [history, decisions]
    rw [longer, after, record_seen]
    refine Window.latest_sight inv.latest fun t seen => ?_
    obtain ⟨d, member, same, rfl⟩ := mem_history.1 seen
    exact ordered.newest d member same

theorem keeps_inv : Machine.Keeps (step (U := U) (K := K)) inOrder Inv := by
  intro s l s' inv allowed moved
  cases change_of_step moved with
  | none shared decisions => exact ⟨decisions ▸ inv.forwards, by rw [decisions, shared]; exact inv.apart, by
      rw [history, decisions, shared]; exact inv.latest⟩
  | cleanup now shared decisions =>
    constructor
    case forwards => exact decisions ▸ inv.forwards
    case apart =>
      rw [decisions, shared, cleanup_ttl]
      exact inv.apart
    case latest =>
      rw [history, decisions, shared, cleanup_seen]
      exact Window.latest_forget inv.latest
  | decide i message now label here pass shared decision after decisions =>
    subst label
    exact inv.decided (allowed message now here) decision after decisions

theorem inv_start (fn : Ptr U K → String) (ttl clock : Int) : Inv (start fn ttl clock) := ⟨.nil, .nil, nofun⟩

/-- **Deduplication holds** in every state of every run whose decisions are made in order. -/
theorem apart_in_order {fn : Ptr U K → String} {ttl clock : Int} (run : Machine.Run step inOrder (start fn ttl clock) ls t) :
    Good t :=
  (run.keeps keeps_inv (inv_start fn ttl clock)).good

/-- Two messages with one key, the second one after the window. -/
def patient : List (Label Unit Unit) :=
  [.call (some ⟨none, .user (), none⟩), .read 0 0, .cleanup 0, .decide 0, .call (some ⟨none, .user (), none⟩), .read 1 2000000,
    .cleanup 1, .decide 1]

theorem apart_in_order_patient : ∃ t : State Unit Unit, t.decisions = [⟨"k", 0, true⟩, ⟨"k", 2000000, true⟩] ∧ Good t := by
  have second : ∀ d ∈ [(⟨"k", 0, true⟩ : Decision)],
      d.key = "k" → d.now ≤ 2000000 ∧ 2 ≤ milliseconds (2000000 - d.now) := by decide
  have run : ∃ t, Machine.Run step inOrder (start (fun _ : Ptr Unit Unit => "k") 2 0) patient t ∧
      t.decisions = [⟨"k", 0, true⟩, ⟨"k", 2000000, true⟩] := by
    refine ⟨_, .cons rfl trivial (.cons rfl trivial (.cons rfl trivial (.cons rfl ?_ (.cons rfl trivial (.cons rfl trivial
      (.cons rfl trivial (.cons rfl ?_ (.nil _)))))))), rfl⟩
    · exact fun message now here => ⟨nofun, fun _ => nofun⟩
    · intro message now here
      cases here
      exact ⟨fun d member same => (second d member same).1, fun _ d member same => (second d member same).2⟩
  obtain ⟨t, run, decisions⟩ := run
  exact ⟨t, decisions, apart_in_order run⟩

/-! ## Out of order -/

/-- A decision with an older reading sets the entry back. -/
theorem not_good_of_late {key : String} {pass : Bool} {d : Decision} (member : d ∈ s.decisions) (same : d.key = key)
    (late : now < d.now) (decisions : s'.decisions = s.decisions ++ [⟨key, now, pass⟩]) : ¬ Good s' := by
  intro good
  have forwards := good.forwards
  rw [decisions] at forwards
  have back := (List.pairwise_append.1 forwards).2.2 d member ⟨key, now, pass⟩ (List.mem_singleton.2 rfl) same
  have back' : d.now ≤ now := back
  omega

/-- A decision on an entry that has been dropped passes, however recent the key is. -/
theorem pass_of_dropped {key : String} (dropped : s.shared.seen key = none) : (s.shared.shouldProcessKey key now).1 = true := by
  simp [shouldProcessKey, dropped]

/-- Three calls, the second one faster than the first: its sighting is set back by the first, and
the third one is passed half a millisecond after it. -/
def overtaking : List (Label Unit Unit) :=
  [.call (some ⟨none, .user (), none⟩), .call (some ⟨none, .user (), none⟩), .read 0 0, .read 1 1500000, .cleanup 1, .decide 1,
    .cleanup 0, .decide 0, .call (some ⟨none, .user (), none⟩), .read 2 2000000, .cleanup 2, .decide 2]

theorem overtaking_passes : ∃ t, Machine.Run step Machine.free (start (fun _ : Ptr Unit Unit => "k") 2 0) overtaking t ∧
    t.decisions = [⟨"k", 1500000, true⟩, ⟨"k", 0, false⟩, ⟨"k", 2000000, true⟩] ∧ ¬ Good t := by
  refine ⟨_, Machine.free_of_exec rfl, rfl, fun good => ?_⟩
  have close : (2 : Int) ≤ milliseconds (2000000 - 1500000) :=
    (List.pairwise_cons.1 good.apart).1 ⟨"k", 2000000, true⟩ (by decide) rfl rfl rfl
  exact absurd close (by decide)

end Protoactor.Actor.DedupState.Concurrent
