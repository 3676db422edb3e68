import Protoactor.Cluster.Gossip
import Protoactor.Lib.FlagLoop

/-!
# The loops of a cluster (`src/cluster/gossiper.cpp`, `src/cluster/cluster_provider.cpp`)

`Gossiper` and `ConsulProvider` each run a loop in a detached thread, under the one flag `running_`. A
start tests the flag and sets it in two steps, and a loop that sleeps when its flag is cleared finds it
set again if it has been started anew. Where a source has no step between the test and the store, or
after the store of a stop, the step here does nothing.
-/

namespace Protoactor.Cluster
set_option autoImplicit false
open Lib

variable {T Cl : Type}

/-- What `SendState` finds: `GetMemberList` with `GetMembers`, the blocked members and the time. -/
structure Polled (T : Type) where
  memberList : Option (List Member)
  blocked : List String
  now : T
  deriving DecidableEq, Repr

namespace Gossiper

def sendState (polled : Polled T) (informer : Informer T) : Informer T :=
  match polled.memberList with
  | none => informer
  | some members => informer.updateClusterTopology (some ⟨members, [], []⟩) polled.blocked polled.now

/-- `StartGossiping`, `StopGossiping` and `GossipLoop`; `gossip_` is the informer made by the constructor. -/
def program : FlagLoop.Program Unit (Informer T) (Polled T) where
  prepare := fun _ informer => informer
  finish := fun informer => informer
  work := sendState

def step : Machine (FlagLoop.State Unit (Informer T)) (FlagLoop.Label Unit (Polled T)) := FlagLoop.step program

/-- The constructor; `address` is that of the process registry. -/
def new (address : String) : FlagLoop.State Unit (Informer T) := FlagLoop.init (Informer.new address)

end Gossiper

/-- `updates` is auxiliary: what `member_update_callback_` has been called with. -/
structure ConsulData (Cl : Type) where
  cluster : Option Cl
  callback : Bool
  updates : List (List Member × List Member × List Member)
  deriving DecidableEq, Repr

namespace ConsulProvider

def getMembersFromConsul : List Member := []

/-- The body of the loop; an exception is caught and the loop sleeps. -/
def poll (d : ConsulData Cl) : ConsulData Cl :=
  let members := getMembersFromConsul
  if d.callback then { d with updates := d.updates ++ [(members, [], members)] } else d

/-- `StartMember`, `Shutdown` and `PollMembers`. -/
def program : FlagLoop.Program (Option Cl) (ConsulData Cl) Unit where
  prepare := fun cluster d => { d with cluster := cluster }
  finish := fun d => { d with cluster := none }
  work := fun _ => poll

def step : Machine (FlagLoop.State (Option Cl) (ConsulData Cl)) (FlagLoop.Label (Option Cl) Unit) := FlagLoop.step program

/-- The constructor, and `RegisterMemberUpdateCallback` if there is one. -/
def new (callback : Bool) : FlagLoop.State (Option Cl) (ConsulData Cl) := FlagLoop.init ⟨none, callback, []⟩

end ConsulProvider

namespace Loops

/-- **At most one loop is live.** -/
def AtMostOne {A D : Type} (s : FlagLoop.State A D) : Prop := s.loops.countP FlagLoop.Phase.live ≤ 1

/-- **One loop** in every run in which a start passes its test of `running_` only when no loop is live and no
other start is between its test and its thread; and from a state in which a start would pass its test otherwise,
some run comes to two loops. -/
theorem one_loop :
    ((∀ (address : String) ls (t : FlagLoop.State Unit (Informer T)),
        Machine.Run Gossiper.step FlagLoop.alone (Gossiper.new address) ls t → AtMostOne t) ∧
      ∀ (s : FlagLoop.State Unit (Informer T)) i, s.callers i = .idle → s.flag = false →
        ¬ FlagLoop.alone s (.start i () : FlagLoop.Label Unit (Polled T)) →
        ∃ ls t, Machine.Run Gossiper.step Machine.free s ls t ∧ ¬ AtMostOne t) ∧
    (∀ (callback : Bool) ls (t : FlagLoop.State (Option Cl) (ConsulData Cl)),
        Machine.Run ConsulProvider.step FlagLoop.alone (ConsulProvider.new callback) ls t → AtMostOne t) ∧
      ∀ (s : FlagLoop.State (Option Cl) (ConsulData Cl)) i cluster, s.callers i = .idle → s.flag = false →
        ¬ FlagLoop.alone s (.start i cluster : FlagLoop.Label (Option Cl) Unit) →
        ∃ ls t, Machine.Run ConsulProvider.step Machine.free s ls t ∧ ¬ AtMostOne t := by
  refine ⟨⟨fun address ls t run => FlagLoop.one_live run, fun s i idle down crowd => ?_⟩,
    fun callback ls t run => FlagLoop.one_live run, fun s i cluster idle down crowd => ?_⟩
  · obtain ⟨ls, t, run, two⟩ := FlagLoop.two_live Gossiper.program idle down crowd
    exact ⟨ls, t, run, Nat.not_le.2 two⟩
  · obtain ⟨ls, t, run, two⟩ := FlagLoop.two_live ConsulProvider.program idle down crowd
    exact ⟨ls, t, run, Nat.not_le.2 two⟩

/-- A start, a stop, and a second start when the loop has found the flag cleared. -/
def inTurn {A W : Type} (a : A) (w : W) : List (FlagLoop.Label A W) :=
  [.start 0 a, .run 0, .run 0, .run 0, .loop 0 w, .loop 0 w, .stop 1, .run 1, .loop 0 w, .loop 0 w,
    .start 2 a, .run 2, .run 2, .run 2]

theorem run_inTurn {A D W : Type} (p : FlagLoop.Program A D W) (a : A) (w : W) (d : D) :
    ∃ t, Machine.Run (FlagLoop.step p) FlagLoop.alone (FlagLoop.init d) (inTurn a w) t ∧ t.loops = [.ended, .testing] := by
  refine ⟨_, .cons rfl ?first (.cons rfl trivial (.cons rfl trivial (.cons rfl trivial (.cons rfl trivial (.cons rfl trivial
    (.cons rfl trivial (.cons rfl trivial (.cons rfl trivial (.cons rfl trivial (.cons rfl ?second (.cons rfl trivial
    (.cons rfl trivial (.cons rfl trivial (.nil _)))))))))))))), rfl⟩
  case first => exact fun _ => ⟨rfl, fun _ => rfl⟩
  case second =>
    refine fun _ => ⟨rfl, fun j => ?_⟩
    match j with
    | 0 => rfl
    | 1 => rfl
    | _ + 2 => rfl

theorem one_loop_in_turn :
    (∃ t : FlagLoop.State Unit (Informer Unit), Machine.Run Gossiper.step FlagLoop.alone (Gossiper.new "here:1")
        (inTurn () (⟨none, [], ()⟩ : Polled Unit)) t ∧ t.loops = [.ended, .testing] ∧ AtMostOne t) ∧
      ∃ t : FlagLoop.State (Option Unit) (ConsulData Unit), Machine.Run ConsulProvider.step FlagLoop.alone
        (ConsulProvider.new true) (inTurn (some ()) ()) t ∧ t.loops = [.ended, .testing] ∧ AtMostOne t := by
  constructor
  · obtain ⟨t, run, loops⟩ := run_inTurn Gossiper.program () (⟨none, [], ()⟩ : Polled Unit) (Informer.new "here:1")
    exact ⟨t, run, loops, (@one_loop Unit Unit).1.1 "here:1" _ t run⟩
  · obtain ⟨t, run, loops⟩ := run_inTurn (@ConsulProvider.program Unit) (some ()) () ⟨none, true, []⟩
    exact ⟨t, run, loops, (@one_loop Unit Unit).2.1 true _ t run⟩

/-- A stop and a start while the loop sleeps: it goes on beside the new one. -/
theorem not_one_loop :
    (∃ ls t, Machine.Run Gossiper.step Machine.free (Gossiper.new "here:1" : FlagLoop.State Unit (Informer Unit)) ls t ∧
        ¬ AtMostOne t) ∧
      ∃ ls t, Machine.Run ConsulProvider.step Machine.free
          (ConsulProvider.new true : FlagLoop.State (Option Unit) (ConsulData Unit)) ls t ∧ ¬ AtMostOne t := by
  constructor
  · refine ⟨[.start 0 (), .run 0, .run 0, .run 0, .loop 0 ⟨none, [], ()⟩, .loop 0 ⟨none, [], ()⟩, .stop 0, .run 0,
      .start 0 (), .run 0, .run 0, .run 0], _, Machine.free_of_exec rfl, ?_⟩
    unfold AtMostOne
    decide
  · refine ⟨[.start 0 none, .run 0, .run 0, .run 0, .loop 0 (), .loop 0 (), .stop 0, .run 0, .start 0 none, .run 0, .run 0,
      .run 0], _, Machine.free_of_exec rfl, ?_⟩
    unfold AtMostOne
    decide

end Loops

end Protoactor.Cluster
