import Protoactor.Actor.EventStream.Subscribers

/-!
# What the members of a cluster exchange (`include/internal/cluster/`)

`V` is the type of what a `std::shared_ptr<void>` points to. A sequence number is an integer of 64
bits in the source; none is made but by counting calls (`Informer.localSeqNumber_run`).
-/

namespace Protoactor.Cluster
set_option autoImplicit false

structure Member where
  id : String
  host : String
  port : Int
  kinds : List String
  deriving DecidableEq, Repr

/-- A pointer to a member is the member: what is read of one here does not change. -/
abbrev ClusterTopology := Actor.EventStream.ClusterTopology Member

structure GossipUpdate (V : Type) where
  key : String
  value : Option V
  sequenceNumber : Int
  memberId : String
  deriving DecidableEq, Repr

end Protoactor.Cluster
