import Mathlib.Data.Finset.Card

/-!
# Cluster messages

The messages nodes exchange over the QUIC control streams, with the fields that
the two dispatchers read.  Terms are natural numbers.  Among nodes that only send
what their loops send, a `u64` term would wrap only after 2^64 elections; where
any message may arrive, `Fencing` says what an election at the last term does.
-/

namespace PrxWaf
namespace Cluster

abbrev NodeId := String

inductive NodeRole where
  | main
  | worker
  | candidate
  deriving DecidableEq, Repr

structure Heartbeat where
  nodeId : NodeId
  role : NodeRole
  deriving DecidableEq, Repr

/--
A vote request when `voterId` is `none`; a vote grant by `voterId`, echoed back
to the candidate, otherwise.
-/
structure ElectionVote where
  term : Nat
  candidateId : NodeId
  lastLogIndex : Nat
  voterId : Option NodeId
  deriving DecidableEq, Repr

/-- Broadcast by the winner.  The voters come from a hash set: no order. -/
structure ElectionResult where
  term : Nat
  electedId : NodeId
  voterIds : Finset NodeId
  deriving DecidableEq

structure ClusterState where
  mainNodeId : NodeId
  nodes : List NodeId
  rulesVersion : Nat
  term : Nat
  deriving DecidableEq, Repr

structure JoinResponse where
  accepted : Bool
  clusterState : ClusterState
  deriving DecidableEq, Repr

/-- The message envelope; `other` stands for what neither dispatcher handles. -/
inductive ClusterMessage where
  | heartbeat (hb : Heartbeat)
  | electionVote (vote : ElectionVote)
  | electionResult (result : ElectionResult)
  | joinRequest (nodeId : NodeId)
  | joinResponse (resp : JoinResponse)
  | other
  deriving DecidableEq

end Cluster
end PrxWaf
