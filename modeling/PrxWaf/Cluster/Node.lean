import PrxWaf.Cluster.Election

/-!
# Node state and message dispatch

`NodeState` is what the transport handlers, the election loop and the eviction
task of one node share.  The two dispatchers are total: every message changes
the state as below and the server side may answer on the same stream.

The phi-accrual detector computes with floating point over wall-clock arrival
times.  Its verdict enters the model as an arbitrary predicate `dead` on node
ids, chosen anew at every step.
-/

namespace PrxWaf
namespace Cluster

structure PeerInfo where
  nodeId : NodeId
  role : NodeRole
  lastSeenMs : Nat
  deriving DecidableEq, Repr

structure NodeState where
  nodeId : NodeId
  role : NodeRole
  peers : List PeerInfo
  rulesVersion : Nat
  election : ElectionManager

namespace NodeState

def new (nodeId : NodeId) (configRole : String) : NodeState where
  nodeId := nodeId
  role := if configRole = "main" then NodeRole.main else NodeRole.worker
  peers := []
  rulesVersion := 0
  election := ElectionManager.new nodeId

def transitionTo (n : NodeState) (newRole : NodeRole) : NodeState :=
  { n with role := newRole }

def promoteToMain (n : NodeState) : NodeState :=
  n.transitionTo NodeRole.main

def totalNodes (n : NodeState) : Nat :=
  n.peers.length + 1

/--
Replace the first peer with the id of `peer`, keeping its place, or append it.
-/
def upsertPeer (peer : PeerInfo) : List PeerInfo -> List PeerInfo
  | [] => [peer]
  | p :: rest =>
    if p.nodeId = peer.nodeId then peer :: rest
    else p :: upsertPeer peer rest

def addOrUpdatePeer (n : NodeState) (peer : PeerInfo) : NodeState :=
  { n with peers := upsertPeer peer n.peers }

def removePeer (n : NodeState) (nodeId : NodeId) : NodeState :=
  { n with peers := n.peers.filter (fun p => p.nodeId ≠ nodeId) }

/--
One tick of `run_peer_eviction`: snapshot the peer ids, keep the dead ones, and
remove these peers one after another.
-/
def evictDeadPeers (dead : NodeId -> Bool) (n : NodeState) : NodeState :=
  let peerIds := n.peers.map PeerInfo.nodeId
  (peerIds.filter dead).foldl removePeer n

/--
Is the known main dead?  Without a known main the answer is yes as soon as there
is any peer.
-/
def checkMainIsDead (dead : NodeId -> Bool) (n : NodeState) : Bool :=
  match n.peers.find? (fun p => p.role = NodeRole.main) with
  | none => !n.peers.isEmpty
  | some p => dead p.nodeId

/-- Both dispatchers register or refresh the sender of a heartbeat. -/
def recvHeartbeat (now : Nat) (hb : Heartbeat) (n : NodeState) : NodeState :=
  n.addOrUpdatePeer
    { nodeId := hb.nodeId, role := hb.role, lastSeenMs := now }

def recvElectionResult (result : ElectionResult) (n : NodeState) : NodeState :=
  let (newRole, election') := n.election.processResult result
  { n with election := election' }.transitionTo newRole

/-- The vote-request arm of the server: a granted request is echoed back. -/
def recvVoteRequest (vote : ElectionVote) (n : NodeState) : NodeState × Option ClusterMessage :=
  match n.election.processVote vote with
  | (true, election') =>
    ({ n with election := election' },
      some (ClusterMessage.electionVote
        { vote with voterId := some n.nodeId }))
  | (false, election') => ({ n with election := election' }, none)

/-- The vote-grant arm of the client: count the echoes addressed to this node. -/
def recvVoteGrant (vote : ElectionVote) (voterId : NodeId) (n : NodeState) : NodeState :=
  if vote.candidateId = n.nodeId then
    { n with election := n.election.recordVoteForMe vote.term voterId }
  else n

/-- The main and every other listed member but the node itself become peers. -/
def recvJoinResponse (now : Nat) (resp : JoinResponse) (n : NodeState) : NodeState :=
  if resp.accepted then
    let withMain := n.addOrUpdatePeer
      { nodeId := resp.clusterState.mainNodeId, role := NodeRole.main, lastSeenMs := now }
    let others := resp.clusterState.nodes.filter (fun id => id ≠ n.nodeId)
    others.foldl
      (fun m id => m.addOrUpdatePeer
        { nodeId := id, role := NodeRole.worker, lastSeenMs := now })
      withMain
  else n

/-- The answer to a join request lists the peers before the joiner is added. -/
def recvJoinRequest (now : Nat) (joiner : NodeId) (n : NodeState) :
    NodeState × Option ClusterMessage :=
  let clusterState : ClusterState :=
    { mainNodeId := n.nodeId
      nodes := n.peers.map PeerInfo.nodeId
      rulesVersion := n.rulesVersion
      term := n.election.term }
  (n.addOrUpdatePeer
      { nodeId := joiner, role := NodeRole.worker, lastSeenMs := now },
    some (ClusterMessage.joinResponse
      { accepted := true, clusterState := clusterState }))

def dispatchMessage (now : Nat) (msg : ClusterMessage) (n : NodeState) :
    NodeState × Option ClusterMessage :=
  match msg with
  | .heartbeat hb => (n.recvHeartbeat now hb, none)
  | .joinRequest joiner => n.recvJoinRequest now joiner
  | .electionVote vote =>
    match vote.voterId with
    | some _ => (n, none)
    | none => n.recvVoteRequest vote
  | .electionResult result => (n.recvElectionResult result, none)
  | .joinResponse _ => (n, none)
  | .other => (n, none)

def dispatchIncoming (now : Nat) (msg : ClusterMessage) (n : NodeState) : NodeState :=
  match msg with
  | .heartbeat hb => n.recvHeartbeat now hb
  | .joinResponse resp => n.recvJoinResponse now resp
  | .electionVote vote =>
    match vote.voterId with
    | some voterId => n.recvVoteGrant vote voterId
    | none => n
  | .electionResult result => n.recvElectionResult result
  | .joinRequest _ => n
  | .other => n

/-!
# What leaves the vote state alone

Peer-list updates touch neither the vote state nor the node id.
-/

theorem foldl_removePeer_keeps (ids : List NodeId) (n : NodeState) :
    (ids.foldl removePeer n).election = n.election ∧
      (ids.foldl removePeer n).nodeId = n.nodeId := by
  induction ids generalizing n with
  | nil =>
    exact ⟨rfl, rfl⟩
  | cons id rest ih =>
    exact ih (n.removePeer id)

theorem evictDeadPeers_keeps (dead : NodeId -> Bool) (n : NodeState) :
    (n.evictDeadPeers dead).election = n.election ∧ (n.evictDeadPeers dead).nodeId = n.nodeId :=
  foldl_removePeer_keeps _ n

theorem foldl_addOrUpdatePeer_keeps (now : Nat) (ids : List NodeId) (n : NodeState) :
    let after := ids.foldl
      (fun m id => m.addOrUpdatePeer { nodeId := id, role := NodeRole.worker, lastSeenMs := now }) n
    after.election = n.election ∧ after.nodeId = n.nodeId := by
  induction ids generalizing n with
  | nil =>
    exact ⟨rfl, rfl⟩
  | cons id rest ih =>
    exact ih (n.addOrUpdatePeer { nodeId := id, role := NodeRole.worker, lastSeenMs := now })

theorem recvJoinResponse_keeps (now : Nat) (resp : JoinResponse) (n : NodeState) :
    (n.recvJoinResponse now resp).election = n.election ∧
      (n.recvJoinResponse now resp).nodeId = n.nodeId := by
  cases haccepted : resp.accepted with
  | false =>
    simp [recvJoinResponse, haccepted]
  | true =>
    simp only [recvJoinResponse, haccepted, if_true]
    exact foldl_addOrUpdatePeer_keeps now _ _

@[simp] theorem recvElectionResult_election (result : ElectionResult)
    (n : NodeState) :
    (n.recvElectionResult result).election =
      n.election.advanceTerm result.term :=
  ElectionManager.processResult_snd n.election result

end NodeState

end Cluster
end PrxWaf
