import PrxWaf.Cluster.Fencing

/-!
# Who is in the peer list

The size of the quorum is computed from the peer list.  Peers are registered by
heartbeats and join requests on the server side, and by heartbeats and join responses
on the client side; an eviction removes them.  No id is listed twice, but a message
that carries the id of the node itself lists the node as its own peer.
-/

namespace PrxWaf
namespace Cluster

open Lib

namespace NodeState

def memberIds (n : NodeState) : List NodeId :=
  n.peers.map PeerInfo.nodeId

/-- The peers are other nodes, each listed once, and these are counted. -/
def CountsOthersOnce (n : NodeState) : Prop :=
  n.nodeId ∉ n.memberIds ∧ n.memberIds.Nodup ∧
    n.totalNodes = 1 + (n.memberIds.toFinset.erase n.nodeId).card

variable {n : NodeState}

theorem countsOthersOnce_iff (h : n.memberIds.Nodup) :
    n.CountsOthersOnce <-> n.nodeId ∉ n.memberIds := by
  constructor
  · intro hcounts
    exact hcounts.1
  · intro hnot
    refine ⟨hnot, h, ?_⟩
    rw [Finset.erase_eq_of_notMem (fun hmem => hnot (List.mem_toFinset.mp hmem)),
      List.toFinset_card_of_nodup h, Nat.add_comm]
    unfold totalNodes memberIds
    rw [List.length_map]

theorem ids_upsertPeer (peer : PeerInfo) (peers : List PeerInfo) :
    (upsertPeer peer peers).map PeerInfo.nodeId =
      if peer.nodeId ∈ peers.map PeerInfo.nodeId then
        peers.map PeerInfo.nodeId
      else peers.map PeerInfo.nodeId ++ [peer.nodeId] := by
  induction peers with
  | nil => rfl
  | cons p rest ih =>
    unfold upsertPeer
    rw [List.map_cons]
    split
    · rename_i hsame
      rw [if_pos (List.mem_cons.mpr (Or.inl hsame.symm)), List.map_cons, hsame]
    · rename_i hother
      rw [List.map_cons, ih]
      rcases Decidable.em (peer.nodeId ∈ rest.map PeerInfo.nodeId) with hmem | hnot
      · rw [if_pos hmem, if_pos (List.mem_cons_of_mem _ hmem)]
      · rw [if_neg hnot, if_neg]
        · rfl
        · intro hmem
          rcases List.mem_cons.mp hmem with heq | hrest
          · exact hother heq.symm
          · exact hnot hrest

theorem mem_memberIds_addOrUpdatePeer {peer : PeerInfo} {id : NodeId} :
    id ∈ (n.addOrUpdatePeer peer).memberIds <-> id ∈ n.memberIds ∨ id = peer.nodeId := by
  unfold memberIds addOrUpdatePeer
  rw [ids_upsertPeer]
  split
  · rename_i hmem
    refine ⟨Or.inl, ?_⟩
    rintro (hold | rfl)
    · exact hold
    · exact hmem
  · rw [List.mem_append, List.mem_singleton]

theorem nodup_addOrUpdatePeer (h : n.memberIds.Nodup)
    (peer : PeerInfo) : (n.addOrUpdatePeer peer).memberIds.Nodup := by
  unfold memberIds addOrUpdatePeer
  rw [ids_upsertPeer]
  split
  · exact h
  · rename_i hnot
    refine List.nodup_append.mpr ⟨h, List.nodup_singleton _, ?_⟩
    intro a ha b hb heq
    rw [List.mem_singleton.mp hb] at heq
    exact hnot (heq ▸ ha)

theorem memberIds_removePeer (n : NodeState) (id : NodeId) :
    (n.removePeer id).memberIds = n.memberIds.filter (fun x => x ≠ id) := by
  unfold memberIds removePeer
  rw [List.filter_map]
  rfl

variable (now : Nat) (ids : List NodeId) (msg : ClusterMessage)

theorem memberIds_foldl_removePeer (n : NodeState) :
    (ids.foldl removePeer n).memberIds.Sublist n.memberIds := by
  induction ids generalizing n with
  | nil => exact List.Sublist.refl _
  | cons id rest ih =>
    refine (ih (n.removePeer id)).trans ?_
    rw [memberIds_removePeer]
    exact List.filter_sublist

theorem memberIds_evictDeadPeers (dead : NodeId -> Bool) (n : NodeState) :
    (n.evictDeadPeers dead).memberIds.Sublist n.memberIds :=
  memberIds_foldl_removePeer _ n

/-- The ids that a message on the server side registers. -/
def registeredByServer : ClusterMessage -> List NodeId
  | .heartbeat hb => [hb.nodeId]
  | .joinRequest joiner => [joiner]
  | _ => []

/-- Of the members in a join response, only the main is not compared with the node. -/
def registeredByClient (nodeId : NodeId) : ClusterMessage -> List NodeId
  | .heartbeat hb => [hb.nodeId]
  | .joinResponse resp =>
    if resp.accepted then
      resp.clusterState.mainNodeId :: resp.clusterState.nodes.filter (fun id => id ≠ nodeId)
    else []
  | _ => []

def Registers (n n' : NodeState) (ids : List NodeId) : Prop :=
  (forall id, id ∈ n'.memberIds <-> id ∈ n.memberIds ∨ id ∈ ids) ∧
    (n.memberIds.Nodup -> n'.memberIds.Nodup)

theorem registers_nil {n' : NodeState} (h : n'.peers = n.peers) :
    Registers n n' [] := by
  unfold Registers memberIds
  rw [h]
  exact ⟨fun id => (or_iff_left (List.not_mem_nil)).symm, id⟩

theorem registers_addOrUpdatePeer (n : NodeState) (peer : PeerInfo) :
    Registers n (n.addOrUpdatePeer peer) [peer.nodeId] := by
  refine ⟨?_, fun h => nodup_addOrUpdatePeer h peer⟩
  intro id
  rw [mem_memberIds_addOrUpdatePeer, List.mem_singleton]

theorem registers_foldl (n : NodeState) :
    Registers n (ids.foldl (fun m id => m.addOrUpdatePeer
        { nodeId := id, role := NodeRole.worker, lastSeenMs := now }) n)
      ids := by
  induction ids generalizing n with
  | nil => exact registers_nil rfl
  | cons first rest ih =>
    have hfirst := registers_addOrUpdatePeer n
      { nodeId := first, role := NodeRole.worker, lastSeenMs := now }
    obtain ⟨hmem, hnodup⟩ := ih (n.addOrUpdatePeer
      { nodeId := first, role := NodeRole.worker, lastSeenMs := now })
    refine ⟨?_, fun h => hnodup (hfirst.2 h)⟩
    intro id
    rw [List.foldl_cons, hmem, hfirst.1, List.mem_singleton, List.mem_cons, or_assoc]

theorem registers_recvJoinResponse (resp : JoinResponse) (n : NodeState) :
    Registers n (n.recvJoinResponse now resp)
      (registeredByClient n.nodeId (.joinResponse resp)) := by
  unfold recvJoinResponse registeredByClient
  dsimp only
  split
  · have hmain := registers_addOrUpdatePeer n
      { nodeId := resp.clusterState.mainNodeId, role := NodeRole.main,
        lastSeenMs := now }
    obtain ⟨hmem, hnodup⟩ := registers_foldl now
      (resp.clusterState.nodes.filter (fun id => id ≠ n.nodeId)) (n.addOrUpdatePeer
        { nodeId := resp.clusterState.mainNodeId, role := NodeRole.main,
          lastSeenMs := now })
    refine ⟨?_, fun h => hnodup (hmain.2 h)⟩
    intro id
    rw [hmem, hmain.1, List.mem_singleton, List.mem_cons, or_assoc]
  · exact registers_nil rfl

theorem registers_dispatchMessage (n : NodeState) :
    Registers n (n.dispatchMessage now msg).1 (registeredByServer msg) := by
  cases msg with
  | heartbeat hb => exact registers_addOrUpdatePeer n _
  | joinRequest joiner => exact registers_addOrUpdatePeer n _
  | electionVote vote =>
    refine registers_nil ?_
    unfold dispatchMessage
    dsimp only
    split
    · rfl
    · unfold recvVoteRequest
      split
      · rfl
      · rfl
  | electionResult result => exact registers_nil rfl
  | joinResponse resp => exact registers_nil rfl
  | other => exact registers_nil rfl

theorem registers_dispatchIncoming (n : NodeState) :
    Registers n (n.dispatchIncoming now msg) (registeredByClient n.nodeId msg) := by
  cases msg with
  | heartbeat hb => exact registers_addOrUpdatePeer n _
  | joinResponse resp => exact registers_recvJoinResponse now resp n
  | electionVote vote =>
    refine registers_nil ?_
    unfold dispatchIncoming
    dsimp only
    split
    · unfold recvVoteGrant
      split
      · rfl
      · rfl
    · rfl
  | electionResult result => exact registers_nil rfl
  | joinRequest joiner => exact registers_nil rfl
  | other => exact registers_nil rfl

end NodeState

def MentionsSelf (nodeId : NodeId) : NodeEvent -> Prop
  | .recvServer _ msg => nodeId ∈ NodeState.registeredByServer msg
  | .recvClient _ msg => nodeId ∈ NodeState.registeredByClient nodeId msg
  | _ => False

namespace NodeConf

theorem nodup_step {c : NodeConf} (h : c.state.memberIds.Nodup)
    (ev : NodeEvent) : (c.step ev).1.state.memberIds.Nodup := by
  cases ev with
  | loop dead =>
    exact (NodeState.registers_nil (loopStep_keeps dead c).right).2 h
  | recvServer now msg =>
    exact (NodeState.registers_dispatchMessage now msg c.state).2 h
  | recvClient now msg =>
    exact (NodeState.registers_dispatchIncoming now msg c.state).2 h
  | evict dead =>
    exact h.sublist (NodeState.memberIds_evictDeadPeers dead c.state)
  | heartbeat => exact h

theorem self_mem_step_iff {c : NodeConf} (h : c.state.nodeId ∉ c.state.memberIds) (ev : NodeEvent) :
    c.state.nodeId ∈ (c.step ev).1.state.memberIds <-> MentionsSelf c.state.nodeId ev := by
  cases ev with
  | loop dead =>
    have hsame := (NodeState.registers_nil (loopStep_keeps dead c).right).1 c.state.nodeId
    refine iff_of_false ?_ id
    intro hmem
    exact h ((or_iff_left List.not_mem_nil).mp (hsame.mp hmem))
  | recvServer now msg =>
    exact ((NodeState.registers_dispatchMessage now msg c.state).1 _).trans (or_iff_right h)
  | recvClient now msg =>
    exact ((NodeState.registers_dispatchIncoming now msg c.state).1 _).trans (or_iff_right h)
  | evict dead =>
    refine iff_of_false ?_ id
    intro hmem
    exact h ((NodeState.memberIds_evictDeadPeers dead c.state).subset hmem)
  | heartbeat => exact iff_of_false h id

def StepCounts (c : NodeConf) (ev : NodeEvent) : Prop :=
  (c.step ev).1.state.CountsOthersOnce

/-- No id is listed twice.  The node is not among its own peers throughout a run
exactly if no message carries its own id as that of a peer. -/
theorem members_counted_once_iff (nodeId : NodeId) (configRole : String) (events : List NodeEvent) :
    let c : NodeConf := { state := .new nodeId configRole, pc := .idle }
    (forall c', runFrom nodeStep c events = some c' -> c'.state.memberIds.Nodup) ∧
      (StepsMeet nodeStep StepCounts c events <->
        forall ev, ev ∈ events -> ¬ MentionsSelf nodeId ev) := by
  intro c
  constructor
  · intro c' hrun
    refine runFrom_invariant (I := fun c => c.state.memberIds.Nodup) ?_
      List.nodup_nil (stepsMeet_true c events) hrun
    intro c ev c' h _ hstep
    cases hstep
    exact nodup_step h ev
  · have htotal : forall c ev, (nodeStep c ev).isSome = true := fun _ _ => rfl
    rw [← @stepsMeet_iff_forall _ _ _ _ htotal c]
    refine stepsMeet_iff_of_invariant
      (I := fun c => c.state.nodeId = nodeId ∧ c.state.memberIds.Nodup ∧
        c.state.nodeId ∉ c.state.memberIds) ?_ ?_
      ⟨rfl, List.nodup_nil, List.not_mem_nil⟩ (stepsMeet_true c events)
    · intro c ev h _
      obtain ⟨hself, hnodup, hnot⟩ := h
      unfold StepCounts
      rw [NodeState.countsOthersOnce_iff (nodup_step hnodup ev), step_nodeId,
        self_mem_step_iff hnot, hself]
    · intro c ev c' h _ hmention hstep
      obtain ⟨hself, hnodup, hnot⟩ := h
      cases hstep
      rw [step_nodeId, self_mem_step_iff hnot, hself]
      exact ⟨rfl, nodup_step hnodup ev, hmention⟩

/-- A node that listens on all addresses dials itself by another address, and counts
two nodes. -/
theorem own_join_request_counted :
    exists c, runFrom nodeStep { state := .new "a" "auto", pc := .idle }
        [.recvServer 0 (.joinRequest "a")] = some c ∧
      c.state.memberIds = ["a"] ∧ c.state.totalNodes = 2 :=
  ⟨_, rfl, rfl, rfl⟩

end NodeConf

end Cluster
end PrxWaf
