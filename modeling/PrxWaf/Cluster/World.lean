import Mathlib.Logic.Function.Basic
import PrxWaf.Lib.Run
import PrxWaf.Cluster.ElectionLoop

/-!
# A cluster of nodes

The nodes of a cluster take turns in any order.  Messages once sent stay in the
network: a message may be delivered late, any number of times or never, to any
node and on either side of a stream, which covers every way the transport can
delay, lose and repeat it.

Two history variables record what happened: the ballots cast so far and the
tallies won so far.  No step reads them.
-/

namespace PrxWaf
namespace Cluster

open Lib

structure Win where
  node : NodeId
  term : Nat
  voters : Finset NodeId
  deriving DecidableEq

structure World where
  nodes : NodeId -> NodeConf
  net : List ClusterMessage
  ballots : List (Ballot NodeId NodeId)
  wins : List Win

def NodeConf.winsOf (c : NodeConf) : NodeEvent -> List Win
  | .loop _ =>
    match c.pc with
    | .waiting totalNodes newTerm =>
      if c.WinsTally totalNodes newTerm then
        [{ node := c.state.nodeId, term := newTerm,
           voters := c.state.election.voterIdsForTerm newTerm }]
      else []
    | _ => []
  | _ => []

namespace World

def Deliverable (w : World) : NodeEvent -> Prop
  | .recvServer _ msg => msg ∈ w.net
  | .recvClient _ msg => msg ∈ w.net
  | _ => True

instance (w : World) : (ev : NodeEvent) -> Decidable (w.Deliverable ev)
  | .recvServer _ _ => inferInstanceAs (Decidable (_ ∈ _))
  | .recvClient _ _ => inferInstanceAs (Decidable (_ ∈ _))
  | .loop _ => isTrue trivial
  | .evict _ => isTrue trivial
  | .heartbeat => isTrue trivial

def act (w : World) (i : NodeId) (ev : NodeEvent) : World where
  nodes := Function.update w.nodes i ((w.nodes i).step ev).1
  net := w.net ++ ((w.nodes i).step ev).2
  ballots := w.ballots ++ (w.nodes i).ballotsCast ev
  wins := w.wins ++ (w.nodes i).winsOf ev

def step (members : List NodeId) (w : World) (action : NodeId × NodeEvent) : Option World :=
  if action.1 ∈ members ∧ w.Deliverable action.2 then
    some (w.act action.1 action.2)
  else none

theorem step_some {members : List NodeId} {w w' : World}
    {action : NodeId × NodeEvent} (h : step members w action = some w') :
    action.1 ∈ members ∧ w.Deliverable action.2 ∧ w' = w.act action.1 action.2 := by
  unfold step at h
  split at h
  · rename_i henabled
    injection h with hw
    exact ⟨henabled.left, henabled.right, hw.symm⟩
  · cases h

@[simp] theorem act_nodes_self (w : World) (i : NodeId) (ev : NodeEvent) :
    (w.act i ev).nodes i = ((w.nodes i).step ev).1 :=
  Function.update_self i _ w.nodes

theorem act_nodes_of_ne {w : World} {i j : NodeId} (h : j ≠ i)
    (ev : NodeEvent) : (w.act i ev).nodes j = w.nodes j :=
  Function.update_of_ne h _ w.nodes

theorem act_nodes_rule {P : NodeConf -> Prop} {w : World} {i j : NodeId}
    {ev : NodeEvent} (hself : j = i -> P ((w.nodes j).step ev).1)
    (hother : P (w.nodes j)) : P ((w.act i ev).nodes j) := by
  rcases Decidable.em (j = i) with hji | hji
  · have hstep := hself hji
    rw [hji] at hstep ⊢
    rw [act_nodes_self]
    exact hstep
  · rw [act_nodes_of_ne hji]
    exact hother

/-!
# Starting worlds

A world starts with fresh workers and an empty network.  `FullyJoined` says that
every peer list holds exactly the other members.
-/

/-- The start of a node: a worker with a fresh election manager. -/
def FreshNode (i : NodeId) (c : NodeConf) : Prop :=
  c.state.nodeId = i ∧ c.state.role = NodeRole.worker ∧
    c.state.election = ElectionManager.new i ∧ c.pc = .idle

structure Fresh (members : List NodeId) (w : World) : Prop where
  nodes : forall i, i ∈ members -> FreshNode i (w.nodes i)
  net : w.net = []
  ballots : w.ballots = []
  wins : w.wins = []

def FullyJoined (members : List NodeId) (w : World) : Prop :=
  forall i, i ∈ members -> ((w.nodes i).state.peers.map PeerInfo.nodeId).Perm (members.erase i)

def start (members : List NodeId) : World where
  nodes := fun i =>
    { state :=
        (members.erase i).foldl
          (fun n id => n.addOrUpdatePeer
            { nodeId := id, role := NodeRole.worker, lastSeenMs := 0 })
          (NodeState.new i "auto")
      pc := .idle }
  net := []
  ballots := []
  wins := []

theorem start_fresh (members : List NodeId) : Fresh members (start members) := by
  constructor
  · intro i _
    have hkeeps := NodeState.foldl_addOrUpdatePeer_keeps 0 (members.erase i)
      (NodeState.new i "auto")
    refine ⟨hkeeps.right, ?_, hkeeps.left, rfl⟩
    have hrole : forall (ids : List NodeId) (n : NodeState), (ids.foldl
          (fun m id => m.addOrUpdatePeer
            { nodeId := id, role := NodeRole.worker, lastSeenMs := 0 }) n).role = n.role := by
      intro ids
      induction ids with
      | nil =>
        intro n
        rfl
      | cons id rest ih =>
        intro n
        exact ih _
    rw [start, hrole]
    rfl
  · rfl
  · rfl
  · rfl

end World

end Cluster
end PrxWaf
