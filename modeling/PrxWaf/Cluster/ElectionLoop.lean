import PrxWaf.Lib.Ballot
import PrxWaf.Cluster.Node

/-!
# The election loop of one node

`run_election_loop` is a background task.  What it does from one await point to the
next is taken as one step, and so is a call of a handler; on the runtime's threads
they may overlap, and the election manager takes its locks one after the other.
`LoopPc` names the await points, with the local variables that are live there,
and one `loop` event takes the task to its next await point.

From `idle` the role is read; `sleeping` is the election timeout, after which
the main's liveness is checked; `counting` reads the cluster size; a node that
is alone claims the main role from `claiming`, any other opens an election from
`standing`, broadcasts its request from `soliciting`, and tallies after
`waiting`.  `promoting` follows a call of `promote_to_main`; `demoting` and
`steppingDown` are the two awaits of `demote_to_worker`.
-/

namespace PrxWaf
namespace Cluster

open Lib

inductive LoopPc where
  | idle
  | sleeping
  | counting
  | claiming
  | standing (totalNodes : Nat)
  | soliciting (totalNodes newTerm : Nat)
  | waiting (totalNodes newTerm : Nat)
  | promoting (newTerm : Nat)
  | demoting
  | steppingDown
  deriving DecidableEq, Repr

structure NodeConf where
  state : NodeState
  pc : LoopPc

/--
The events of a node: its election loop goes on to the next await point, a
message arrives on a stream it accepted or opened, or its eviction task or its
heartbeat sender ticks.
-/
inductive NodeEvent where
  | loop (dead : NodeId -> Bool)
  | recvServer (now : Nat) (msg : ClusterMessage)
  | recvClient (now : Nat) (msg : ClusterMessage)
  | evict (dead : NodeId -> Bool)
  | heartbeat

namespace NodeConf

def voteRequest (n : NodeState) (newTerm : Nat) : ClusterMessage :=
  ClusterMessage.electionVote
    { term := newTerm, candidateId := n.nodeId, lastLogIndex := n.rulesVersion, voterId := none }

def resultMessage (n : NodeState) (newTerm : Nat) : ClusterMessage :=
  ClusterMessage.electionResult
    { term := newTerm, electedId := n.nodeId, voterIds := n.election.voterIdsForTerm newTerm }

def loopStep (dead : NodeId -> Bool) (c : NodeConf) : NodeConf × List ClusterMessage :=
  match c.pc with
  | .idle =>
    if c.state.role = NodeRole.main then (c, [])
    else ({ c with pc := .sleeping }, [])
  | .sleeping =>
    if c.state.checkMainIsDead dead then ({ c with pc := .counting }, [])
    else ({ c with pc := .idle }, [])
  | .counting =>
    let totalNodes := c.state.totalNodes
    if totalNodes ≤ 1 then ({ c with pc := .claiming }, [])
    else ({ c with pc := .standing totalNodes }, [])
  | .claiming =>
    ({ state := c.state.promoteToMain, pc := .idle }, [])
  | .standing totalNodes =>
    let election' := c.state.election.incrementTermAndVoteForSelf
    ({ state :=
        { c.state with role := NodeRole.candidate, election := election' }
       pc := .soliciting totalNodes election'.term }, [])
  | .soliciting totalNodes newTerm =>
    ({ c with pc := .waiting totalNodes newTerm }, [voteRequest c.state newTerm])
  | .waiting totalNodes newTerm =>
    let voteCount := c.state.election.voteCountForTerm newTerm
    if ElectionManager.IsMajority voteCount totalNodes then
      ({ c with pc := .promoting newTerm }, [])
    else ({ c with pc := .demoting }, [])
  | .promoting newTerm =>
    ({ state := c.state.promoteToMain, pc := .idle }, [resultMessage c.state newTerm])
  | .demoting =>
    if c.state.role = NodeRole.worker then ({ c with pc := .idle }, [])
    else ({ c with pc := .steppingDown }, [])
  | .steppingDown =>
    ({ state := c.state.transitionTo NodeRole.worker, pc := .idle }, [])

def step (c : NodeConf) : NodeEvent -> NodeConf × List ClusterMessage
  | .loop dead => c.loopStep dead
  | .recvServer now msg =>
    let (state', reply) := c.state.dispatchMessage now msg
    ({ c with state := state' }, reply.toList)
  | .recvClient now msg =>
    ({ c with state := c.state.dispatchIncoming now msg }, [])
  | .evict dead => ({ c with state := c.state.evictDeadPeers dead }, [])
  | .heartbeat =>
    (c, [ClusterMessage.heartbeat
      { nodeId := c.state.nodeId, role := c.state.role }])

/-!
# Votes cast and elections won

Two observations of an event: the ballots the node casts in it, its own vote or
a granted request, and whether the event is a tally that the node wins.
-/

def ballotsCast (c : NodeConf) : NodeEvent -> List (Ballot NodeId NodeId)
  | .loop _ =>
    match c.pc with
    | .standing _ =>
      [{ voter := c.state.nodeId, term := c.state.election.term + 1,
         candidate := c.state.election.nodeId }]
    | _ => []
  | .recvServer _ (.electionVote vote) =>
    if vote.voterId = none ∧ (c.state.election.processVote vote).1 = true then
      [{ voter := c.state.nodeId, term := vote.term, candidate := vote.candidateId }]
    else []
  | _ => []

/--
The loop wins the tally for `newTerm` against `totalNodes` and calls
`promote_to_main`.
-/
def WinsTally (c : NodeConf) (totalNodes newTerm : Nat) : Prop :=
  c.pc = .waiting totalNodes newTerm ∧ ElectionManager.IsMajority
      (c.state.election.voteCountForTerm newTerm) totalNodes

instance (c : NodeConf) (totalNodes newTerm : Nat) : Decidable (c.WinsTally totalNodes newTerm) :=
  inferInstanceAs (Decidable (_ ∧ _))

def countedTotal? : LoopPc -> Option Nat
  | .standing totalNodes => some totalNodes
  | .soliciting totalNodes _ => some totalNodes
  | .waiting totalNodes _ => some totalNodes
  | _ => none

def openElection? : LoopPc -> Option (Nat × Nat)
  | .soliciting totalNodes newTerm => some (totalNodes, newTerm)
  | .waiting totalNodes newTerm => some (totalNodes, newTerm)
  | _ => none

/-!
# The moves of the vote state

`VoteMove` says once, for all events, how an event changes the vote state: the
node opens an election, answers a vote request, learns of an election result,
counts a vote grant, or does none of these.
-/

inductive VoteMove (c : NodeConf) : NodeEvent -> ElectionManager -> Prop where
  | quiet (ev : NodeEvent) : VoteMove c ev c.state.election
  | opens (dead : NodeId -> Bool) (totalNodes : Nat) :
      c.pc = .standing totalNodes ->
      VoteMove c (.loop dead) c.state.election.incrementTermAndVoteForSelf
  | request (now : Nat) (vote : ElectionVote) :
      vote.voterId = none ->
      VoteMove c (.recvServer now (.electionVote vote))
        (c.state.election.processVote vote).2
  | resultServer (now : Nat) (result : ElectionResult) :
      VoteMove c (.recvServer now (.electionResult result))
        (c.state.election.advanceTerm result.term)
  | resultClient (now : Nat) (result : ElectionResult) :
      VoteMove c (.recvClient now (.electionResult result))
        (c.state.election.advanceTerm result.term)
  | grant (now : Nat) (vote : ElectionVote) (voterId : NodeId) :
      vote.voterId = some voterId ->
      vote.candidateId = c.state.nodeId ->
      VoteMove c (.recvClient now (.electionVote vote))
        (c.state.election.recordVoteForMe vote.term voterId)

theorem recvVoteRequest_keeps (vote : ElectionVote) (n : NodeState) :
    (n.recvVoteRequest vote).1.election = (n.election.processVote vote).2 ∧
      (n.recvVoteRequest vote).1.nodeId = n.nodeId := by
  unfold NodeState.recvVoteRequest
  cases hvote : n.election.processVote vote with
  | mk granted election' =>
    cases granted with
    | true => exact ⟨rfl, rfl⟩
    | false => exact ⟨rfl, rfl⟩

/-!
`LoopMove` says the same of the loop itself: where it goes, what it sends, and what
of the node it changes on the way.
-/

structure SameMembership (n n' : NodeState) : Prop where
  nodeId : n'.nodeId = n.nodeId
  election : n'.election = n.election
  peers : n'.peers = n.peers

theorem sameMembership_refl (n : NodeState) : SameMembership n n := ⟨rfl, rfl, rfl⟩

inductive LoopMove (c : NodeConf) : NodeConf × List ClusterMessage -> Prop where
  | passes (state' : NodeState) (pc' : LoopPc) (sent : List ClusterMessage) :
      SameMembership c.state state' ->
      countedTotal? pc' = none -> pc' ≠ .claiming ->
      (forall vote, ClusterMessage.electionVote vote ∉ sent) ->
      LoopMove c ({ state := state', pc := pc' }, sent)
  | alone :
      c.pc = .counting -> c.state.totalNodes ≤ 1 ->
      LoopMove c ({ c with pc := .claiming }, [])
  | counts :
      c.pc = .counting ->
      LoopMove c ({ c with pc := .standing c.state.totalNodes }, [])
  | opens (totalNodes : Nat) :
      c.pc = .standing totalNodes ->
      LoopMove c
        ({ state :=
            { c.state with
              role := NodeRole.candidate
              election := c.state.election.incrementTermAndVoteForSelf }
           pc := .soliciting totalNodes (c.state.election.term + 1) }, [])
  | solicits (totalNodes newTerm : Nat) :
      c.pc = .soliciting totalNodes newTerm ->
      LoopMove c ({ c with pc := .waiting totalNodes newTerm }, [voteRequest c.state newTerm])

theorem loopMove_quiet {c : NodeConf} (pc' : LoopPc) (hcounted : countedTotal? pc' = none)
    (hclaiming : pc' ≠ .claiming) : LoopMove c ({ c with pc := pc' }, []) :=
  LoopMove.passes c.state pc' [] (sameMembership_refl c.state) hcounted hclaiming
    (fun _ => List.not_mem_nil)

theorem loopStep_move (dead : NodeId -> Bool) (c : NodeConf) : LoopMove c (c.loopStep dead) := by
  unfold loopStep
  split
  · rename_i hpc
    have hstays : LoopMove c ({ c with pc := .idle }, []) := loopMove_quiet .idle rfl nofun
    rw [← hpc] at hstays
    split
    · exact hstays
    · exact loopMove_quiet .sleeping rfl nofun
  · split
    · exact loopMove_quiet .counting rfl nofun
    · exact loopMove_quiet .idle rfl nofun
  · rename_i hpc
    dsimp only
    split
    · rename_i halone
      exact LoopMove.alone hpc halone
    · exact LoopMove.counts hpc
  · exact LoopMove.passes _ .idle [] ⟨rfl, rfl, rfl⟩ rfl nofun (fun _ => List.not_mem_nil)
  · rename_i totalNodes hpc
    exact LoopMove.opens totalNodes hpc
  · rename_i totalNodes newTerm hpc
    exact LoopMove.solicits totalNodes newTerm hpc
  · dsimp only
    split
    · exact loopMove_quiet (.promoting _) rfl nofun
    · exact loopMove_quiet .demoting rfl nofun
  · refine LoopMove.passes _ .idle _ ⟨rfl, rfl, rfl⟩ rfl nofun ?_
    intro vote hsent
    cases List.mem_singleton.mp hsent
  · split
    · exact loopMove_quiet .idle rfl nofun
    · exact loopMove_quiet .steppingDown rfl nofun
  · exact LoopMove.passes _ .idle [] ⟨rfl, rfl, rfl⟩ rfl nofun (fun _ => List.not_mem_nil)

theorem loopStep_keeps (dead : NodeId -> Bool) (c : NodeConf) :
    (c.loopStep dead).1.state.nodeId = c.state.nodeId ∧
      (c.loopStep dead).1.state.peers = c.state.peers := by
  have hmove := loopStep_move dead c
  generalize c.loopStep dead = next at hmove
  cases hmove with
  | passes state' pc' sent hsame _ _ _ => exact ⟨hsame.nodeId, hsame.peers⟩
  | alone | counts | opens | solicits => exact ⟨rfl, rfl⟩

theorem step_move (c : NodeConf) (ev : NodeEvent) :
    VoteMove c ev (c.step ev).1.state.election := by
  cases ev with
  | loop dead =>
    simp only [step]
    have hmove := loopStep_move dead c
    generalize c.loopStep dead = next at hmove
    cases hmove with
    | passes state' pc' sent hsame _ _ _ =>
      rw [hsame.election]
      exact VoteMove.quiet _
    | opens totalNodes hpc => exact VoteMove.opens dead totalNodes hpc
    | alone | counts | solicits => exact VoteMove.quiet _
  | evict dead =>
    simp only [step, (NodeState.evictDeadPeers_keeps dead c.state).left]
    exact VoteMove.quiet _
  | heartbeat => exact VoteMove.quiet _
  | recvServer now msg =>
    cases msg with
    | electionVote vote =>
      cases hvoter : vote.voterId with
      | none =>
        simp only [step, NodeState.dispatchMessage, hvoter,
          (recvVoteRequest_keeps vote c.state).left]
        exact VoteMove.request now vote hvoter
      | some v =>
        simp only [step, NodeState.dispatchMessage, hvoter]
        exact VoteMove.quiet _
    | electionResult result =>
      simp only [step, NodeState.dispatchMessage, NodeState.recvElectionResult_election]
      exact VoteMove.resultServer now result
    | _ => exact VoteMove.quiet _
  | recvClient now msg =>
    cases msg with
    | electionVote vote =>
      cases hvoter : vote.voterId with
      | none =>
        simp only [step, NodeState.dispatchIncoming, hvoter]
        exact VoteMove.quiet _
      | some v =>
        simp only [step, NodeState.dispatchIncoming, hvoter, NodeState.recvVoteGrant]
        split
        · rename_i hcandidate
          exact VoteMove.grant now vote v hvoter hcandidate
        · exact VoteMove.quiet _
    | electionResult result =>
      simp only [step, NodeState.dispatchIncoming, NodeState.recvElectionResult_election]
      exact VoteMove.resultClient now result
    | joinResponse resp =>
      simp only [step, NodeState.dispatchIncoming,
        (NodeState.recvJoinResponse_keeps now resp c.state).left]
      exact VoteMove.quiet _
    | _ => exact VoteMove.quiet _

theorem step_nodeId (c : NodeConf) (ev : NodeEvent) :
    (c.step ev).1.state.nodeId = c.state.nodeId := by
  cases ev with
  | loop dead => exact (loopStep_keeps dead c).left
  | evict dead => exact (NodeState.evictDeadPeers_keeps dead c.state).right
  | heartbeat => rfl
  | recvServer now msg =>
    cases msg with
    | electionVote vote =>
      cases hvoter : vote.voterId with
      | none =>
        simp only [step, NodeState.dispatchMessage, hvoter]
        exact (recvVoteRequest_keeps vote c.state).right
      | some v =>
        simp only [step, NodeState.dispatchMessage, hvoter]
    | _ => rfl
  | recvClient now msg =>
    cases msg with
    | electionVote vote =>
      cases hvoter : vote.voterId with
      | none =>
        simp only [step, NodeState.dispatchIncoming, hvoter]
      | some v =>
        simp only [step, NodeState.dispatchIncoming, hvoter, NodeState.recvVoteGrant]
        split <;> rfl
    | joinResponse resp =>
      exact (NodeState.recvJoinResponse_keeps now resp c.state).right
    | _ => rfl

theorem step_advances (c : NodeConf) (ev : NodeEvent) :
    ElectionManager.Advances c.state.election (c.step ev).1.state.election := by
  have hmove := step_move c ev
  generalize (c.step ev).1.state.election = election' at hmove
  cases hmove with
  | quiet => exact ElectionManager.advances_refl _
  | opens dead totalNodes hpc =>
    exact ElectionManager.advances_incrementTermAndVoteForSelf _
  | request now vote hvoter => exact ElectionManager.advances_processVote _ vote
  | resultServer now result => exact ElectionManager.advances_advanceTerm _ _
  | resultClient now result => exact ElectionManager.advances_advanceTerm _ _
  | grant now vote voterId hvoter hcandidate =>
    exact ElectionManager.advances_recordVoteForMe _ _ _

variable {c : NodeConf} {ev : NodeEvent}

theorem step_votes {t : Nat} {v : NodeId} (hid : c.state.election.nodeId = c.state.nodeId)
    (hv : v ∈ (c.step ev).1.state.election.votesForMe t) :
    v ∈ c.state.election.votesForMe t ∨ ({ voter := v, term := t, candidate := c.state.nodeId } :
        Ballot NodeId NodeId) ∈ c.ballotsCast ev ∨
      exists now vote, ev = NodeEvent.recvClient now (.electionVote vote) ∧
          vote.voterId = some v ∧ vote.term = t ∧ vote.candidateId = c.state.nodeId := by
  have hmove := step_move c ev
  generalize (c.step ev).1.state.election = election' at hmove hv
  cases hmove with
  | quiet => exact Or.inl hv
  | opens dead totalNodes hpc =>
    rcases ElectionManager.mem_votes_incrementTermAndVoteForSelf hv with hold | ⟨hself, hterm⟩
    · exact Or.inl hold
    · apply Or.inr
      apply Or.inl
      simp [ballotsCast, hpc, hself, hterm, hid]
  | request now vote hvoter =>
    rw [ElectionManager.processVote_votesForMe] at hv
    exact Or.inl hv
  | resultServer now result =>
    rw [ElectionManager.advanceTerm_votesForMe] at hv
    exact Or.inl hv
  | resultClient now result =>
    rw [ElectionManager.advanceTerm_votesForMe] at hv
    exact Or.inl hv
  | grant now vote voterId hvoter hcandidate =>
    rcases ElectionManager.mem_votes_recordVoteForMe hv with hold | ⟨hnew, hterm⟩
    · exact Or.inl hold
    · apply Or.inr
      apply Or.inr
      exact ⟨now, vote, rfl, by rw [hvoter, hnew], hterm.symm, hcandidate⟩

theorem ballotsCast_spec {b : Ballot NodeId NodeId} (hb : b ∈ c.ballotsCast ev) :
    b.voter = c.state.nodeId ∧ b.term = (c.step ev).1.state.election.term ∧
      (c.step ev).1.state.election.votedFor = some b.candidate := by
  cases ev with
  | loop dead =>
    cases hpc : c.pc with
    | standing totalNodes =>
      simp only [ballotsCast, hpc, List.mem_singleton] at hb
      simp only [step, loopStep, hpc]
      rw [hb]
      exact ⟨rfl, rfl, rfl⟩
    | _ =>
      simp [ballotsCast, hpc] at hb
  | recvServer now msg =>
    cases msg with
    | electionVote vote =>
      simp only [ballotsCast] at hb
      split at hb
      · rename_i hgrant
        rw [List.mem_singleton] at hb
        have hstate := (recvVoteRequest_keeps vote c.state).left
        have hpair : c.state.election.processVote vote =
            (true, (c.state.election.processVote vote).2) := Prod.ext hgrant.right rfl
        have hspec := ElectionManager.processVote_granted hpair
        simp only [step, NodeState.dispatchMessage, hgrant.left, hstate]
        rw [hb]
        exact ⟨rfl, hspec.left.symm, hspec.right⟩
      · cases hb
    | _ => cases hb
  | _ => cases hb

theorem step_echo_cast {vote : ElectionVote}
    {v : NodeId} (hsent : ClusterMessage.electionVote vote ∈ (c.step ev).2)
    (hvoter : vote.voterId = some v) :
    ({ voter := v, term := vote.term, candidate := vote.candidateId } :
      Ballot NodeId NodeId) ∈ c.ballotsCast ev := by
  cases ev with
  | loop dead =>
    simp only [step] at hsent
    have hmove := loopStep_move dead c
    generalize c.loopStep dead = next at hmove hsent
    cases hmove with
    | passes state' pc' sent _ _ _ hnone => exact absurd hsent (hnone vote)
    | solicits totalNodes newTerm hpc =>
      simp only [List.mem_singleton, voteRequest, ClusterMessage.electionVote.injEq] at hsent
      rw [hsent] at hvoter
      cases hvoter
    | alone | counts | opens => cases hsent
  | recvServer now msg =>
    cases msg with
    | electionVote request =>
      cases hrequest : request.voterId with
      | some w =>
        simp [step, NodeState.dispatchMessage, hrequest] at hsent
      | none =>
        simp only [step, NodeState.dispatchMessage, hrequest, NodeState.recvVoteRequest] at hsent
        cases hprocess : c.state.election.processVote request with
        | mk granted election' =>
          rw [hprocess] at hsent
          cases granted with
          | false => simp at hsent
          | true =>
            simp only [Option.toList_some, List.mem_singleton,
              ClusterMessage.electionVote.injEq] at hsent
            rw [hsent] at hvoter ⊢
            simp only [Option.some.injEq] at hvoter
            simp [ballotsCast, hrequest, hprocess, hvoter]
    | heartbeat hb => simp [step, NodeState.dispatchMessage] at hsent
    | electionResult result =>
      simp [step, NodeState.dispatchMessage] at hsent
    | joinRequest joiner =>
      simp [step, NodeState.dispatchMessage, NodeState.recvJoinRequest] at hsent
    | joinResponse resp => simp [step, NodeState.dispatchMessage] at hsent
    | other => simp [step, NodeState.dispatchMessage] at hsent
  | recvClient now msg => cases hsent
  | evict dead => cases hsent
  | heartbeat => simp [step] at hsent

/-!
# What moves the loop

Only loop events move the program counter, and the cluster is counted only on
the way from `counting`.
-/

theorem step_pc_of_not_loop (hev : forall dead, ev ≠ .loop dead) : (c.step ev).1.pc = c.pc := by
  cases ev with
  | loop dead => exact absurd rfl (hev dead)
  | _ => rfl

theorem loopStep_countedTotal {dead : NodeId -> Bool} {totalNodes : Nat}
    (hcounted : countedTotal? (c.loopStep dead).1.pc = some totalNodes) :
    countedTotal? c.pc = some totalNodes ∨
      (c.pc = .counting ∧ totalNodes = c.state.totalNodes) := by
  have hmove := loopStep_move dead c
  generalize c.loopStep dead = next at hmove hcounted
  cases hmove with
  | passes state' pc' sent _ hnone _ _ =>
    rw [hnone] at hcounted
    cases hcounted
  | alone => cases hcounted
  | counts hpc =>
    injection hcounted with htotal
    exact Or.inr ⟨hpc, htotal.symm⟩
  | opens total hpc | solicits total newTerm hpc =>
    rw [hpc]
    exact Or.inl hcounted

theorem loopStep_claiming {dead : NodeId -> Bool} (hclaiming : (c.loopStep dead).1.pc = .claiming) :
    c.pc = .counting ∧ c.state.totalNodes ≤ 1 := by
  have hmove := loopStep_move dead c
  generalize c.loopStep dead = next at hmove hclaiming
  cases hmove with
  | passes state' pc' sent _ _ hne _ => exact absurd hclaiming hne
  | alone hpc halone => exact ⟨hpc, halone⟩
  | counts | opens | solicits => cases hclaiming

end NodeConf

end Cluster
end PrxWaf
