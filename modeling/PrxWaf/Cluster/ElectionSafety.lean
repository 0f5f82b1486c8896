import PrxWaf.Cluster.World

/-!
# Election safety

The protocol invariant ties three things to the ballots cast so far: the vote
each node remembers, the vote grants in flight, and the votes each candidate has
counted.  Election safety is then the general fact about ballots and majorities.
-/

namespace PrxWaf
namespace Cluster

open Lib

namespace World

/-- The vote invariant: every vote a node remembers, sends or counts is a ballot. -/
structure VoteInv (members : List NodeId) (w : World) : Prop where
  ids : forall i, i ∈ members ->
    (w.nodes i).state.nodeId = i ∧ (w.nodes i).state.election.nodeId = i
  ballots : forall b, b ∈ w.ballots ->
    b.voter ∈ members ∧
      b.term ≤ (w.nodes b.voter).state.election.term ∧
      (b.term = (w.nodes b.voter).state.election.term ->
        (w.nodes b.voter).state.election.votedFor = some b.candidate)
  oneVote : OneVotePerTerm w.ballots
  grants : forall vote v, ClusterMessage.electionVote vote ∈ w.net ->
    vote.voterId = some v ->
    ({ voter := v, term := vote.term, candidate := vote.candidateId } :
      Ballot NodeId NodeId) ∈ w.ballots
  counted : forall i, i ∈ members -> forall t,
    Backed w.ballots ((w.nodes i).state.election.votesForMe t) t i
  wins : forall win, win ∈ w.wins -> Backed w.ballots win.voters win.term win.node

variable {members : List NodeId} {w w' : World}

theorem voteInv_of_fresh (hfresh : Fresh members w) : VoteInv members w := by
  constructor
  · intro i hi
    rcases hfresh.nodes i hi with ⟨hid, _, helection, _⟩
    rw [helection]
    exact ⟨hid, rfl⟩
  · intro b hb
    rw [hfresh.ballots] at hb
    cases hb
  · rw [hfresh.ballots]
    exact oneVotePerTerm_nil
  · intro vote v hsent
    rw [hfresh.net] at hsent
    cases hsent
  · intro i hi t v hv
    rw [(hfresh.nodes i hi).right.right.left] at hv
    cases hv
  · intro win hwin
    rw [hfresh.wins] at hwin
    cases hwin

section Step

variable {i : NodeId} {ev : NodeEvent}

theorem ids_act (hinv : VoteInv members w) (ev : NodeEvent) {j : NodeId} (hj : j ∈ members) :
    ((w.act i ev).nodes j).state.nodeId = j ∧ ((w.act i ev).nodes j).state.election.nodeId = j := by
  apply act_nodes_rule (P := fun c =>
    c.state.nodeId = j ∧ c.state.election.nodeId = j) _ (hinv.ids j hj)
  intro _
  rcases hinv.ids j hj with ⟨hid, helection⟩
  constructor
  · rw [NodeConf.step_nodeId]
    exact hid
  · rw [((w.nodes j).step_advances ev).nodeId]
    exact helection

theorem old_ballot_act (hinv : VoteInv members w) (i : NodeId)
    (ev : NodeEvent) {b : Ballot NodeId NodeId} (hb : b ∈ w.ballots) :
    b.voter ∈ members ∧ b.term ≤ ((w.act i ev).nodes b.voter).state.election.term ∧
      (b.term = ((w.act i ev).nodes b.voter).state.election.term ->
        ((w.act i ev).nodes b.voter).state.election.votedFor = some b.candidate) := by
  rcases hinv.ballots b hb with ⟨hmember, hle, hvote⟩
  refine ⟨hmember, ?_⟩
  apply act_nodes_rule (P := fun c => b.term ≤ c.state.election.term ∧
    (b.term = c.state.election.term -> c.state.election.votedFor = some b.candidate)) _ ⟨hle, hvote⟩
  intro _
  have hadv := (w.nodes b.voter).step_advances ev
  constructor
  · exact Nat.le_trans hle hadv.term
  · intro hterm
    have hsame : ((w.nodes b.voter).step ev).1.state.election.term =
        (w.nodes b.voter).state.election.term := Nat.le_antisymm (hterm ▸ hle) hadv.term
    exact hadv.vote hsame b.candidate (hvote (hterm.trans hsame))

theorem new_ballot_act (hinv : VoteInv members w) (hi : i ∈ members)
    {b : Ballot NodeId NodeId} (hb : b ∈ (w.nodes i).ballotsCast ev) :
    b.voter = i ∧ b.term = ((w.act i ev).nodes i).state.election.term ∧
      ((w.act i ev).nodes i).state.election.votedFor = some b.candidate := by
  rw [act_nodes_self]
  rcases NodeConf.ballotsCast_spec hb with ⟨hvoter, hterm, hvote⟩
  exact ⟨hvoter.trans (hinv.ids i hi).left, hterm, hvote⟩

theorem oneVote_act (hinv : VoteInv members w) (hi : i ∈ members) :
    OneVotePerTerm (w.act i ev).ballots := by
  apply oneVotePerTerm_append hinv.oneVote
  · intro a b ha hb _ _
    have hva := (new_ballot_act hinv hi ha).right.right
    have hvb := (new_ballot_act hinv hi hb).right.right
    rw [hva] at hvb
    exact Option.some.inj hvb
  · intro a b ha hb hvoter hterm
    rcases new_ballot_act hinv hi hb with ⟨hbvoter, hbterm, hbvote⟩
    have hold := (old_ballot_act hinv i ev ha).right.right
    rw [hvoter, hbvoter] at hold
    have hvote := hold (hterm.trans hbterm)
    rw [hbvote] at hvote
    exact (Option.some.inj hvote).symm

theorem counted_act (hinv : VoteInv members w) (hdel : w.Deliverable ev)
    {j : NodeId} (hj : j ∈ members) (t : Nat) :
    Backed (w.act i ev).ballots (((w.act i ev).nodes j).state.election.votesForMe t) t j := by
  apply act_nodes_rule (P := fun c => Backed (w.act i ev).ballots
    (c.state.election.votesForMe t) t j) _ (backed_append_left (hinv.counted j hj t))
  intro hji v hv
  rcases hinv.ids j hj with ⟨hid, helection⟩
  rcases NodeConf.step_votes (helection.trans hid.symm) hv with
    hold | hnew | ⟨now, vote, hev, hvoter, hterm, hcandidate⟩
  · exact backed_append_left (hinv.counted j hj t) v hold
  · rw [hid, hji] at hnew
    rw [hji]
    exact List.mem_append.mpr (Or.inr hnew)
  · rw [hev] at hdel
    have hballot := hinv.grants vote v hdel hvoter
    rw [hterm, hcandidate, hid] at hballot
    exact List.mem_append.mpr (Or.inl hballot)

theorem mem_winsOf {c : NodeConf} {win : Win} (hwin : win ∈ c.winsOf ev) :
    exists totalNodes, c.WinsTally totalNodes win.term ∧ win.node = c.state.nodeId ∧
      win.voters = c.state.election.votesForMe win.term := by
  cases ev with
  | loop dead =>
    cases hpc : c.pc with
    | waiting totalNodes newTerm =>
      simp only [NodeConf.winsOf, hpc] at hwin
      split at hwin
      · rename_i hwins
        rw [List.mem_singleton] at hwin
        rw [hwin]
        exact ⟨totalNodes, hwins, rfl, rfl⟩
      · cases hwin
    | _ =>
      simp [NodeConf.winsOf, hpc] at hwin
  | _ => cases hwin

theorem wins_act (hinv : VoteInv members w) (hi : i ∈ members) {win : Win}
    (hwin : win ∈ (w.act i ev).wins) :
    Backed (w.act i ev).ballots win.voters win.term win.node := by
  apply backed_append_left
  rcases List.mem_append.mp hwin with hold | hnew
  · exact hinv.wins win hold
  · rcases mem_winsOf hnew with ⟨totalNodes, _, hnode, hvoters⟩
    rw [hvoters, hnode, (hinv.ids i hi).left]
    exact hinv.counted i hi win.term

theorem voteInv_act (hinv : VoteInv members w) (hi : i ∈ members)
    (hdel : w.Deliverable ev) : VoteInv members (w.act i ev) := by
  constructor
  · intro j hj
    exact ids_act hinv ev hj
  · intro b hb
    rcases List.mem_append.mp hb with hold | hnew
    · exact old_ballot_act hinv i ev hold
    · rcases new_ballot_act hinv hi hnew with ⟨hvoter, hterm, hvote⟩
      rw [hvoter]
      exact ⟨hi, Nat.le_of_eq hterm, fun _ => hvote⟩
  · exact oneVote_act hinv hi
  · intro vote v hsent hvoter
    rcases List.mem_append.mp hsent with hold | hnew
    · exact List.mem_append.mpr (Or.inl (hinv.grants vote v hold hvoter))
    · exact List.mem_append.mpr (Or.inr (NodeConf.step_echo_cast hnew hvoter))
  · intro j hj t
    exact counted_act hinv hdel hj t
  · intro win hwin
    exact wins_act hinv hi hwin

end Step

/-!
# Quorums

The tally compares the votes with the cluster size that the loop read when it
opened the election.  As long as that reading keeps the majority threshold of
the full membership, every win has a majority of the members behind it.
-/

/--
The step does not lower the threshold: when the loop counts the cluster, half of
what it counts is at least half of the membership.
-/
def KeepsQuorum (members : List NodeId) (w : World) (action : NodeId × NodeEvent) : Prop :=
  match action.2 with
  | .loop _ =>
    (w.nodes action.1).pc = .counting ->
      members.length / 2 ≤ (w.nodes action.1).state.totalNodes / 2
  | _ => True

instance (members : List NodeId) (w : World) :
    (action : NodeId × NodeEvent) -> Decidable (KeepsQuorum members w action)
  | (_, .loop _) => inferInstanceAs (Decidable (_ -> _))
  | (_, .recvServer _ _) => isTrue trivial
  | (_, .recvClient _ _) => isTrue trivial
  | (_, .evict _) => isTrue trivial
  | (_, .heartbeat) => isTrue trivial

structure QuorumInv (members : List NodeId) (w : World) : Prop where
  vote : VoteInv members w
  totals : forall i, i ∈ members -> forall totalNodes,
    NodeConf.countedTotal? (w.nodes i).pc = some totalNodes -> members.length / 2 ≤ totalNodes / 2
  wins : forall win, win ∈ w.wins -> members.length / 2 < win.voters.card
  claims : 2 ≤ members.length -> forall i, i ∈ members -> (w.nodes i).pc ≠ .claiming

theorem quorumInv_of_fresh (hfresh : Fresh members w) : QuorumInv members w := by
  constructor
  · exact voteInv_of_fresh hfresh
  · intro i hi totalNodes hcounted
    rw [(hfresh.nodes i hi).right.right.right] at hcounted
    cases hcounted
  · intro win hwin
    rw [hfresh.wins] at hwin
    cases hwin
  · intro _ i hi hclaiming
    rw [(hfresh.nodes i hi).right.right.right] at hclaiming
    cases hclaiming

variable {i : NodeId} {ev : NodeEvent} {action : NodeId × NodeEvent}
  {acts : List (NodeId × NodeEvent)}

theorem totals_step (hinv : QuorumInv members w) (hi : i ∈ members)
    (hkeeps : KeepsQuorum members w (i, ev)) {totalNodes : Nat} (hcounted :
      NodeConf.countedTotal? ((w.nodes i).step ev).1.pc = some totalNodes) :
    members.length / 2 ≤ totalNodes / 2 := by
  cases ev with
  | loop dead =>
    rcases NodeConf.loopStep_countedTotal hcounted with hold | ⟨hpc, htotal⟩
    · exact hinv.totals i hi totalNodes hold
    · rw [htotal]
      exact hkeeps hpc
  | _ => exact hinv.totals i hi totalNodes hcounted

theorem claims_step (hinv : QuorumInv members w) (hi : i ∈ members)
    (hkeeps : KeepsQuorum members w (i, ev)) (hsize : 2 ≤ members.length) :
    ((w.nodes i).step ev).1.pc ≠ .claiming := by
  intro hclaiming
  cases ev with
  | loop dead =>
    rcases NodeConf.loopStep_claiming hclaiming with ⟨hpc, halone⟩
    have hthreshold := hkeeps hpc
    lia
  | _ => exact hinv.claims hsize i hi hclaiming

theorem quorumInv_step (hinv : QuorumInv members w) (hkeeps : KeepsQuorum members w action)
    (hstep : step members w action = some w') : QuorumInv members w' := by
  rcases step_some hstep with ⟨hi, hdel, hw⟩
  rcases action with ⟨i, ev⟩
  subst hw
  constructor
  · exact voteInv_act hinv.vote hi hdel
  · intro j hj
    apply act_nodes_rule (P := fun c => forall totalNodes,
      NodeConf.countedTotal? c.pc = some totalNodes ->
        members.length / 2 ≤ totalNodes / 2) _ (hinv.totals j hj)
    intro hji totalNodes hcounted
    rw [show i = j from hji.symm] at hkeeps
    exact totals_step hinv hj hkeeps hcounted
  · intro win hwin
    rcases List.mem_append.mp hwin with hold | hnew
    · exact hinv.wins win hold
    · rcases mem_winsOf hnew with ⟨totalNodes, hwins, _, hvoters⟩
      have hthreshold : members.length / 2 ≤ totalNodes / 2 := by
        apply hinv.totals i hi
        rw [hwins.left]
        rfl
      rw [hvoters]
      exact Nat.lt_of_le_of_lt hthreshold hwins.right.right
  · intro hsize j hj
    apply act_nodes_rule (P := fun c => c.pc ≠ .claiming) _ (hinv.claims hsize j hj)
    intro hji
    rw [show i = j from hji.symm] at hkeeps
    exact claims_step hinv hj hkeeps hsize

theorem quorumInv_run (hfresh : Fresh members w)
    (hkeeps : StepsMeet (step members) (KeepsQuorum members) w acts)
    (hrun : runFrom (step members) w acts = some w') :
    QuorumInv members w' :=
  runFrom_invariant quorumInv_step (quorumInv_of_fresh hfresh) hkeeps hrun

theorem win_voters_subset (hinv : VoteInv members w) {win : Win} (hwin : win ∈ w.wins) :
    win.voters ⊆ members.toFinset := by
  intro v hv
  have hballot := hinv.wins win hwin v hv
  exact List.mem_toFinset.mpr (hinv.ballots _ hballot).left

theorem win_majority (hinv : QuorumInv members w) {win : Win} (hwin : win ∈ w.wins) :
    members.toFinset.card / 2 < win.voters.card :=
  Nat.lt_of_le_of_lt (Nat.div_le_div_right (List.toFinset_card_le members)) (hinv.wins win hwin)

theorem keepsQuorum_of_fullyJoined (hi : action.1 ∈ members)
    (hjoined : FullyJoined members w) : KeepsQuorum members w action := by
  rcases action with ⟨i, ev⟩
  cases ev with
  | loop dead =>
    intro _
    have hlength := (hjoined i hi).length_eq
    rw [List.length_map, List.length_erase_of_mem hi] at hlength
    have hpos : 0 < members.length := List.length_pos_of_mem hi
    have htotal : (w.nodes i).state.totalNodes = members.length := by
      unfold NodeState.totalNodes
      lia
    rw [htotal]
  | _ => trivial

/-!
# One winner per term

When every peer list holds the other members throughout, every tally is against
the full membership, whatever the interleaving and whatever happens to the
messages.
-/

theorem quorumInv_run_of_fullyJoined (hfresh : Fresh members w)
    (hjoined : StepsMeet (step members) (fun s _ => FullyJoined members s) w acts)
    (hrun : runFrom (step members) w acts = some w') :
    QuorumInv members w' := by
  refine runFrom_invariant ?_ (quorumInv_of_fresh hfresh) hjoined hrun
  intro s action s' hinv hfull hstep
  have hi := (step_some hstep).left
  exact quorumInv_step hinv (keepsQuorum_of_fullyJoined hi hfull) hstep

theorem tally_winner_unique {members : List NodeId} {w w' : World}
    {acts : List (NodeId × NodeEvent)} (hfresh : Fresh members w)
    (hjoined : StepsMeet (step members) (fun s _ => FullyJoined members s) w acts)
    (hrun : runFrom (step members) w acts = some w')
    {a b : Win} (ha : a ∈ w'.wins) (hb : b ∈ w'.wins)
    (hterm : a.term = b.term) : a.node = b.node := by
  have hinv := quorumInv_run_of_fullyJoined hfresh hjoined hrun
  have hbacked := hinv.vote.wins b hb
  rw [← hterm] at hbacked
  exact majority_candidate_unique hinv.vote.oneVote
    (win_voters_subset hinv.vote ha) (win_voters_subset hinv.vote hb)
    (win_majority hinv ha) (win_majority hinv hb) (hinv.vote.wins a ha) hbacked

/-! Concrete runs are put together from these pieces. -/

/-- The election loop of `i` passes `k` await points, every main being dead. -/
def loops (i : NodeId) (k : Nat) : List (NodeId × NodeEvent) :=
  List.replicate k (i, .loop (fun _ => true))

def voteMessage (candidate : NodeId) (term : Nat) (voter : Option NodeId) : ClusterMessage :=
  .electionVote
    { term := term, candidateId := candidate, lastLogIndex := 0, voterId := voter }

def voteRound (candidate : NodeId) (term : Nat) (voter : NodeId) : List (NodeId × NodeEvent) :=
  [(voter, .recvServer 0 (voteMessage candidate term none)),
    (candidate, .recvClient 0 (voteMessage candidate term (some voter)))]

def wonElection (candidate : NodeId) (term : Nat) (voter : NodeId) : List (NodeId × NodeEvent) :=
  loops candidate 5 ++ voteRound candidate term voter ++ loops candidate 2

instance (members : List NodeId) (w : World) : Decidable (FullyJoined members w) :=
  inferInstanceAs (Decidable (forall i, i ∈ members -> _))

theorem tally_winner_unique_three :
    exists w', runFrom (step ["a", "b", "c"]) (start ["a", "b", "c"])
        (wonElection "a" 1 "b") = some w' ∧
      w'.wins = [{ node := "a", term := 1, voters := {"b", "a"} }] ∧
      forall win, win ∈ w'.wins -> win.term = 1 -> win.node = "a" := by
  have hjoined : StepsMeet (step ["a", "b", "c"])
      (fun s _ => FullyJoined ["a", "b", "c"] s) (start ["a", "b", "c"])
      (wonElection "a" 1 "b") := by decide
  have hwins : (runFrom (step ["a", "b", "c"]) (start ["a", "b", "c"])
      (wonElection "a" 1 "b")).map World.wins =
        some [{ node := "a", term := 1, voters := {"b", "a"} }] := by decide
  rcases Option.map_eq_some_iff.mp hwins with ⟨w', hrun, hw'⟩
  refine ⟨w', hrun, hw', ?_⟩
  intro win hwin hterm
  exact tally_winner_unique (start_fresh _) hjoined hrun hwin
    (by rw [hw']; exact List.mem_singleton.mpr rfl) hterm

/-!
# Quorums under eviction

Eviction shrinks the peer list that the threshold is computed from.  A run in
which no count of the cluster lowers the threshold has only majority wins, and
then any two wins share a voter, so that no two halves of a partition elect a
main; nor does a node claim the role for want of peers.  Without that condition
both halves of a split cluster elect a main.
-/

theorem tally_voters_majority {members : List NodeId} {w w' : World}
    {acts : List (NodeId × NodeEvent)} (hfresh : Fresh members w)
    (hkeeps : StepsMeet (step members) (KeepsQuorum members) w acts)
    (hrun : runFrom (step members) w acts = some w') :
    (forall a, a ∈ w'.wins -> a.voters ⊆ members.toFinset ∧ members.length < 2 * a.voters.card) ∧
    (forall a b, a ∈ w'.wins -> b ∈ w'.wins ->
      exists v, v ∈ a.voters ∧ v ∈ b.voters) ∧ (2 ≤ members.length -> forall i, i ∈ members ->
      (w'.nodes i).pc ≠ .claiming) := by
  have hinv := quorumInv_run hfresh hkeeps hrun
  refine ⟨?_, ?_, hinv.claims⟩
  · intro a ha
    have hmajority := hinv.wins a ha
    exact ⟨win_voters_subset hinv.vote ha, by lia⟩
  · intro a b ha hb
    exact majorities_share_voter (win_voters_subset hinv.vote ha) (win_voters_subset hinv.vote hb)
      (win_majority hinv ha) (win_majority hinv hb)

theorem tally_voters_majority_evicted :
    exists w', runFrom (step ["a", "b", "c"]) (start ["a", "b", "c"])
        (("a", .evict (fun id => id = "c")) :: wonElection "a" 1 "b") = some w' ∧ w'.wins ≠ [] ∧
      forall win, win ∈ w'.wins -> 3 < 2 * win.voters.card := by
  have hkeeps : StepsMeet (step ["a", "b", "c"])
      (KeepsQuorum ["a", "b", "c"]) (start ["a", "b", "c"])
      (("a", .evict (fun id => id = "c")) :: wonElection "a" 1 "b") := by
    decide
  have hwins : (runFrom (step ["a", "b", "c"]) (start ["a", "b", "c"])
      (("a", .evict (fun id => id = "c")) :: wonElection "a" 1 "b")).map
        (fun w => w.wins.length) = some 1 := by decide
  rcases Option.map_eq_some_iff.mp hwins with ⟨w', hrun, hlength⟩
  refine ⟨w', hrun, ?_, ?_⟩
  · intro hnil
    rw [hnil] at hlength
    cases hlength
  · intro win hwin
    exact ((tally_voters_majority (start_fresh _) hkeeps hrun).left win hwin).right

/--
Four fully joined nodes split into halves: each half evicts the other and elects
a main with two votes, in the same term.
-/
theorem partition_elects_two_mains :
    FullyJoined ["a", "b", "c", "d"] (start ["a", "b", "c", "d"]) ∧
    exists w', runFrom (step ["a", "b", "c", "d"]) (start ["a", "b", "c", "d"])
        ([("a", .evict (fun id => id = "c" ∨ id = "d")),
          ("c", .evict (fun id => id = "a" ∨ id = "b"))] ++
          wonElection "a" 1 "b" ++ wonElection "c" 1 "d") = some w' ∧ w'.wins =
        [{ node := "a", term := 1, voters := {"b", "a"} },
          { node := "c", term := 1, voters := {"d", "c"} }] ∧
      (w'.nodes "a").state.role = NodeRole.main ∧ (w'.nodes "c").state.role = NodeRole.main ∧
      forall win, win ∈ w'.wins -> ¬ 4 < 2 * win.voters.card := by
  refine ⟨by decide, ?_⟩
  have hrun : (runFrom (step ["a", "b", "c", "d"]) (start ["a", "b", "c", "d"])
      ([("a", .evict (fun id => id = "c" ∨ id = "d")),
        ("c", .evict (fun id => id = "a" ∨ id = "b"))] ++
        wonElection "a" 1 "b" ++ wonElection "c" 1 "d")).map
          (fun w => (w.wins, (w.nodes "a").state.role, (w.nodes "c").state.role)) =
      some ([{ node := "a", term := 1, voters := {"b", "a"} },
        { node := "c", term := 1, voters := {"d", "c"} }],
        NodeRole.main, NodeRole.main) := by decide
  rcases Option.map_eq_some_iff.mp hrun with ⟨w', hrun', hw'⟩
  injection hw' with hwins hroles
  injection hroles with ha hc
  refine ⟨w', hrun', hwins, ha, hc, ?_⟩
  rw [hwins]
  decide

theorem voteInv_run (hfresh : Fresh members w) (hrun : runFrom (step members) w acts = some w') :
    VoteInv members w' := by
  refine runFrom_invariant ?_ (voteInv_of_fresh hfresh) (stepsMeet_true w acts) hrun
  intro s action s' hinv _ hstep
  rcases step_some hstep with ⟨hi, hdel, hs'⟩
  rw [hs']
  exact voteInv_act hinv hi hdel

/-- A voter is counted by one winner of a term, even where the cluster is split. -/
theorem split_wins_disjoint (hfresh : Fresh members w)
    (hrun : runFrom (step members) w acts = some w') {a b : Win}
    (ha : a ∈ w'.wins) (hb : b ∈ w'.wins) (hterm : a.term = b.term) (hnode : a.node ≠ b.node) :
    Disjoint a.voters b.voters ∧ a.voters.card + b.voters.card ≤ members.length := by
  have hinv := voteInv_run hfresh hrun
  have hdisjoint : Disjoint a.voters b.voters := by
    refine Finset.disjoint_left.mpr ?_
    intro v hva hvb
    exact hnode (hinv.oneVote _ _ (hinv.wins a ha v hva) (hinv.wins b hb v hvb) rfl hterm)
  refine ⟨hdisjoint, ?_⟩
  rw [← Finset.card_union_of_disjoint hdisjoint]
  have hmembers := Finset.union_subset (win_voters_subset hinv ha) (win_voters_subset hinv hb)
  exact (Finset.card_le_card hmembers).trans (List.toFinset_card_le members)

theorem split_wins_disjoint_halves :
    exists w' a b, a ∈ World.wins w' ∧ b ∈ World.wins w' ∧ a.term = b.term ∧ a.node ≠ b.node ∧
      a.voters.card + b.voters.card ≤ 4 := by
  have hwins : (runFrom (step ["a", "b", "c", "d"]) (start ["a", "b", "c", "d"])
      (("a", .evict (fun id => id = "c" ∨ id = "d")) ::
        ("c", .evict (fun id => id = "a" ∨ id = "b")) ::
        (wonElection "a" 1 "b" ++ wonElection "c" 1 "d"))).map World.wins =
      some [{ node := "a", term := 1, voters := {"b", "a"} },
        { node := "c", term := 1, voters := {"d", "c"} }] := by decide
  rcases Option.map_eq_some_iff.mp hwins with ⟨w', hrun, hw'⟩
  have ha := hw' ▸ List.mem_cons_self
  have hb := hw' ▸ List.mem_cons_of_mem _ List.mem_cons_self
  exact ⟨w', _, _, ha, hb, rfl, by decide,
    (split_wins_disjoint (start_fresh _) hrun ha hb rfl (by decide)).right⟩

end World

end Cluster
end PrxWaf
