import PrxWaf.Cluster.ElectionSafety
import PrxWaf.Lib.Machine

/-!
# Terms as fences

A term is meant to fence off what belongs to an older one: a stale election
result is to be ignored, and an election is to be won only in the term in which
it was opened.  `process_result` answers a stale result with the same value as a
lost election, and a vote bucket outlives its term, so both hold only under a
condition, which this module states.
-/

namespace PrxWaf
namespace Cluster

open Lib

namespace NodeState

def SameStanding (n n' : NodeState) : Prop :=
  n'.role = n.role ∧ n'.election.term = n.election.term ∧ n'.election.votedFor = n.election.votedFor

theorem recvElectionResult_of_stale {n : NodeState} {result : ElectionResult}
    (hstale : result.term < n.election.term) :
    n.recvElectionResult result = n.transitionTo NodeRole.worker := by
  have hrole := ElectionManager.processResult_fst_of_stale hstale
  have helection : n.election.advanceTerm result.term = n.election := by
    unfold ElectionManager.advanceTerm
    rw [if_neg (Nat.lt_asymm hstale)]
  have hpair : n.election.processResult result = (NodeRole.worker, n.election) := by
    refine Prod.ext hrole ?_
    rw [ElectionManager.processResult_snd, helection]
  simp only [recvElectionResult, hpair]

theorem sameStanding_transitionTo_worker (n : NodeState) :
    SameStanding n (n.transitionTo NodeRole.worker) <-> n.role = NodeRole.worker := by
  constructor
  · intro h
    exact h.left.symm
  · intro h
    exact ⟨h.symm, rfl, rfl⟩

theorem staleResult_ignored_iff_worker {n : NodeState}
    {result : ElectionResult} (hstale : result.term < n.election.term) (now : Nat) :
    (SameStanding n (n.dispatchMessage now (.electionResult result)).1 ∧
      SameStanding n (n.dispatchIncoming now (.electionResult result))) <->
      n.role = NodeRole.worker := by
  simp only [dispatchMessage, dispatchIncoming, recvElectionResult_of_stale hstale, and_self]
  exact sameStanding_transitionTo_worker n

theorem staleResult_ignored_iff_worker_fresh :
    let n : NodeState :=
      { NodeState.new "a" "auto" with
        election := (ElectionManager.new "a").advanceTerm 2 }
    let result : ElectionResult :=
      { term := 1, electedId := "b", voterIds := {"b"} }
    SameStanding n (n.dispatchMessage 0 (.electionResult result)).1 ∧
      SameStanding n (n.dispatchIncoming 0 (.electionResult result)) :=
  (staleResult_ignored_iff_worker (by decide) 0).mpr rfl

end NodeState

namespace World

/--
In a cluster of three, `b` wins term 1 and `a`, which has not heard of it, wins
term 2.  The result of term 1 then demotes `a`, the main of term 2.
-/
theorem staleResult_demotes_main :
    exists w result, runFrom (step ["a", "b", "c"]) (start ["a", "b", "c"])
        (wonElection "b" 1 "a" ++ wonElection "a" 2 "c") = some w ∧
      ClusterMessage.electionResult result ∈ w.net ∧
      result.term < (w.nodes "a").state.election.term ∧ (w.nodes "a").state.role = NodeRole.main ∧
      ((w.nodes "a").state.dispatchMessage 0 (.electionResult result)).1.role = NodeRole.worker ∧
      ((w.nodes "a").state.dispatchIncoming 0 (.electionResult result)).role =
        NodeRole.worker := by
  have hrun : (runFrom (step ["a", "b", "c"]) (start ["a", "b", "c"])
      (wonElection "b" 1 "a" ++ wonElection "a" 2 "c")).map
        (fun w => (decide (ClusterMessage.electionResult
            { term := 1, electedId := "b", voterIds := {"a", "b"} } ∈ w.net),
          (w.nodes "a").state.election.term, (w.nodes "a").state.role)) =
      some (true, 2, NodeRole.main) := by decide
  rcases Option.map_eq_some_iff.mp hrun with ⟨w, hw, hobs⟩
  injection hobs with hnet hrest
  injection hrest with hterm hrole
  have hstale : 1 < (w.nodes "a").state.election.term := by
    rw [hterm]
    decide
  refine ⟨w, _, hw, of_decide_eq_true hnet, hstale, hrole, ?_, ?_⟩
  · simp only [NodeState.dispatchMessage]
    rw [NodeState.recvElectionResult_of_stale hstale]
    rfl
  · simp only [NodeState.dispatchIncoming]
    rw [NodeState.recvElectionResult_of_stale hstale]
    rfl

end World

/-!
# Promotion in an overtaken election

The loop sleeps between opening an election and tallying it.  A vote request or
a result of a higher term may arrive in between.  If the election's bucket does
not hold a majority by then it never will, because later votes for it are stale;
if it does, the tally is won all the same.
-/

namespace NodeConf

/-- The node on its own: any message may arrive at any await point. -/
def nodeStep (c : NodeConf) (ev : NodeEvent) : Option NodeConf :=
  some (c.step ev).1

/-- The event opens an election at the last term of a `u64`. -/
def opensAtLastTerm? (c : NodeConf) : NodeEvent -> Option Nat
  | .loop _ =>
    match c.pc with
    | .standing totalNodes => if c.state.election.term = u64Max then some totalNodes else none
    | _ => none
  | _ => none

/-- The node on its own with `u64` terms: behind the last term comes term 0.  As any
message may arrive, one is enough to bring the node to the last term. -/
def wrappingStep (c : NodeConf) (ev : NodeEvent) : Option NodeConf :=
  match c.opensAtLastTerm? ev with
  | some totalNodes =>
    some
      { state :=
          { c.state with role := NodeRole.candidate, election := c.state.election.standFor 0 }
        pc := .soliciting totalNodes 0 }
  | none => nodeStep c ev

theorem wrappingStep_some {c c' : NodeConf} {ev : NodeEvent}
    (hbefore : c.opensAtLastTerm? ev = none) (hstep : wrappingStep c ev = some c') :
    c' = (c.step ev).1 := by
  unfold wrappingStep at hstep
  rw [hbefore] at hstep
  injection hstep with hc'
  exact hc'.symm

def raisedTerm? (c : NodeConf) : NodeEvent -> Option Nat
  | .recvServer _ (.electionVote vote) =>
    if vote.voterId = none ∧ c.state.election.term < vote.term then
      some vote.term
    else none
  | .recvServer _ (.electionResult result) =>
    if c.state.election.term < result.term then some result.term else none
  | .recvClient _ (.electionResult result) =>
    if c.state.election.term < result.term then some result.term else none
  | _ => none

/-- A higher term arrives while the open election already has its majority. -/
def OvertakesMajority (c : NodeConf) (ev : NodeEvent) : Prop :=
  match openElection? c.pc, c.raisedTerm? ev with
  | some (totalNodes, newTerm), some _ =>
    ElectionManager.IsMajority (c.state.election.voteCountForTerm newTerm) totalNodes
  | _, _ => False

instance (c : NodeConf) (ev : NodeEvent) : Decidable (c.OvertakesMajority ev) :=
  match hopen : openElection? c.pc, hraised : c.raisedTerm? ev with
  | some (totalNodes, newTerm), some _ =>
    decidable_of_iff
      (ElectionManager.IsMajority
        (c.state.election.voteCountForTerm newTerm) totalNodes)
      (by simp only [OvertakesMajority, hopen, hraised])
  | none, _ => isFalse (by simp only [OvertakesMajority, hopen, not_false_eq_true])
  | some _, none =>
    isFalse (by simp only [OvertakesMajority, hopen, hraised, not_false_eq_true])

/-- What keeps the fence: no majority is overtaken, and no term wraps around. -/
def KeepsFence (c : NodeConf) (ev : NodeEvent) : Prop :=
  ¬ c.OvertakesMajority ev ∧ c.opensAtLastTerm? ev = none

instance (c : NodeConf) (ev : NodeEvent) : Decidable (c.KeepsFence ev) :=
  inferInstanceAs (Decidable (_ ∧ _))

/-- The open election is of the current term, or it can no longer be won. -/
def OpenIsFresh (c : NodeConf) : Prop :=
  forall totalNodes newTerm,
    openElection? c.pc = some (totalNodes, newTerm) ->
    newTerm ≤ c.state.election.term ∧
      (c.state.election.term = newTerm ∨
        ¬ ElectionManager.IsMajority
          (c.state.election.voteCountForTerm newTerm) totalNodes)

variable {c : NodeConf} {ev : NodeEvent} {t : Nat}

theorem openElection?_of_countedTotal?_none {pc : LoopPc} (h : countedTotal? pc = none) :
    openElection? pc = none := by
  cases pc with
  | soliciting | waiting => cases h
  | _ => rfl

theorem loopStep_openElection {dead : NodeId -> Bool} {totalNodes newTerm : Nat}
    (hopen : openElection? (c.loopStep dead).1.pc = some (totalNodes, newTerm)) :
    (openElection? c.pc = some (totalNodes, newTerm) ∧
      (c.loopStep dead).1.state.election = c.state.election) ∨ (c.pc = .standing totalNodes ∧
      newTerm = c.state.election.term + 1 ∧ (c.loopStep dead).1.state.election =
        c.state.election.incrementTermAndVoteForSelf) := by
  have hmove := loopStep_move dead c
  generalize c.loopStep dead = next at hmove hopen ⊢
  cases hmove with
  | passes state' pc' sent _ hnone _ _ =>
    rw [openElection?_of_countedTotal?_none hnone] at hopen
    cases hopen
  | alone | counts => cases hopen
  | opens total hpc =>
    simp only [openElection?, Option.some.injEq, Prod.mk.injEq] at hopen
    exact Or.inr ⟨by rw [hpc, hopen.left], hopen.right.symm, rfl⟩
  | solicits total term hpc =>
    rw [hpc]
    exact Or.inl ⟨hopen, rfl⟩

theorem step_term_of_raisedTerm_none
    (hev : forall dead, ev ≠ .loop dead) (hraised : c.raisedTerm? ev = none) :
    (c.step ev).1.state.election.term = c.state.election.term := by
  have hmove := step_move c ev
  generalize (c.step ev).1.state.election = election' at hmove ⊢
  cases hmove with
  | quiet => rfl
  | opens dead totalNodes hpc => exact absurd rfl (hev dead)
  | request now vote hvoter =>
    simp only [raisedTerm?, hvoter, true_and] at hraised
    split at hraised
    · cases hraised
    · rw [ElectionManager.processVote_term]
      lia
  | resultServer now result =>
    simp only [raisedTerm?] at hraised
    split at hraised
    · cases hraised
    · rw [ElectionManager.advanceTerm_term]
      lia
  | resultClient now result =>
    simp only [raisedTerm?] at hraised
    split at hraised
    · cases hraised
    · rw [ElectionManager.advanceTerm_term]
      lia
  | grant now vote voterId hvoter hcandidate =>
    exact ElectionManager.recordVoteForMe_term _ _ _

theorem step_of_raisedTerm_some (hraised : c.raisedTerm? ev = some t) :
    c.state.election.term < t ∧ (c.step ev).1.pc = c.pc ∧
      (c.step ev).1.state.election.term = t ∧ (c.step ev).1.state.election.votesForMe =
        c.state.election.votesForMe := by
  have hpc : (c.step ev).1.pc = c.pc := by
    apply step_pc_of_not_loop
    intro dead hev
    rw [hev] at hraised
    cases hraised
  cases ev with
  | recvServer now msg =>
    cases msg with
    | electionVote vote =>
      simp only [raisedTerm?] at hraised
      split at hraised
      · rename_i hhigher
        injection hraised with ht
        simp only [step, NodeState.dispatchMessage, hhigher.left,
          (recvVoteRequest_keeps vote c.state).left, ElectionManager.processVote_term,
          ElectionManager.processVote_votesForMe]
        exact ⟨by lia, trivial, by lia, trivial⟩
      · cases hraised
    | electionResult result =>
      simp only [raisedTerm?] at hraised
      split at hraised
      · rename_i hhigher
        injection hraised with ht
        simp only [step, NodeState.dispatchMessage, NodeState.recvElectionResult_election,
          ElectionManager.advanceTerm_term, ElectionManager.advanceTerm_votesForMe]
        exact ⟨by lia, trivial, by lia, trivial⟩
      · cases hraised
    | _ => cases hraised
  | recvClient now msg =>
    cases msg with
    | electionResult result =>
      simp only [raisedTerm?] at hraised
      split at hraised
      · rename_i hhigher
        injection hraised with ht
        simp only [step, NodeState.dispatchIncoming, NodeState.recvElectionResult_election,
          ElectionManager.advanceTerm_term, ElectionManager.advanceTerm_votesForMe]
        exact ⟨by lia, trivial, by lia, trivial⟩
      · cases hraised
    | _ => cases hraised
  | _ => cases hraised

theorem step_votes_of_lt (hev : forall dead, ev ≠ .loop dead) (hold : t < c.state.election.term) :
    (c.step ev).1.state.election.votesForMe t = c.state.election.votesForMe t := by
  have hmove := step_move c ev
  generalize (c.step ev).1.state.election = election' at hmove ⊢
  cases hmove with
  | quiet => rfl
  | opens dead totalNodes hpc => exact absurd rfl (hev dead)
  | request now vote hvoter => rw [ElectionManager.processVote_votesForMe]
  | resultServer now result => rw [ElectionManager.advanceTerm_votesForMe]
  | resultClient now result => rw [ElectionManager.advanceTerm_votesForMe]
  | grant now vote voterId hvoter hcandidate =>
    exact ElectionManager.recordVoteForMe_votes_of_lt hold _ _

/-! One step keeps the open election fresh, unless it overtakes a majority. -/

theorem openIsFresh_loop (hfresh : c.OpenIsFresh)
    (dead : NodeId -> Bool) : (c.loopStep dead).1.OpenIsFresh := by
  intro totalNodes newTerm hopen
  rcases loopStep_openElection hopen with ⟨hbefore, helection⟩ | ⟨_, hnew, helection⟩
  · rw [helection]
    exact hfresh totalNodes newTerm hbefore
  · rw [helection, hnew]
    exact ⟨Nat.le_refl _, Or.inl rfl⟩

theorem openIsFresh_message (hev : forall dead, ev ≠ .loop dead) (hfresh : c.OpenIsFresh)
    (hok : ¬ c.OvertakesMajority ev) : (c.step ev).1.OpenIsFresh := by
  intro totalNodes newTerm hopen
  rw [step_pc_of_not_loop hev] at hopen
  rcases hfresh totalNodes newTerm hopen with ⟨hle, hcurrent⟩
  cases hraised : c.raisedTerm? ev with
  | none =>
    rw [step_term_of_raisedTerm_none hev hraised]
    refine ⟨hle, ?_⟩
    rcases hcurrent with hterm | hlost
    · exact Or.inl hterm
    · rcases Nat.eq_or_lt_of_le hle with heq | hlt
      · exact Or.inl heq.symm
      · apply Or.inr
        rw [ElectionManager.voteCountForTerm, step_votes_of_lt hev hlt]
        exact hlost
  | some t =>
    rcases step_of_raisedTerm_some hraised with ⟨hhigher, _, hterm, hvotes⟩
    rw [hterm, ElectionManager.voteCountForTerm, hvotes]
    refine ⟨by lia, Or.inr ?_⟩
    simp only [OvertakesMajority, hopen, hraised] at hok
    exact hok

theorem openIsFresh_step (hfresh : c.OpenIsFresh) (hok : ¬ c.OvertakesMajority ev) :
    (c.step ev).1.OpenIsFresh := by
  cases ev with
  | loop dead => exact openIsFresh_loop hfresh dead
  | recvServer now msg => exact openIsFresh_message (by simp) hfresh hok
  | recvClient now msg => exact openIsFresh_message (by simp) hfresh hok
  | evict dead => exact openIsFresh_message (by simp) hfresh hok
  | heartbeat => exact openIsFresh_message (by simp) hfresh hok

theorem openIsFresh_run {i : NodeId} {c' : NodeConf} {evs : List NodeEvent}
    (hstart : World.FreshNode i c)
    (hok : StepsMeet wrappingStep KeepsFence c evs)
    (hrun : runFrom wrappingStep c evs = some c') : c'.OpenIsFresh := by
  refine runFrom_invariant ?_ ?_ hok hrun
  · intro s ev s' hfresh hkeeps hstep
    rw [wrappingStep_some hkeeps.right hstep]
    exact openIsFresh_step hfresh hkeeps.left
  · intro totalNodes newTerm hopen
    rw [hstart.right.right.right] at hopen
    cases hopen

/-!
After a term `t` has been taken over, the loop never works on an election of
term `t`: the one it works on is older, or will be newer.
-/

def PastTerm (t : Nat) (c : NodeConf) : Prop :=
  t ≤ c.state.election.term ∧
    forall totalNodes newTerm, openElection? c.pc = some (totalNodes, newTerm) -> newTerm ≠ t

theorem pastTerm_of_raised (hfresh : c.OpenIsFresh) (hraised : c.raisedTerm? ev = some t) :
    PastTerm t (c.step ev).1 := by
  rcases step_of_raisedTerm_some hraised with ⟨hhigher, hpc, hterm, _⟩
  refine ⟨Nat.le_of_eq hterm.symm, ?_⟩
  intro totalNodes newTerm hopen
  rw [hpc] at hopen
  have hle := (hfresh totalNodes newTerm hopen).left
  lia

theorem pastTerm_step (hpast : PastTerm t c) (ev : NodeEvent) : PastTerm t (c.step ev).1 := by
  refine ⟨Nat.le_trans hpast.left (step_advances c ev).term, ?_⟩
  intro totalNodes newTerm hopen
  cases ev with
  | loop dead =>
    rcases loopStep_openElection hopen with ⟨hbefore, _⟩ | ⟨_, hnew, _⟩
    · exact hpast.right totalNodes newTerm hbefore
    · have hle := hpast.left
      lia
  | _ => exact hpast.right totalNodes newTerm hopen

theorem pastTerm_run {c' : NodeConf} {evs : List NodeEvent} (hpast : PastTerm t c)
    (hok : StepsMeet wrappingStep KeepsFence c evs)
    (hrun : runFrom wrappingStep c evs = some c') : PastTerm t c' := by
  refine runFrom_invariant ?_ hpast hok hrun
  intro s ev s' hs hkeeps hstep
  rw [wrappingStep_some hkeeps.right hstep]
  exact pastTerm_step hs ev

theorem promotion_term_current {i : NodeId} {c c' : NodeConf}
    {evs : List NodeEvent} (hstart : World.FreshNode i c)
    (hok : StepsMeet wrappingStep KeepsFence c evs)
    (hrun : runFrom wrappingStep c evs = some c') {totalNodes newTerm : Nat}
    (hwins : c'.WinsTally totalNodes newTerm) :
    c'.state.election.term = newTerm ∧ forall before ev after mid t, evs = before ++ ev :: after ->
        runFrom wrappingStep c before = some mid -> mid.raisedTerm? ev = some t ->
          t < newTerm := by
  have hopen : openElection? c'.pc = some (totalNodes, newTerm) := by
    rw [hwins.left]
    rfl
  have hterm : c'.state.election.term = newTerm := by
    rcases (openIsFresh_run hstart hok hrun totalNodes newTerm hopen).right with hcurrent | hlost
    · exact hcurrent
    · exact absurd hwins.right hlost
  refine ⟨hterm, ?_⟩
  intro before ev after mid t hevs hbefore hraised
  rw [hevs] at hok hrun
  rcases stepsMeet_append hok hbefore with ⟨hokBefore, hokAfter⟩
  have hfresh : mid.OpenIsFresh := openIsFresh_run hstart hokBefore hbefore
  rcases runFrom_append_some hrun with ⟨mid', hmid, hafter⟩
  rw [hbefore] at hmid
  injection hmid with hmid
  rw [← hmid] at hafter
  rcases runFrom_cons_some hafter with ⟨next, hnext, hrest⟩
  rcases stepsMeet_cons_of_some hokAfter hnext with ⟨hkeeps, hokRest⟩
  rw [wrappingStep_some hkeeps.right hnext] at hrest hokRest
  have hpast := pastTerm_run (pastTerm_of_raised hfresh hraised) hokRest hrest
  have hne := hpast.right totalNodes newTerm hopen
  have hle := hpast.left
  lia

theorem promotion_term_current_first :
    exists c', runFrom wrappingStep ((World.start ["a", "b", "c"]).nodes "a")
        (List.replicate 5 (.loop (fun _ => true)) ++
          [.recvClient 0 (World.voteMessage "a" 1 (some "b"))]) = some c' ∧
      c'.WinsTally 3 1 ∧ c'.state.election.term = 1 := by
  have hok : StepsMeet wrappingStep KeepsFence
      ((World.start ["a", "b", "c"]).nodes "a") (List.replicate 5 (.loop (fun _ => true)) ++
        [.recvClient 0 (World.voteMessage "a" 1 (some "b"))]) := by decide
  have hfresh := (World.start_fresh ["a", "b", "c"]).nodes "a" (by decide)
  have hobs : (runFrom wrappingStep ((World.start ["a", "b", "c"]).nodes "a")
      (List.replicate 5 (.loop (fun _ => true)) ++
        [.recvClient 0 (World.voteMessage "a" 1 (some "b"))])).map
          (fun c' => decide (c'.WinsTally 3 1)) = some true := by decide
  rcases Option.map_eq_some_iff.mp hobs with ⟨c', hrun, hdecide⟩
  have hwins := of_decide_eq_true hdecide
  exact ⟨c', hrun, hwins, (promotion_term_current hfresh hok hrun hwins).left⟩

end NodeConf

namespace World

/--
While `a` waits with the majority of term 1 in its bucket, the request of `c`
for term 2 arrives and `a` votes for `c`.  It then wins the tally of term 1 in
term 2 and becomes main.
-/
theorem overtaken_election_promotes :
    exists w, runFrom (step ["a", "b", "c"]) (start ["a", "b", "c"])
        (loops "a" 5 ++ voteRound "a" 1 "b" ++ loops "c" 13 ++
          [("a", .recvServer 0 (voteMessage "c" 2 none))]) = some w ∧
      (w.nodes "a").WinsTally 3 1 ∧ (w.nodes "a").state.election.term = 2 ∧
      (w.nodes "a").state.election.votedFor = some "c" ∧
      (runFrom (step ["a", "b", "c"]) w (loops "a" 2)).map
        (fun w' => (w'.nodes "a").state.role) = some NodeRole.main := by
  have hrun : (runFrom (step ["a", "b", "c"]) (start ["a", "b", "c"])
      (loops "a" 5 ++ voteRound "a" 1 "b" ++ loops "c" 13 ++
        [("a", .recvServer 0 (voteMessage "c" 2 none))])).map
          (fun w => (decide ((w.nodes "a").WinsTally 3 1), (w.nodes "a").state.election.term,
            (w.nodes "a").state.election.votedFor,
            (runFrom (step ["a", "b", "c"]) w (loops "a" 2)).map
              (fun w' => (w'.nodes "a").state.role))) =
      some (true, 2, some "c", some NodeRole.main) := by decide
  rcases Option.map_eq_some_iff.mp hrun with ⟨w, hw, hobs⟩
  injection hobs with hwins hrest
  injection hrest with hterm hrest
  injection hrest with hvoted hrole
  exact ⟨w, hw, of_decide_eq_true hwins, hterm, hvoted, hrole⟩

end World

end Cluster
end PrxWaf
