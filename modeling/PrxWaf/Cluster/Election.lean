import PrxWaf.Cluster.Protocol

/-!
# The election manager

The Raft-lite vote state of one node: its term, the candidate it voted for in
that term, and the votes other nodes gave it.  The votes are a map from terms to
voter sets; a term without an entry is the empty set, which is how the code
reads it.
-/

namespace PrxWaf
namespace Cluster

structure ElectionManager where
  nodeId : NodeId
  term : Nat
  votedFor : Option NodeId
  votesForMe : Nat -> Finset NodeId

namespace ElectionManager

def new (nodeId : NodeId) : ElectionManager where
  nodeId := nodeId
  term := 0
  votedFor := none
  votesForMe := fun _ => ∅

/-- Take up `newTerm`, vote for oneself and keep no older bucket. -/
def standFor (e : ElectionManager) (newTerm : Nat) : ElectionManager :=
  { e with
    term := newTerm
    votedFor := some e.nodeId
    votesForMe := fun t =>
      if t = newTerm then insert e.nodeId (e.votesForMe t)
      else if newTerm ≤ t then e.votesForMe t
      else ∅ }

def incrementTermAndVoteForSelf (e : ElectionManager) : ElectionManager :=
  e.standFor (e.term + 1)

def recordVoteForMe (e : ElectionManager) (term : Nat) (voterId : NodeId) : ElectionManager :=
  if term < e.term then e
  else
    { e with
      votesForMe := fun t =>
        if t = term then insert voterId (e.votesForMe t)
        else e.votesForMe t }

def voterIdsForTerm (e : ElectionManager) (term : Nat) : Finset NodeId :=
  e.votesForMe term

def voteCountForTerm (e : ElectionManager) (term : Nat) : Nat :=
  (e.votesForMe term).card

def IsMajority (votes totalNodes : Nat) : Prop :=
  0 < totalNodes ∧ totalNodes / 2 < votes

instance (votes totalNodes : Nat) : Decidable (IsMajority votes totalNodes) :=
  inferInstanceAs (Decidable (_ ∧ _))

def IsValidTerm (e : ElectionManager) (incomingTerm : Nat) : Prop :=
  e.term ≤ incomingTerm

instance (e : ElectionManager) (incomingTerm : Nat) : Decidable (e.IsValidTerm incomingTerm) :=
  inferInstanceAs (Decidable (_ ≤ _))

def advanceTerm (e : ElectionManager) (incomingTerm : Nat) : ElectionManager :=
  if e.term < incomingTerm then
    { e with term := incomingTerm, votedFor := none }
  else e

/--
Decide whether to grant a vote.  The first component is the answer; a stale
request changes nothing, a newer one moves the term even when it is denied.
-/
def processVote (e : ElectionManager) (vote : ElectionVote) : Bool × ElectionManager :=
  if vote.term < e.term then (false, e)
  else
    let e' := e.advanceTerm vote.term
    if e'.votedFor = none ∨ e'.votedFor = some vote.candidateId then
      (true, { e' with votedFor := some vote.candidateId })
    else (false, e')

/--
Process an `ElectionResult`.  The first component is the role the node should
take: a stale result is answered with `worker`, like a result that names
another node.
-/
def processResult (e : ElectionManager) (result : ElectionResult) : NodeRole × ElectionManager :=
  if e.IsValidTerm result.term then
    let e' := e.advanceTerm result.term
    if result.electedId = e.nodeId then (NodeRole.main, e')
    else (NodeRole.worker, e')
  else (NodeRole.worker, e)

/-!
# Votes are never taken back

Every operation keeps the node id, and no operation changes the vote of a term
once it is given: the term may grow, and with the same term the vote stays.
-/

structure Advances (e e' : ElectionManager) : Prop where
  nodeId : e'.nodeId = e.nodeId
  term : e.term ≤ e'.term
  vote : e'.term = e.term -> forall c, e.votedFor = some c -> e'.votedFor = some c

theorem advances_refl (e : ElectionManager) : Advances e e where
  nodeId := rfl
  term := Nat.le_refl _
  vote := fun _ _ h => h

theorem advances_incrementTermAndVoteForSelf (e : ElectionManager) :
    Advances e e.incrementTermAndVoteForSelf where
  nodeId := rfl
  term := Nat.le_succ _
  vote := by
    intro hterm
    exact absurd hterm (Nat.succ_ne_self e.term)

theorem recordVoteForMe_frame (e : ElectionManager) (term : Nat) (voterId : NodeId) :
    exists votes, e.recordVoteForMe term voterId = { e with votesForMe := votes } := by
  unfold recordVoteForMe
  split
  · exact ⟨e.votesForMe, rfl⟩
  · exact ⟨_, rfl⟩

@[simp] theorem recordVoteForMe_term (e : ElectionManager) (term : Nat)
    (voterId : NodeId) : (e.recordVoteForMe term voterId).term = e.term := by
  rcases recordVoteForMe_frame e term voterId with ⟨votes, h⟩
  rw [h]

@[simp] theorem recordVoteForMe_votedFor (e : ElectionManager) (term : Nat)
    (voterId : NodeId) :
    (e.recordVoteForMe term voterId).votedFor = e.votedFor := by
  rcases recordVoteForMe_frame e term voterId with ⟨votes, h⟩
  rw [h]

@[simp] theorem recordVoteForMe_nodeId (e : ElectionManager) (term : Nat)
    (voterId : NodeId) :
    (e.recordVoteForMe term voterId).nodeId = e.nodeId := by
  rcases recordVoteForMe_frame e term voterId with ⟨votes, h⟩
  rw [h]

theorem advances_recordVoteForMe (e : ElectionManager) (term : Nat)
    (voterId : NodeId) : Advances e (e.recordVoteForMe term voterId) := by
  constructor
  · exact recordVoteForMe_nodeId e term voterId
  · exact Nat.le_of_eq (recordVoteForMe_term e term voterId).symm
  · intro _ c hc
    rw [recordVoteForMe_votedFor]
    exact hc

variable {e : ElectionManager} {t : Nat}

theorem mem_votes_recordVoteForMe {term : Nat} {voterId v : NodeId}
    (hv : v ∈ (e.recordVoteForMe term voterId).votesForMe t) :
    v ∈ e.votesForMe t ∨ (v = voterId ∧ t = term) := by
  unfold recordVoteForMe at hv
  split at hv
  · exact Or.inl hv
  · rcases Decidable.em (t = term) with ht | ht
    · simp only [if_pos ht, Finset.mem_insert] at hv
      rcases hv with hnew | hold
      · exact Or.inr ⟨hnew, ht⟩
      · exact Or.inl hold
    · simp only [if_neg ht] at hv
      exact Or.inl hv

theorem recordVoteForMe_votes_of_lt (hold : t < e.term) (term : Nat) (voterId : NodeId) :
    (e.recordVoteForMe term voterId).votesForMe t = e.votesForMe t := by
  unfold recordVoteForMe
  split
  · rfl
  · have hne : t ≠ term := by lia
    simp [hne]

theorem mem_votes_incrementTermAndVoteForSelf
    {v : NodeId} (hv : v ∈ e.incrementTermAndVoteForSelf.votesForMe t) :
    v ∈ e.votesForMe t ∨ (v = e.nodeId ∧ t = e.term + 1) := by
  simp only [incrementTermAndVoteForSelf, standFor] at hv
  split at hv
  · rename_i ht
    rcases Finset.mem_insert.mp hv with hself | hold
    · exact Or.inr ⟨hself, ht⟩
    · exact Or.inl hold
  · split at hv
    · exact Or.inl hv
    · cases hv

/-!
# Advancing the term

A term advance keeps the votes received; it forgets the vote given only together
with its term.
-/

@[simp] theorem advanceTerm_nodeId (e : ElectionManager) (t : Nat) :
    (e.advanceTerm t).nodeId = e.nodeId := by
  unfold advanceTerm
  split
  · rfl
  · rfl

@[simp] theorem advanceTerm_votesForMe (e : ElectionManager) (t : Nat) :
    (e.advanceTerm t).votesForMe = e.votesForMe := by
  unfold advanceTerm
  split
  · rfl
  · rfl

@[simp] theorem advanceTerm_term (e : ElectionManager) (t : Nat) :
    (e.advanceTerm t).term = max e.term t := by
  unfold advanceTerm
  split
  · rename_i h
    exact (Nat.max_eq_right (Nat.le_of_lt h)).symm
  · rename_i h
    exact (Nat.max_eq_left (Nat.le_of_not_lt h)).symm

theorem advances_advanceTerm (e : ElectionManager) (t : Nat) :
    Advances e (e.advanceTerm t) where
  nodeId := advanceTerm_nodeId e t
  term := by
    rw [advanceTerm_term]
    exact Nat.le_max_left _ _
  vote := by
    intro hterm c hc
    rw [advanceTerm_term] at hterm
    have hnot : ¬ e.term < t := by lia
    unfold advanceTerm
    rw [if_neg hnot]
    exact hc

/-!
# What a vote request does

A granted request leaves the node in the request's term with the vote recorded;
a denied one at most advances the term.
-/

def CanGrant (e : ElectionManager) (vote : ElectionVote) : Prop :=
  (e.advanceTerm vote.term).votedFor = none ∨
    (e.advanceTerm vote.term).votedFor = some vote.candidateId

theorem processVote_cases (e : ElectionManager) (vote : ElectionVote) :
    (vote.term < e.term ∧ e.processVote vote = (false, e)) ∨
      (e.term ≤ vote.term ∧ e.CanGrant vote ∧ e.processVote vote = (true,
            { e.advanceTerm vote.term with
              votedFor := some vote.candidateId })) ∨ (e.term ≤ vote.term ∧
        e.processVote vote = (false, e.advanceTerm vote.term)) := by
  unfold processVote
  split
  · rename_i hstale
    exact Or.inl ⟨hstale, rfl⟩
  · rename_i hvalid
    apply Or.inr
    rcases Decidable.em ((e.advanceTerm vote.term).votedFor = none ∨
        (e.advanceTerm vote.term).votedFor = some vote.candidateId) with hcan | hcannot
    · exact Or.inl ⟨Nat.le_of_not_lt hvalid, hcan, if_pos hcan⟩
    · exact Or.inr ⟨Nat.le_of_not_lt hvalid, if_neg hcannot⟩

theorem processVote_granted {e' : ElectionManager} {vote : ElectionVote}
    (h : e.processVote vote = (true, e')) :
    e'.term = vote.term ∧ e'.votedFor = some vote.candidateId := by
  rcases processVote_cases e vote with ⟨_, heq⟩ | ⟨hvalid, _, heq⟩ | ⟨_, heq⟩
  · rw [heq] at h
    cases h
  · rw [heq] at h
    injection h with _ he'
    rw [← he']
    exact ⟨(advanceTerm_term e vote.term).trans (Nat.max_eq_right hvalid), rfl⟩
  · rw [heq] at h
    cases h

theorem advances_processVote (e : ElectionManager) (vote : ElectionVote) :
    Advances e (e.processVote vote).2 := by
  have hadv := advances_advanceTerm e vote.term
  rcases processVote_cases e vote with ⟨_, heq⟩ | ⟨_, hcan, heq⟩ | ⟨_, heq⟩
  · rw [heq]
    exact advances_refl e
  · rw [heq]
    refine ⟨hadv.nodeId, hadv.term, ?_⟩
    intro hterm c hc
    -- the vote of this term is only ever repeated
    have hkept := hadv.vote hterm c hc
    rcases hcan with hnone | hsame
    · rw [hkept] at hnone
      cases hnone
    · show some vote.candidateId = some c
      rw [← hsame, hkept]
  · rw [heq]
    exact hadv

@[simp] theorem processVote_votesForMe (e : ElectionManager)
    (vote : ElectionVote) :
    (e.processVote vote).2.votesForMe = e.votesForMe := by
  rcases processVote_cases e vote with
    ⟨_, heq⟩ | ⟨_, _, heq⟩ | ⟨_, heq⟩
  · rw [heq]
  · rw [heq]
    exact advanceTerm_votesForMe e vote.term
  · rw [heq]
    exact advanceTerm_votesForMe e vote.term

@[simp] theorem processVote_term (e : ElectionManager) (vote : ElectionVote) :
    (e.processVote vote).2.term = max e.term vote.term := by
  rcases processVote_cases e vote with
    ⟨hstale, heq⟩ | ⟨_, _, heq⟩ | ⟨_, heq⟩
  · rw [heq]
    exact (Nat.max_eq_left (Nat.le_of_lt hstale)).symm
  · rw [heq]
    exact advanceTerm_term e vote.term
  · rw [heq]
    exact advanceTerm_term e vote.term

theorem processResult_snd (e : ElectionManager) (result : ElectionResult) :
    (e.processResult result).2 = e.advanceTerm result.term := by
  simp only [processResult]
  split
  · split
    · rfl
    · rfl
  · rename_i hstale
    have hnot : ¬ e.term < result.term := by
      intro hlt
      exact hstale (Nat.le_of_lt hlt)
    rw [advanceTerm, if_neg hnot]

theorem processResult_fst_of_stale {result : ElectionResult} (hstale : result.term < e.term) :
    (e.processResult result).1 = NodeRole.worker := by
  have hvalid : ¬ e.IsValidTerm result.term := Nat.not_le_of_lt hstale
  simp only [processResult, if_neg hvalid]

end ElectionManager

end Cluster
end PrxWaf
