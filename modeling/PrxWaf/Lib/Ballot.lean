import Mathlib.Data.Finset.Card

/-!
# Ballots and majorities

A ballot is one vote of one voter in one term.  An election is safe for two
reasons that have nothing to do with how votes travel: a voter casts ballots
for one candidate only in a term, and two majorities of one electorate share a
voter.
-/

namespace PrxWaf
namespace Lib

/-- One vote: `voter` chose `candidate` in `term`. -/
structure Ballot (voter : Type u) (candidate : Type v) where
  voter : voter
  term : Nat
  candidate : candidate
  deriving DecidableEq, Repr

def OneVotePerTerm {voter : Type u} {candidate : Type v}
    (cast : List (Ballot voter candidate)) : Prop :=
  forall a b, a ∈ cast -> b ∈ cast ->
    a.voter = b.voter -> a.term = b.term -> a.candidate = b.candidate

def Backed {voter : Type u} {candidate : Type v}
    (cast : List (Ballot voter candidate)) (backers : Finset voter)
    (term : Nat) (choice : candidate) : Prop :=
  forall v, v ∈ backers ->
    ({ voter := v, term := term, candidate := choice } : Ballot voter candidate) ∈ cast

section Ballots

variable {voter : Type u} {candidate : Type v}
variable {cast more : List (Ballot voter candidate)}

theorem oneVotePerTerm_nil :
    OneVotePerTerm ([] : List (Ballot voter candidate)) := by
  intro a b ha
  cases ha

theorem oneVotePerTerm_append (hcast : OneVotePerTerm cast) (hmore : OneVotePerTerm more)
    (hcross : forall a b, a ∈ cast -> b ∈ more ->
      a.voter = b.voter -> a.term = b.term -> a.candidate = b.candidate) :
    OneVotePerTerm (cast ++ more) := by
  intro a b ha hb hvoter hterm
  rcases List.mem_append.mp ha with haCast | haMore
  · rcases List.mem_append.mp hb with hbCast | hbMore
    · exact hcast a b haCast hbCast hvoter hterm
    · exact hcross a b haCast hbMore hvoter hterm
  · rcases List.mem_append.mp hb with hbCast | hbMore
    · exact (hcross b a hbCast haMore hvoter.symm hterm.symm).symm
    · exact hmore a b haMore hbMore hvoter hterm

theorem backed_append_left {backers : Finset voter} {term : Nat}
    {c : candidate} (h : Backed cast backers term c) :
    Backed (cast ++ more) backers term c := by
  intro v hv
  exact List.mem_append.mpr (Or.inl (h v hv))

/-- Two strict majorities of one electorate share a voter. -/
theorem majorities_share_voter [DecidableEq voter]
    {electorate A B : Finset voter} (hA : A ⊆ electorate)
    (hB : B ⊆ electorate) (hAcard : electorate.card / 2 < A.card)
    (hBcard : electorate.card / 2 < B.card) :
    exists v, v ∈ A ∧ v ∈ B := by
  have hcard : electorate.card < A.card + B.card := by lia
  rcases Finset.inter_nonempty_of_card_lt_card_add_card hA hB hcard with ⟨v, hv⟩
  exact ⟨v, Finset.mem_inter.mp hv⟩

/-- At most one candidate is backed by a majority in a term. -/
theorem majority_candidate_unique [DecidableEq voter]
    {electorate A B : Finset voter} {term : Nat} {c d : candidate} (hone : OneVotePerTerm cast)
    (hA : A ⊆ electorate) (hB : B ⊆ electorate) (hAcard : electorate.card / 2 < A.card)
    (hBcard : electorate.card / 2 < B.card)
    (hc : Backed cast A term c) (hd : Backed cast B term d) : c = d := by
  rcases majorities_share_voter hA hB hAcard hBcard with ⟨v, hvA, hvB⟩
  exact hone _ _ (hc v hvA) (hd v hvB) rfl rfl

end Ballots

end Lib
end PrxWaf
