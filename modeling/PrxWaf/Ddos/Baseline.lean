import PrxWaf.Ddos.Detector

/-!
# What the baseline holds

The ring of buckets holds the number of requests in each of the last sixty
seconds.  When they are all the same, so is the median.  Histories are lists of
times from the newest.
-/

namespace PrxWaf
namespace Ddos

open Lib

def secondOf (nowMs : Int) : Int :=
  nowMs.tdiv 1000

variable {nowMs : Int} {history : List Int}

theorem secondOf_eq (h : 0 ≤ nowMs) :
    secondOf nowMs = nowMs / 1000 :=
  Int.tdiv_eq_ediv_of_nonneg h

def secondCount (second : Int) (history : List Int) : Nat :=
  history.countP (fun nowMs => secondOf nowMs = second)

theorem secondCount_cons_self (nowMs : Int) (history : List Int) :
    secondCount (secondOf nowMs) (nowMs :: history) = secondCount (secondOf nowMs) history + 1 :=
  List.countP_cons_of_pos (decide_eq_true rfl)

theorem secondCount_cons_of_ne {second : Int} (h : second ≠ secondOf nowMs) (history : List Int) :
    secondCount second (nowMs :: history) = secondCount second history :=
  List.countP_cons_of_neg (by simpa using h.symm)

theorem secondCount_eq_zero {second : Int}
    (h : forall nowMs, nowMs ∈ history -> secondOf nowMs < second) :
    secondCount second history = 0 := by
  refine List.countP_eq_zero.mpr ?_
  intro nowMs hmem
  have hlt := h nowMs hmem
  simp only [decide_eq_true_eq]
  lia

/-- Times of a clock that never goes back and counts from the epoch. -/
def OnClock (history : List Int) : Prop :=
  history.Pairwise (· ≥ ·) ∧ forall nowMs, nowMs ∈ history -> 0 ≤ nowMs ∧ nowMs ≤ i64Max

instance (history : List Int) : Decidable (OnClock history) :=
  inferInstanceAs (Decidable (_ ∧ _))

theorem OnClock.tail (h : OnClock (nowMs :: history)) : OnClock history :=
  ⟨h.1.of_cons, fun t ht => h.2 t (List.mem_cons_of_mem nowMs ht)⟩

theorem OnClock.secondOf_le
    (h : OnClock (nowMs :: history)) {olderMs : Int} (hmem : olderMs ∈ history) :
    secondOf olderMs ≤ secondOf nowMs := by
  have hle : olderMs ≤ nowMs := List.rel_of_pairwise_cons h.1 hmem
  have hnow := (h.2 nowMs List.mem_cons_self).1
  have holder := (h.tail.2 olderMs hmem).1
  rw [secondOf_eq hnow, secondOf_eq holder]
  lia

namespace MovingMedian

def ofHistory : List Int -> MovingMedian
  | [] => new
  | nowMs :: older => (ofHistory older).record nowMs

variable {median : MovingMedian}

theorem bucketOf_eq_iff {s t : Int} (hlow : t - 60 < s) (hhigh : s ≤ t) :
    bucketOf s = bucketOf t <-> s = t := by
  constructor
  · intro h
    have hval : (s % 60).toNat = (t % 60).toNat := congrArg Fin.val h
    lia
  · intro h
    rw [h]

theorem exists_bucketOf_eq (last : Int) (i : Fin 60) :
    exists s, last - 60 < s ∧ s ≤ last ∧ bucketOf s = i := by
  refine ⟨last - (last - i.val) % 60, by lia, by lia, ?_⟩
  refine Fin.ext ?_
  have hlt := i.isLt
  unfold bucketOf
  dsimp only
  lia

theorem clearStaleBuckets_buckets {prevS nowS s : Int}
    (hprev : 0 ≤ prevS) (hlt : prevS < nowS) (hmax : nowS ≤ i64Max)
    (hlow : nowS - 60 < s) (hhigh : s ≤ nowS) :
    (median.clearStaleBuckets prevS nowS).buckets (bucketOf s) =
      if s ≤ prevS then median.buckets (bucketOf s) else 0 := by
  have hadvance : saturatingSub nowS prevS = nowS - prevS := by
    have hclamp := clampI64_cases (nowS - prevS)
    unfold i64Max at hmax hclamp
    unfold i64Min at hclamp
    unfold saturatingSub
    lia
  unfold clearStaleBuckets
  dsimp only
  rw [hadvance]
  rcases Decidable.em (60 ≤ nowS - prevS) with hfar | hnear
  · rw [if_pos hfar, if_neg (by lia)]
  · rw [if_neg hnear, if_pos hprev]
    dsimp only
    rcases Decidable.em (s ≤ prevS) with hold | hnew
    · rw [if_pos hold, if_neg]
      intro hany
      rcases List.any_eq_true.mp hany with ⟨offset, hoffset, hbucket⟩
      have hrange := List.mem_range.mp hoffset
      have hsame := (bucketOf_eq_iff (by lia) (by lia)).mp (of_decide_eq_true hbucket).symm
      lia
    · rw [if_neg hnew, if_pos]
      refine List.any_eq_true.mpr ⟨(s - prevS - 1).toNat, ?_, ?_⟩
      · exact List.mem_range.mpr (by lia)
      · refine decide_eq_true (congrArg bucketOf ?_)
        lia

structure Tracks (median : MovingMedian) (history : List Int) : Prop where
  start : -1 ≤ median.lastEpochS
  fresh : median.lastEpochS < 0 -> history = [] ∧ forall i, median.buckets i = 0
  newest : forall nowMs, nowMs ∈ history -> secondOf nowMs ≤ median.lastEpochS
  counts : forall s, median.lastEpochS - 60 < s -> s ≤ median.lastEpochS ->
    median.buckets (bucketOf s) = secondCount s history

theorem tracks_new : Tracks new [] where
  start := Int.le_refl _
  fresh := fun _ => ⟨rfl, fun _ => rfl⟩
  newest := fun _ hmem => nomatch hmem
  counts := fun _ _ _ => rfl

theorem clearStaleBuckets_of_fresh
    (h : forall i, median.buckets i = 0) {prevS : Int} (hprev : prevS < 0)
    (nowS : Int) (i : Fin 60) :
    (median.clearStaleBuckets prevS nowS).buckets i = 0 := by
  unfold clearStaleBuckets
  dsimp only
  split
  · rfl
  · rw [if_neg (Int.not_le.mpr hprev)]
    exact h i

theorem advanceTo_lastEpochS {epochS : Int} (hle : median.lastEpochS ≤ epochS) :
    (median.advanceTo epochS).lastEpochS = epochS := by
  unfold advanceTo
  split
  · rfl
  · lia

theorem advanceTo_counts {epochS s : Int} (h : Tracks median history)
    (hle : median.lastEpochS ≤ epochS) (hmax : epochS ≤ i64Max)
    (hlow : epochS - 60 < s) (hhigh : s ≤ epochS) :
    (median.advanceTo epochS).buckets (bucketOf s) = secondCount s history := by
  unfold advanceTo
  rcases Decidable.em (median.lastEpochS < epochS) with hlt | hsame
  · rw [if_pos hlt]
    dsimp only
    rcases Int.lt_or_le median.lastEpochS 0 with hfresh | hprev
    · rcases h.fresh hfresh with ⟨hnil, hzero⟩
      rw [clearStaleBuckets_of_fresh hzero hfresh, hnil]
      rfl
    · rw [clearStaleBuckets_buckets hprev hlt hmax hlow hhigh]
      split
      · rename_i hold
        exact h.counts s (by lia) hold
      · rename_i hnew
        refine (secondCount_eq_zero ?_).symm
        intro nowMs hmem
        have hnewest := h.newest nowMs hmem
        lia
  · rw [if_neg hsame]
    exact h.counts s (by lia) (by lia)

theorem record_buckets (median : MovingMedian) (nowMs : Int) (i : Fin 60) :
    (median.record nowMs).buckets i =
      if i = bucketOf (secondOf nowMs) then
        (median.advanceTo (secondOf nowMs)).buckets i + 1
      else (median.advanceTo (secondOf nowMs)).buckets i :=
  rfl

theorem record_lastEpochS (median : MovingMedian) (nowMs : Int) :
    (median.record nowMs).lastEpochS = (median.advanceTo (secondOf nowMs)).lastEpochS :=
  rfl

theorem tracks_record (h : Tracks median history) (hclock : OnClock (nowMs :: history))
    (hle : median.lastEpochS ≤ secondOf nowMs) :
    Tracks (median.record nowMs) (nowMs :: history) ∧
      (median.record nowMs).lastEpochS = secondOf nowMs := by
  have hlast : (median.record nowMs).lastEpochS = secondOf nowMs := by
    rw [record_lastEpochS, advanceTo_lastEpochS hle]
  have hnow := hclock.2 nowMs List.mem_cons_self
  have hsecond := secondOf_eq hnow.1
  refine ⟨⟨?_, ?_, ?_, ?_⟩, hlast⟩
  · rw [hlast]
    lia
  · rw [hlast]
    intro hneg
    lia
  · rw [hlast]
    intro olderMs hmem
    rcases List.mem_cons.mp hmem with heq | hmem
    · rw [heq]
    · exact hclock.secondOf_le hmem
  · rw [hlast]
    intro s hlow hhigh
    rw [record_buckets, advanceTo_counts h hle (by lia) hlow hhigh]
    rcases Decidable.em (s = secondOf nowMs) with hs | hs
    · rw [if_pos (congrArg bucketOf hs), hs, secondCount_cons_self]
    · rw [if_neg (fun hbucket => hs ((bucketOf_eq_iff hlow hhigh).mp hbucket)),
        secondCount_cons_of_ne hs]

theorem tracks_ofHistory (hclock : OnClock (nowMs :: history)) :
    Tracks (ofHistory (nowMs :: history)) (nowMs :: history) ∧
      (ofHistory (nowMs :: history)).lastEpochS = secondOf nowMs := by
  induction history generalizing nowMs with
  | nil =>
    have hsecond := secondOf_eq (hclock.2 nowMs List.mem_cons_self).1
    have hnow := (hclock.2 nowMs List.mem_cons_self).1
    refine tracks_record tracks_new hclock ?_
    change -1 ≤ secondOf nowMs
    lia
  | cons olderMs older ih =>
    rcases ih hclock.tail with ⟨htracks, hlast⟩
    refine tracks_record htracks hclock ?_
    rw [hlast]
    exact hclock.secondOf_le List.mem_cons_self

theorem median_of_level {i : Fin 60} {r : Nat}
    (hi : median.buckets i ≤ r) (hothers : forall j, j ≠ i -> median.buckets j = r) :
    median.median = r := by
  have hrest : ((List.finRange 60).erase i).map median.buckets = List.replicate 59 r := by
    refine List.eq_replicate_iff.mpr ⟨?_, ?_⟩
    · rw [List.length_map, List.length_erase_of_mem (List.mem_finRange i), List.length_finRange]
    · intro count hcount
      rcases List.mem_map.mp hcount with ⟨j, hj, rfl⟩
      exact hothers j ((List.nodup_finRange 60).mem_erase_iff.mp hj).1
  have hperm : (List.ofFn median.buckets).Perm (median.buckets i :: List.replicate 59 r) := by
    rw [List.ofFn_eq_map, ← hrest]
    exact (List.perm_cons_erase (List.mem_finRange i)).map median.buckets
  have hsorted : (median.buckets i :: List.replicate 59 r).Pairwise (· ≤ ·) := by
    refine List.pairwise_cons.mpr ⟨?_, ?_⟩
    · intro count hcount
      rw [List.eq_of_mem_replicate hcount]
      exact hi
    · exact List.pairwise_replicate.mpr (Or.inr (Nat.le_refl r))
  have hsort := ((List.perm_insertionSort (· ≤ ·) _).trans hperm).eq_of_pairwise'
    (List.pairwise_insertionSort _ _) hsorted
  unfold MovingMedian.median
  rw [hsort]
  rfl

theorem median_ofHistory_of_level {r : Nat} (hclock : OnClock (nowMs :: history))
    (hnow : secondCount (secondOf nowMs) (nowMs :: history) ≤ r)
    (hbefore : forall s, secondOf nowMs - 60 < s -> s < secondOf nowMs ->
      secondCount s (nowMs :: history) = r) :
    (ofHistory (nowMs :: history)).median = r := by
  rcases tracks_ofHistory hclock with ⟨htracks, hlast⟩
  refine median_of_level (i := bucketOf (secondOf nowMs)) ?_ ?_
  · rw [htracks.counts _ (by lia) (by lia)]
    exact hnow
  · intro j hj
    rcases exists_bucketOf_eq (secondOf nowMs) j with ⟨s, hlow, hhigh, rfl⟩
    have hne : s ≠ secondOf nowMs := fun h => hj (congrArg bucketOf h)
    rw [htracks.counts s (by lia) (by lia)]
    exact hbefore s hlow (by lia)

end MovingMedian
end Ddos
end PrxWaf
