import PrxWaf.Ddos.Baseline
import PrxWaf.Lib.OrderStatistic

/-!
# The median of the last minute

After any requests on a clock that does not go back, the buckets of the baseline are
the counts of the last sixty seconds in some order, so that the median and the total
are those of the requests.  Counts are natural numbers: a bucket would wrap only after
2^64 requests.
-/

namespace PrxWaf
namespace Ddos

open Lib

/-- The requests in each of the sixty seconds that end with the given one, from the
last. -/
def minuteCounts (second : Int) (times : List Int) : List Nat :=
  (List.range 60).map (fun age : Nat => secondCount (second - age) times)

def minuteTotal (second : Int) (times : List Int) : Nat :=
  times.countP (fun nowMs =>
    second - 60 < secondOf nowMs ∧ secondOf nowMs ≤ second)

theorem sum_secondCount (second : Int) (times : List Int) (n : Nat) :
    ((List.range n).map (fun age : Nat =>
        secondCount (second - age) times)).sum = times.countP (fun nowMs =>
        second - n < secondOf nowMs ∧ secondOf nowMs ≤ second) := by
  induction n with
  | zero =>
    refine (List.countP_eq_zero.mpr ?_).symm
    intro nowMs _
    rw [decide_eq_true_eq]
    lia
  | succ n ih =>
    rw [List.range_succ, List.map_append, List.sum_append, ih,
      List.map_singleton, List.sum_singleton]
    refine countP_add_of_disjoint ?_ ?_
    · intro nowMs _
      simp only [decide_eq_true_eq]
      lia
    · intro nowMs _ hin
      simp only [decide_eq_true_eq, decide_eq_false_iff_not] at hin ⊢
      lia

theorem sum_minuteCounts (second : Int) (times : List Int) :
    (minuteCounts second times).sum = minuteTotal second times :=
  sum_secondCount second times 60

namespace MovingMedian

theorem perm_bucketOf (last : Int) :
    ((List.range 60).map (fun age : Nat => bucketOf (last - age))).Perm (List.finRange 60) := by
  refine (List.perm_ext_iff_of_nodup ?_ (List.nodup_finRange 60)).mpr ?_
  · refine List.Nodup.map_on ?_ List.nodup_range
    intro a ha b hb hab
    have ha := List.mem_range.mp ha
    have hb := List.mem_range.mp hb
    rcases Nat.le_total a b with hle | hle
    · have hsame := (bucketOf_eq_iff (by lia) (by lia)).mp hab.symm
      lia
    · have hsame := (bucketOf_eq_iff (by lia) (by lia)).mp hab
      lia
  · intro i
    refine iff_of_true ?_ (List.mem_finRange i)
    obtain ⟨s, hlow, hhigh, hbucket⟩ := exists_bucketOf_eq last i
    refine List.mem_map.mpr ⟨(last - s).toNat, ?_, ?_⟩
    · exact List.mem_range.mpr (by lia)
    · rw [← hbucket]
      exact congrArg bucketOf (by lia)

theorem minuteCounts_perm {median : MovingMedian} {history : List Int} (h : Tracks median history) :
    (minuteCounts median.lastEpochS history).Perm (List.ofFn median.buckets) := by
  have hcounts : minuteCounts median.lastEpochS history = ((List.range 60).map (fun age : Nat =>
        bucketOf (median.lastEpochS - age))).map median.buckets := by
    unfold minuteCounts
    rw [List.map_map]
    refine List.map_congr_left ?_
    intro age hage
    have hage := List.mem_range.mp hage
    exact (h.counts _ (by lia) (by lia)).symm
  rw [hcounts, List.ofFn_eq_map]
  exact (perm_bucketOf median.lastEpochS).map median.buckets

theorem median_isNthSmallest (median : MovingMedian) :
    IsNthSmallest 31 median.median (List.ofFn median.buckets) := by
  unfold MovingMedian.median
  cases hv : ((List.ofFn median.buckets).insertionSort (· ≤ ·))[30]? with
  | none =>
    have hshort := List.getElem?_eq_none_iff.mp hv
    rw [List.length_insertionSort, List.length_ofFn] at hshort
    exact absurd hshort (by decide)
  | some v => exact IsNthSmallest.of_insertionSort hv

def recordAll (times : List Int) : MovingMedian :=
  times.foldl record new

variable (second : Int) (times : List Int)

theorem recordAll_eq_ofHistory :
    recordAll times = ofHistory times.reverse := by
  induction times using List.reverseRecOn with
  | nil => rfl
  | append_singleton front nowMs ih =>
    rw [List.reverse_append]
    change _ = (ofHistory front.reverse).record nowMs
    rw [← ih]
    exact List.foldl_append

theorem secondCount_reverse :
    secondCount second times.reverse = secondCount second times :=
  List.countP_reverse

theorem minuteCounts_reverse :
    minuteCounts second times.reverse = minuteCounts second times := by
  unfold minuteCounts
  refine List.map_congr_left ?_
  intro age _
  exact secondCount_reverse _ times

/-- After requests in order, of which the last came in the given second, the median is
the 31st smallest of the counts of the sixty seconds that end with it, and the total is
the number of requests in them. -/
theorem median_exact {times : List Int} {lastMs : Int}
    (hsorted : (times ++ [lastMs]).Pairwise (· ≤ ·))
    (hrange : forall nowMs, nowMs ∈ times ++ [lastMs] -> 0 ≤ nowMs ∧ nowMs ≤ i64Max) :
    (forall v, (recordAll (times ++ [lastMs])).median = v <-> IsNthSmallest 31 v
        (minuteCounts (secondOf lastMs) (times ++ [lastMs]))) ∧
      (recordAll (times ++ [lastMs])).total =
        minuteTotal (secondOf lastMs) (times ++ [lastMs]) := by
  have hreverse : (times ++ [lastMs]).reverse = lastMs :: times.reverse := List.reverse_append
  have hclock : OnClock (lastMs :: times.reverse) := by
    rw [← hreverse]
    refine ⟨List.pairwise_reverse.mpr hsorted, ?_⟩
    intro nowMs hmem
    exact hrange nowMs (List.mem_reverse.mp hmem)
  obtain ⟨htracks, hlast⟩ := tracks_ofHistory hclock
  have hperm := minuteCounts_perm htracks
  rw [hlast, ← hreverse, minuteCounts_reverse, ← recordAll_eq_ofHistory] at hperm
  have hmedian := (median_isNthSmallest _).perm hperm.symm
  constructor
  · intro v
    constructor
    · intro hv
      rw [← hv]
      exact hmedian
    · intro hv
      exact hmedian.unique hv
  · unfold total
    rw [← hperm.sum_eq]
    exact sum_minuteCounts _ _

theorem median_exact_after_a_minute :
    (recordAll ([0, 500, 1500] ++ [60200])).median = 0 ∧
      (recordAll ([0, 500, 1500] ++ [60200])).total = 2 :=
  ⟨((median_exact (by decide) (by decide)).1 0).mpr ⟨by decide, by decide⟩,
    (median_exact (by decide) (by decide)).2.trans (by decide)⟩

end MovingMedian
end Ddos
end PrxWaf
