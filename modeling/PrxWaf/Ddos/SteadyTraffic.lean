import PrxWaf.Ddos.Baseline
import PrxWaf.Lib.FixedWindow

/-!
# Steady traffic on a warm baseline

The detector of a tier over the counter in Redis, which starts anew when the
window of its first request ends.  The count is that of a window, the threshold
follows the requests of one second.
-/

namespace PrxWaf
namespace Ddos

open Lib

def windowCell (ttlMs : Int) (window : FixedWindow) : Cell Nat :=
  { value := window.count, deadline := some (window.start + ttlMs) }

theorem incrWithExpire_window {server : RedisServer} {key : Text}
    {ttlMs nowMs : Int} {older : List Int} (httl : 0 < ttlMs) (hrange : nowMs ≤ i64Max - ttlMs)
    (h : server key = (windowOf ttlMs older).map (windowCell ttlMs)) :
    exists window, windowOf ttlMs (nowMs :: older) = some window ∧
      (RedisCounterStore.incrWithExpire server nowMs key ttlMs).2 = some window.count ∧
      (RedisCounterStore.incrWithExpire server nowMs key ttlMs).1 key =
        some (windowCell ttlMs window) := by
  rcases closed_or_open ttlMs nowMs older with hclosed | ⟨last, hlast, hlt⟩
  · have hdead : server.live nowMs key = none := by
      cases hwindow : windowOf ttlMs older with
      | none =>
        rw [hwindow] at h
        exact Keyspace.live_of_none nowMs h
      | some window =>
        have hle := hclosed window hwindow
        rw [hwindow] at h
        rw [Keyspace.live_of_some nowMs h, if_neg]
        unfold Cell.isLive windowCell
        simpa using hle
    rcases incrWithExpire_of_dead hdead ttlMs with ⟨hcount, hmade⟩
    rw [if_neg (by lia)] at hcount
    have hcell := hmade (by lia)
    rw [if_neg (Int.not_le.mpr httl)] at hcell
    exact ⟨_, windowOf_cons_of_closed hclosed, hcount, hcell⟩
  · rw [hlast] at h
    have hlive := Keyspace.live_of_some nowMs h
    rw [if_pos (by unfold Cell.isLive windowCell; simpa using hlt)] at hlive
    rw [incrWithExpire_of_live hlive (windowOf_count_pos hlast)]
    have hself := Keyspace.modify_self server nowMs key (fun _ => last.count + 1)
    rw [hlive] at hself
    exact ⟨_, windowOf_cons_of_open hlast hlt, rfl, hself⟩

/-- A tier under watch, all its requests with one configuration. -/
structure TierWatch where
  store : RedisCounterStore
  tier : Tier
  cfg : DdosTierCfg
  absoluteCapFloor : UInt32

namespace TierWatch

def windowS (watch : TierWatch) : Nat :=
  watch.cfg.perTierWindowS.toNat

def windowMs (watch : TierWatch) : Int :=
  PerTierDetector.windowMs watch.cfg

theorem windowMs_eq (watch : TierWatch) :
    watch.windowMs = watch.windowS * 1000 :=
  rfl

def key (watch : TierWatch) : Text :=
  watch.store.keyPrefix ++ PerTierDetector.buildKey watch.tier

/-- The detector and the server after a history, from a new detector and an empty
server. -/
def after (watch : TierWatch) : List Int -> PerTierDetector × RedisServer
  | [] => (PerTierDetector.new watch.absoluteCapFloor, Keyspace.empty)
  | nowMs :: older =>
    let s := watch.after older
    let result := s.1.evaluateAtRedis watch.store s.2 watch.tier watch.cfg nowMs
    (result.1, result.2.1)

def verdict (watch : TierWatch) (nowMs : Int) (older : List Int) : DetectorVerdict :=
  let s := watch.after older
  (s.1.evaluateAtRedis watch.store s.2 watch.tier watch.cfg nowMs).2.2

/-- The counter starts anew at the end of every window: it can be given the
timeout. -/
def Restarts (watch : TierWatch) (history : List Int) : Prop :=
  forall nowMs, nowMs ∈ history -> nowMs ≤ i64Max - watch.windowMs

def Follows (watch : TierWatch) (history : List Int) (s : PerTierDetector × RedisServer) : Prop :=
  s.1 = { baseline := MovingMedian.ofHistory history
          absoluteCapFloor := watch.absoluteCapFloor } ∧
    s.2 watch.key = (windowOf watch.windowMs history).map (windowCell watch.windowMs)

def threshold (watch : TierWatch) (history : List Int) : Nat :=
  max watch.absoluteCapFloor.toNat (3 * (MovingMedian.ofHistory history).median)

variable {nowMs baseMs second : Int} {watch : TierWatch} {older : List Int} {r n windowS : Nat}
  {window : FixedWindow}

theorem evaluateAtRedis_of_some {detector : PerTierDetector}
    {store : RedisCounterStore} {server : RedisServer} {tier : Tier}
    {cfg : DdosTierCfg} {count : Nat} (h : (store.incrGet server (PerTierDetector.buildKey tier)
      (PerTierDetector.windowMs cfg) nowMs).2 = some count) :
    detector.evaluateAtRedis store server tier cfg nowMs = (detector.record nowMs,
        (store.incrGet server (PerTierDetector.buildKey tier)
          (PerTierDetector.windowMs cfg) nowMs).1, PerTierDetector.verdictOf count
          (detector.record nowMs).computeThreshold) := by
  unfold PerTierDetector.evaluateAtRedis
  rw [← Prod.mk.eta (p := store.incrGet server _ _ nowMs), h]

theorem evaluate_of_follows {s : PerTierDetector × RedisServer} (hwindow : 0 < watch.windowMs)
    (hrange : nowMs ≤ i64Max - watch.windowMs) (h : watch.Follows older s) :
    exists window, windowOf watch.windowMs (nowMs :: older) = some window ∧
      (s.1.evaluateAtRedis watch.store s.2 watch.tier watch.cfg nowMs).2.2 =
        PerTierDetector.verdictOf window.count (watch.threshold (nowMs :: older)) ∧
      watch.Follows (nowMs :: older)
        ((s.1.evaluateAtRedis watch.store s.2 watch.tier watch.cfg nowMs).1,
          (s.1.evaluateAtRedis watch.store s.2 watch.tier watch.cfg nowMs).2.1) := by
  rcases s with ⟨detector, server⟩
  rcases h with ⟨rfl, hserver⟩
  rcases incrWithExpire_window hwindow hrange hserver with ⟨window, hnow, hcount, hcell⟩
  rw [evaluateAtRedis_of_some hcount]
  refine ⟨window, hnow, rfl, rfl, ?_⟩
  rw [hnow]
  exact hcell

theorem follows_after (hwindow : 0 < watch.windowMs)
    {history : List Int} (h : watch.Restarts history) :
    watch.Follows history (watch.after history) := by
  induction history with
  | nil => exact ⟨rfl, rfl⟩
  | cons nowMs older ih =>
    have holder := ih (fun t ht => h t (List.mem_cons_of_mem nowMs ht))
    rcases evaluate_of_follows hwindow (h nowMs List.mem_cons_self) holder with ⟨_, _, _, hfollows⟩
    exact hfollows

theorem verdict_eq (hwindow : 0 < watch.windowMs)
    {nowMs : Int} {older : List Int} (h : watch.Restarts (nowMs :: older)) :
    exists window, windowOf watch.windowMs (nowMs :: older) = some window ∧
      watch.verdict nowMs older = PerTierDetector.verdictOf window.count
          (watch.threshold (nowMs :: older)) := by
  have holder : watch.Restarts older := fun t ht => h t (List.mem_cons_of_mem nowMs ht)
  rcases evaluate_of_follows hwindow (h nowMs List.mem_cons_self)
    (follows_after hwindow holder) with ⟨window, hnow, hverdict, _⟩
  exact ⟨window, hnow, hverdict⟩

/-- In each of the sixty seconds before there were `r` requests, and the present
second does not have more. -/
def Steady (r : Nat) (nowMs : Int) (older : List Int) : Prop :=
  secondCount (secondOf nowMs) (nowMs :: older) ≤ r ∧
    forall second, secondOf nowMs - 60 ≤ second -> second < secondOf nowMs ->
      secondCount second (nowMs :: older) = r

def AcceptsSteady (watch : TierWatch) (r : Nat) : Prop :=
  forall nowMs older, OnClock (nowMs :: older) ->
    watch.Restarts (nowMs :: older) -> Steady r nowMs older ->
    (watch.verdict nowMs older).isHardBurst = false

theorem threshold_of_steady (hclock : OnClock (nowMs :: older)) (h : Steady r nowMs older) :
    watch.threshold (nowMs :: older) = max watch.absoluteCapFloor.toNat (3 * r) := by
  unfold threshold
  rw [MovingMedian.median_ofHistory_of_level hclock h.1]
  intro second hlow hhigh
  exact h.2 second (by lia) hhigh

def fromSecond (second : Int) (history : List Int) : Nat :=
  history.countP (fun nowMs => second ≤ secondOf nowMs)

theorem fromSecond_eq_add (second : Int) (history : List Int) :
    fromSecond second history = secondCount second history + fromSecond (second + 1) history := by
  unfold fromSecond secondCount
  induction history with
  | nil => rfl
  | cons nowMs older ih =>
    simp only [List.countP_cons, ih, decide_eq_true_eq]
    split <;> split <;> split <;> lia

theorem fromSecond_of_steady
    (hclock : OnClock (nowMs :: older)) (h : Steady r nowMs older) {k : Nat} (hk : k ≤ 60) :
    fromSecond (secondOf nowMs - k) (nowMs :: older) ≤ (k + 1) * r := by
  induction k with
  | zero =>
    have hlater : fromSecond (secondOf nowMs + 1) (nowMs :: older) = 0 := by
      refine List.countP_eq_zero.mpr ?_
      intro t ht
      simp only [decide_eq_true_eq]
      rcases List.mem_cons.mp ht with heq | hmem
      · rw [heq]
        lia
      · have := hclock.secondOf_le hmem
        lia
    have hnow := h.1
    rw [Int.natCast_zero, Int.sub_zero, fromSecond_eq_add, hlater]
    lia
  | succ k ih =>
    rw [fromSecond_eq_add, h.2 _ (by lia) (by lia)]
    have hrest := ih (by lia)
    have hnext : secondOf nowMs - (k + 1 : Nat) + 1 = secondOf nowMs - k := by
      lia
    rw [hnext]
    lia

theorem count_le_of_steady (hwindow : 0 < watch.windowMs)
    (hshort : watch.windowS ≤ 60) (hclock : OnClock (nowMs :: older)) (h : Steady r nowMs older)
    (hnow : windowOf watch.windowMs (nowMs :: older) = some window) :
    window.count ≤ (watch.windowS + 1) * r := by
  have hlt := windowOf_lt hwindow hnow
  rw [windowMs_eq] at hlt
  have hzero := (hclock.2 nowMs List.mem_cons_self).1
  have hsecond := secondOf_eq hzero
  calc window.count
      ≤ (nowMs :: older).countP (fun t => window.start ≤ t) := (windowOf_count_le hclock.1 hnow).2
    _ ≤ fromSecond (secondOf nowMs - watch.windowS) (nowMs :: older) := by
        refine List.countP_mono_left ?_
        intro t ht hstart
        have hpos := secondOf_eq (hclock.2 t ht).1
        simp only [decide_eq_true_eq] at hstart ⊢
        lia
    _ ≤ (watch.windowS + 1) * r := fromSecond_of_steady hclock h hshort

theorem isHardBurst_verdictOf (count threshold : Nat) :
    (PerTierDetector.verdictOf count threshold).isHardBurst = true <-> threshold < count := by
  unfold PerTierDetector.verdictOf
  split <;> simp [DetectorVerdict.isHardBurst, *]

theorem acceptsSteady_of_short (hwindow : 0 < watch.windowMs) (hshort : watch.windowS ≤ 60)
    (hfloor : (watch.windowS + 1) * r ≤ max watch.absoluteCapFloor.toNat (3 * r)) :
    watch.AcceptsSteady r := by
  intro nowMs older hclock hrestarts hsteady
  rcases verdict_eq hwindow hrestarts with ⟨window, hnow, hverdict⟩
  have hcount := count_le_of_steady hwindow hshort hclock hsteady hnow
  rw [hverdict, threshold_of_steady hclock hsteady]
  refine Bool.eq_false_iff.mpr (fun hburst => ?_)
  have hlt := (isHardBurst_verdictOf _ _).mp hburst
  lia

/-- In each of `n` seconds `r` requests at one time. -/
def paced (r : Nat) (baseMs : Int) : Nat -> List Int
  | 0 => []
  | n + 1 => List.replicate r (baseMs + n * 1000) ++ paced r baseMs n

theorem mem_paced (h : nowMs ∈ paced r baseMs n) :
    exists k : Nat, k < n ∧ nowMs = baseMs + k * 1000 := by
  induction n with
  | zero => cases h
  | succ n ih =>
    rcases List.mem_append.mp h with hlast | hbefore
    · exact ⟨n, Nat.lt_succ_self n, List.eq_of_mem_replicate hlast⟩
    · rcases ih hbefore with ⟨k, hk, heq⟩
      exact ⟨k, Nat.lt_succ_of_lt hk, heq⟩

theorem secondCount_append (second : Int) (newer older : List Int) :
    secondCount second (newer ++ older) = secondCount second newer + secondCount second older :=
  List.countP_append

theorem secondCount_replicate (second nowMs : Int) (n : Nat) :
    secondCount second (List.replicate n nowMs) =
      if secondOf nowMs = second then n else 0 := by
  unfold secondCount
  rw [List.countP_replicate]
  simp only [decide_eq_true_eq]

theorem secondOf_paced (hbase : 0 ≤ baseMs) (k : Nat) :
    secondOf (baseMs + k * 1000) = baseMs / 1000 + k := by
  rw [secondOf_eq (by lia)]
  lia

theorem secondCount_paced_later (hbase : 0 ≤ baseMs) (h : baseMs / 1000 + n ≤ second) :
    secondCount second (paced r baseMs n) = 0 := by
  refine secondCount_eq_zero ?_
  intro nowMs hmem
  rcases mem_paced hmem with ⟨k, hk, rfl⟩
  rw [secondOf_paced hbase]
  lia

theorem secondCount_paced (hbase : 0 ≤ baseMs)
    (hlow : baseMs / 1000 ≤ second) (hhigh : second < baseMs / 1000 + n) :
    secondCount second (paced r baseMs n) = r := by
  induction n with
  | zero => lia
  | succ n ih =>
    rw [paced, secondCount_append, secondCount_replicate, secondOf_paced hbase]
    split
    · rename_i heq
      rw [secondCount_paced_later hbase (by lia)]
      exact Nat.add_zero r
    · rename_i hne
      rw [ih (by lia)]
      exact Nat.zero_add r

theorem onClock_append {newer : List Int} (hnewer : OnClock newer)
    (holder : OnClock older) (h : forall a, a ∈ newer -> forall b, b ∈ older -> a ≥ b) :
    OnClock (newer ++ older) := by
  refine ⟨List.pairwise_append.mpr ⟨hnewer.1, holder.1, h⟩, ?_⟩
  intro nowMs hmem
  rcases List.mem_append.mp hmem with hmem | hmem
  · exact hnewer.2 nowMs hmem
  · exact holder.2 nowMs hmem

theorem onClock_replicate (h : 0 ≤ nowMs ∧ nowMs ≤ i64Max)
    (n : Nat) : OnClock (List.replicate n nowMs) := by
  refine ⟨List.pairwise_replicate.mpr (Or.inr (Int.le_refl nowMs)), ?_⟩
  intro t ht
  rw [List.eq_of_mem_replicate ht]
  exact h

theorem onClock_paced (hbase : 0 ≤ baseMs)
    (hmax : baseMs + n * 1000 ≤ i64Max) : OnClock (paced r baseMs n) := by
  induction n with
  | zero => exact ⟨List.Pairwise.nil, fun _ h => nomatch h⟩
  | succ n ih =>
    refine onClock_append (onClock_replicate (by lia) r) (ih (by lia)) ?_
    intro a ha b hb
    rcases mem_paced hb with ⟨k, hk, rfl⟩
    rw [List.eq_of_mem_replicate ha]
    lia

theorem paced_add (r : Nat) (baseMs : Int) (m n : Nat) :
    paced r baseMs (m + n) = paced r (baseMs + m * 1000) n ++ paced r baseMs m := by
  induction n with
  | zero => rfl
  | succ n ih =>
    have htime : baseMs + (m + n : Nat) * 1000 =
        baseMs + m * 1000 + n * 1000 := by lia
    rw [← Nat.add_assoc, paced, paced, ih, htime, List.append_assoc]

theorem windowOf_paced_of_open {length : Int} (h : windowOf length older = some window)
    (hopen : baseMs + n * 1000 < window.start + length + 1000) (r : Nat) :
    windowOf length (paced r baseMs n ++ older) =
      some { window with count := window.count + n * r } := by
  induction n with
  | zero => rw [Nat.zero_mul]; exact h
  | succ n ih =>
    rw [paced, List.append_assoc, windowOf_replicate_of_open (ih (by lia)) (by dsimp only; lia)]
    congr 2
    lia

theorem windowOf_paced_of_closed {m : Nat} (hwindow : 0 < windowS) (hr : 0 < r)
    (h : Closed (windowS * 1000) (baseMs + m * 1000) (paced r baseMs m)) :
    windowOf (windowS * 1000) (paced r baseMs (m + windowS)) =
      some { start := baseMs + m * 1000, count := windowS * r } := by
  obtain ⟨k, rfl⟩ := Nat.exists_eq_add_of_le' hwindow
  obtain ⟨r, rfl⟩ := Nat.exists_eq_add_of_le' hr
  have hfirst : windowOf ((k + 1 : Nat) * 1000) (paced (r + 1) baseMs (m + 1)) =
        some { start := baseMs + m * 1000, count := r + 1 } :=
    windowOf_replicate_of_closed (by lia) h r
  have hsplit : m + (k + 1) = m + 1 + k := by lia
  rw [hsplit, paced_add, windowOf_paced_of_open hfirst (by dsimp only; lia)]
  congr 2
  lia

theorem closed_paced (baseMs : Int) {r : Nat} (hwindow : 0 < windowS) (hr : 0 < r) (q : Nat) :
    Closed (windowS * 1000) (baseMs + (q * windowS : Nat) * 1000)
      (paced r baseMs (q * windowS)) := by
  induction q with
  | zero =>
    intro window h
    rw [Nat.zero_mul] at h
    cases h
  | succ q ih =>
    intro window h
    rw [Nat.succ_mul, windowOf_paced_of_closed hwindow hr ih] at h
    cases h
    rw [Nat.succ_mul]
    dsimp only
    lia

/-!
## The bound

The traffic that shows the bound comes in bunches on the seconds; for windows of more than
a minute a burst before the steady minute does.
-/

theorem not_acceptsSteady (hwindow : 0 < watch.windowMs) (hclock : OnClock (nowMs :: older))
    (hrestarts : watch.Restarts (nowMs :: older)) (h : Steady r nowMs older)
    (hnow : windowOf watch.windowMs (nowMs :: older) = some window)
    (hburst : max watch.absoluteCapFloor.toNat (3 * r) < window.count) :
    ¬ watch.AcceptsSteady r := by
  intro haccepts
  rcases verdict_eq hwindow hrestarts with ⟨other, hother, hverdict⟩
  rw [hnow] at hother
  cases hother
  have hallowed := haccepts nowMs older hclock hrestarts h
  rw [hverdict, threshold_of_steady hclock h] at hallowed
  have hhard := (isHardBurst_verdictOf _ _).mpr hburst
  rw [hallowed] at hhard
  cases hhard

theorem restarts_of_newest (hclock : OnClock (nowMs :: older))
    (h : nowMs ≤ i64Max - watch.windowMs) :
    watch.Restarts (nowMs :: older) := by
  intro t ht
  rcases List.mem_cons.mp ht with heq | hmem
  · rw [heq]
    exact h
  · have hle : t ≤ nowMs := List.rel_of_pairwise_cons hclock.1 hmem
    lia

/-- Requests at the end of each second, then those of the present second at its
beginning. -/
def bunched (r n : Nat) : List Int :=
  List.replicate r (n * 1000 : Int) ++ paced r 999 n

theorem onClock_bunched (h : n ≤ 3600) :
    OnClock (bunched r n) := by
  refine onClock_append (onClock_replicate (by unfold i64Max; lia) r)
    (onClock_paced (by lia) (by unfold i64Max; lia)) ?_
  intro a ha b hb
  rcases mem_paced hb with ⟨k, hk, rfl⟩
  rw [List.eq_of_mem_replicate ha]
  lia

theorem secondCount_bunched (hlow : 0 ≤ second)
    (hhigh : second ≤ n) : secondCount second (bunched r n) = r := by
  have hnow : secondOf (n * 1000) = n := by
    rw [secondOf_eq (by lia)]
    lia
  unfold bunched
  rw [secondCount_append, secondCount_replicate, hnow]
  split
  · rw [secondCount_paced_later (by lia) (by lia)]
    exact Nat.add_zero r
  · rw [secondCount_paced (by lia) (by lia) (by lia)]
    exact Nat.zero_add r

theorem windowOf_bunched (hr : 0 < r) (hwindow : 0 < windowS) :
    windowOf (windowS * 1000) (bunched r (59 * windowS + windowS)) = some {
        start := 999 + (59 * windowS : Nat) * 1000
        count := windowS * r + r } := by
  have hopen := windowOf_paced_of_closed hwindow hr (closed_paced 999 hwindow hr 59)
  exact windowOf_replicate_of_open hopen (by dsimp only; lia) r

theorem not_acceptsSteady_of_short (hr : 0 < r)
    (hwindow : 0 < watch.windowS) (hshort : watch.windowS ≤ 60)
    (hfloor : max watch.absoluteCapFloor.toNat (3 * r) < (watch.windowS + 1) * r) :
    ¬ watch.AcceptsSteady r := by
  have hcount := windowOf_bunched hr hwindow
  have hclock := onClock_bunched (r := r) (show 59 * watch.windowS + watch.windowS ≤ 3600 by lia)
  have hsecond : secondOf ((59 * watch.windowS + watch.windowS : Nat) * 1000) =
      (59 * watch.windowS + watch.windowS : Nat) := by
    rw [secondOf_eq (by lia)]
    lia
  have hcounts : forall second : Int, 0 ≤ second ->
      second ≤ (59 * watch.windowS + watch.windowS : Nat) ->
      secondCount second (bunched r (59 * watch.windowS + watch.windowS)) =
        r := fun _ hlow hhigh => secondCount_bunched hlow hhigh
  obtain ⟨k, rfl⟩ := Nat.exists_eq_add_of_le' hr
  refine not_acceptsSteady (by rw [windowMs_eq]; lia) hclock
    (restarts_of_newest hclock (by rw [windowMs_eq]; unfold i64Max; lia))
    ⟨?_, ?_⟩ hcount (by dsimp only; lia)
  · rw [hsecond]
    exact Nat.le_of_eq (hcounts _ (by lia) (by lia))
  · rw [hsecond]
    intro second hlow hhigh
    exact hcounts second (by lia) (by lia)

/-- Requests at the end of a second, then a minute of steady traffic. -/
def afterBurst (n r : Nat) : List Int :=
  paced r 1000 60 ++ List.replicate n 999

theorem onClock_afterBurst (n r : Nat) : OnClock (61000 :: afterBurst n r) := by
  refine onClock_append (onClock_replicate (by decide) 1)
    (onClock_append (onClock_paced (by lia) (by decide)) (onClock_replicate (by decide) n) ?_) ?_
  · intro a ha b hb
    rcases mem_paced ha with ⟨k, _, rfl⟩
    rw [List.eq_of_mem_replicate hb]
    lia
  · intro a ha b hb
    rw [List.eq_of_mem_replicate ha]
    rcases List.mem_append.mp hb with hb | hb
    · rcases mem_paced hb with ⟨k, hk, rfl⟩
      lia
    · rw [List.eq_of_mem_replicate hb]
      decide

theorem steady_afterBurst (n : Nat) {r : Nat} (hr : 0 < r) :
    Steady r 61000 (afterBurst n r) := by
  have hnow : secondOf 61000 = 61 := by decide
  have hburst : secondOf 999 = 0 := by decide
  unfold Steady
  rw [hnow]
  constructor
  · have hself := secondCount_cons_self 61000 (afterBurst n r)
    rw [hnow] at hself
    rw [hself]
    unfold afterBurst
    rw [secondCount_append, secondCount_replicate, hburst, if_neg (by decide),
      secondCount_paced_later (by lia) (by decide)]
    exact hr
  · intro second hlow hhigh
    rw [secondCount_cons_of_ne (by rw [hnow]; lia)]
    unfold afterBurst
    rw [secondCount_append, secondCount_replicate, hburst, if_neg (by lia),
      secondCount_paced (by lia) (by lia) (by lia)]
    exact Nat.add_zero r

theorem windowOf_afterBurst (hlong : 60 < windowS) (n r : Nat) :
    windowOf (windowS * 1000) (61000 :: afterBurst (n + 1) r) =
      some { start := 999, count := n + 1 + 60 * r + 1 } := by
  have hclosed : Closed (windowS * 1000) 999 [] := fun _ h => nomatch h
  have hburst := windowOf_replicate_of_closed (by lia) hclosed n
  rw [List.append_nil] at hburst
  exact windowOf_cons_of_open
    (windowOf_paced_of_open hburst (by dsimp only; lia) r) (by dsimp only; lia)

theorem not_acceptsSteady_of_long (hr : 0 < r)
    (hlong : 60 < watch.windowS) : ¬ watch.AcceptsSteady r := by
  obtain ⟨n, hn⟩ : exists n, n = max watch.absoluteCapFloor.toNat (3 * r) := ⟨_, rfl⟩
  have hmax : watch.windowS < 2 ^ 32 := watch.cfg.perTierWindowS.toNat_lt
  have hclock := onClock_afterBurst (n + 1) r
  refine not_acceptsSteady (by rw [windowMs_eq]; lia) hclock
    (restarts_of_newest hclock (by rw [windowMs_eq]; unfold i64Max; lia))
    (steady_afterBurst (n + 1) hr) (windowOf_afterBurst hlong n r) ?_
  rw [← hn]
  dsimp only
  lia

/-- Steady traffic is accepted exactly when the window is no longer than a minute
and the requests of its seconds and one more stay within the threshold. -/
theorem acceptsSteady_iff {watch : TierWatch} {r : Nat} (hr : 1 ≤ r) (hwindow : 1 ≤ watch.windowS) :
    watch.AcceptsSteady r <-> watch.windowS ≤ 60 ∧ (watch.windowS + 1) * r ≤
          max watch.absoluteCapFloor.toNat (3 * r) := by
  constructor
  · intro h
    have hshort : watch.windowS ≤ 60 :=
      Nat.not_lt.mp (fun hlong => not_acceptsSteady_of_long hr hlong h)
    refine ⟨hshort, Nat.not_lt.mp (fun hfloor => ?_)⟩
    exact not_acceptsSteady_of_short hr hwindow hshort hfloor h
  · rintro ⟨hshort, hfloor⟩
    exact acceptsSteady_of_short (by rw [windowMs_eq]; lia) hshort hfloor

def critical (perTierWindowS absoluteCapFloor : UInt32) : TierWatch :=
  { store := wafddos
    tier := .critical
    cfg :=
      { perFpThreshold := 100
        perFpWindowS := 10
        perTierThreshold := 1000
        perTierWindowS := perTierWindowS }
    absoluteCapFloor := absoluteCapFloor }

theorem ninety_per_second_accepted : (critical 10 1000).AcceptsSteady 90 :=
  (acceptsSteady_iff (by decide) (by decide)).mpr (by decide)

/-- One request every second, with a window of ten seconds: the fourth request of
a window is a burst. -/
theorem one_per_second_burst :
    OnClock (63000 :: paced 1 0 63) ∧ (critical 10 1).Restarts (63000 :: paced 1 0 63) ∧
      Steady 1 63000 (paced 1 0 63) ∧ (critical 10 1).verdict 63000 (paced 1 0 63) =
        .hardBurst "tier_burst".toList "per_tier".toList := by
  have hclock : OnClock (63000 :: paced 1 0 63) := by decide +kernel
  have hnow : secondOf 63000 = 63 := by decide
  refine ⟨hclock, restarts_of_newest hclock (by decide), ⟨?_, ?_⟩, ?_⟩
  · decide +kernel
  · rw [hnow]
    intro second hlow hhigh
    rw [secondCount_cons_of_ne (by rw [hnow]; lia)]
    exact secondCount_paced (by lia) (by lia) (by lia)
  · decide +kernel

end TierWatch
end Ddos
end PrxWaf
