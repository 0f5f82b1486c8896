import PrxWaf.Lib.BucketPair
import PrxWaf.RateLimit.MemoryStore

/-!
# The rate-limit store in Redis

A script runs the same two algorithms on the fields of a hash.  The refill rate
reaches it as a whole number of thousandths.
-/

namespace PrxWaf
namespace RateLimit

open Lib

/-! ## The script -/

structure RedisHash where
  tbTokens : Option Rat
  tbLastMs : Option Int
  swCurr : Option Nat
  swPrev : Option Nat
  swWinStartMs : Option Int
  deriving DecidableEq

namespace RedisHash

def empty : RedisHash :=
  { tbTokens := none
    tbLastMs := none
    swCurr := none
    swPrev := none
    swWinStartMs := none }

def full (tbTokens : Rat) (tbLastMs : Int) (sw : SlidingWindowState) : RedisHash :=
  { tbTokens := some tbTokens
    tbLastMs := some tbLastMs
    swCurr := some sw.currCount
    swPrev := some sw.prevCount
    swWinStartMs := some sw.currWindowStartMs }

end RedisHash

structure ScriptArgs where
  now : Int
  cap : Int
  refillE3 : Int
  winS : Int
  lim : Int

namespace ScriptArgs

def winMs (args : ScriptArgs) : Int :=
  args.winS * 1000

def bucketNow (args : ScriptArgs) : Int :=
  args.now.fdiv args.winMs * args.winMs

/-- Roll the window forward; the branch for a negative advance is missing. -/
def roll (args : ScriptArgs) (sw : SlidingWindowState) : SlidingWindowState :=
  let advance := (args.bucketNow - sw.currWindowStartMs).fdiv args.winMs
  if advance = 1 then
    { currCount := 0
      prevCount := sw.currCount
      currWindowStartMs := args.bucketNow }
  else if 2 ≤ advance then
    { currCount := 0
      prevCount := 0
      currWindowStartMs := args.bucketNow }
  else sw

def estimated (args : ScriptArgs) (sw : SlidingWindowState) : Rat :=
  let elapsedInCurr : Int := args.now - sw.currWindowStartMs
  let weightPrev : Rat := 1 - min 1 (max 0 ((elapsedInCurr : Rat) / (args.winMs : Rat)))
  sw.currCount + sw.prevCount * weightPrev

/-- The counters of a hash; missing fields are those of an empty window. -/
def window (args : ScriptArgs) (h : RedisHash) : SlidingWindowState :=
  { currCount := h.swCurr.getD 0
    prevCount := h.swPrev.getD 0
    currWindowStartMs := h.swWinStartMs.getD args.bucketNow }

/-- The tokens of a hash after the refill; without fields the bucket is full. -/
def refilled (args : ScriptArgs) (h : RedisHash) : Rat :=
  let tbTokens := h.tbTokens.getD args.cap
  let tbLastMs := h.tbLastMs.getD args.now
  let elapsedS : Rat := (max 0 (args.now - tbLastMs) : Int) / 1000
  min (args.cap : Rat) (tbTokens + elapsedS * (args.refillE3 / 1000))

/-- The script and its return code.  When the bucket is empty only the fields of
the bucket are written. -/
def run (args : ScriptArgs) (h : RedisHash) : RedisHash × Nat :=
  let tbTokens := args.refilled h
  if tbTokens < 1 then
    ({ h with tbTokens := some tbTokens, tbLastMs := some args.now }, 1)
  else
    let sw := args.roll (args.window h)
    if args.lim < args.estimated sw + 1 then
      (RedisHash.full (tbTokens - 1) args.now sw, 2)
    else
      (RedisHash.full (tbTokens - 1) args.now
        { sw with currCount := sw.currCount + 1 }, 0)

end ScriptArgs

def roundAway (q : Rat) : Int :=
  if 0 ≤ q then ⌊q + 1 / 2⌋ else ⌈q - 1 / 2⌉

/-- The refill in thousandths, within the range of the machine's integers. -/
def LimitCfg.refillE3 (cfg : LimitCfg) : Int :=
  max (-2 ^ 63) (min (2 ^ 63 - 1) (roundAway (cfg.burstRefillPerS * 1000)))

def Decision.ofCode : Nat -> Option Decision
  | 0 => some .allow
  | 1 => some .burstExceeded
  | 2 => some .sustainedExceeded
  | _ => none

def LimitCfg.args (cfg : LimitCfg) (nowMs : Int) : ScriptArgs :=
  { now := nowMs
    cap := cfg.burstCapacity.toNat
    refillE3 := cfg.refillE3
    winS := cfg.windowSecs.toNat
    lim := cfg.windowLimit.toNat }

def redisCheckAndConsume (cfg : LimitCfg) (nowMs : Int) (h : RedisHash) :
    RedisHash × Option Decision :=
  let result := (cfg.args nowMs).run h
  (result.1, Decision.ofCode result.2)

def redisDecisions (cfg : LimitCfg) : RedisHash -> List Int -> List (Option Decision)
  | _, [] => []
  | h, nowMs :: rest =>
    (redisCheckAndConsume cfg nowMs h).2 ::
      redisDecisions cfg (redisCheckAndConsume cfg nowMs h).1 rest

def memoryDecisions (key : Text) (cfg : LimitCfg) : MemoryStore -> List Int -> List Decision
  | _, [] => []
  | map, nowMs :: rest =>
    (map.checkAndConsume key cfg nowMs).2 ::
      memoryDecisions key cfg (map.checkAndConsume key cfg nowMs).1 rest

def entryDecisions (cfg : LimitCfg) : Entry -> List Int -> List Decision
  | _, [] => []
  | entry, nowMs :: rest =>
    (entry.consume cfg nowMs).2 :: entryDecisions cfg (entry.consume cfg nowMs).1 rest

theorem memoryDecisions_of_lookup {key : Text} {cfg : LimitCfg} {entry : Entry}
    {map : MemoryStore} (h : map.lookup key = some entry) (times : List Int) :
    memoryDecisions key cfg map times = entryDecisions cfg entry times := by
  induction times generalizing map entry with
  | nil => rfl
  | cons nowMs rest ih =>
    have hself := map.lookup_checkAndConsume_self key cfg nowMs
    rw [h, Option.getD_some] at hself
    rw [memoryDecisions, entryDecisions, ih hself]
    unfold MemoryStore.checkAndConsume
    rw [h, Option.getD_some]

section Window

variable {cfg : LimitCfg} {nowMs : Int}

theorem args_winMs : (cfg.args nowMs).winMs = cfg.winMs :=
  rfl

theorem args_lim :
    (((cfg.args nowMs).lim : Int) : Rat) = cfg.windowLimit.toNat :=
  Int.cast_natCast _

theorem bucketNow_eq (hwin : 0 < cfg.winMs) :
    (cfg.args nowMs).bucketNow = alignFloor nowMs cfg.winMs := by
  change nowMs.fdiv cfg.winMs * cfg.winMs = nowMs / cfg.winMs * cfg.winMs
  rw [Int.fdiv_eq_ediv_of_nonneg _ hwin.le]

theorem max_tdiv_eq {d win : Int} (hwin : 0 < win) :
    max (d.tdiv win) 0 = max (d.fdiv win) 0 := by
  rw [Int.fdiv_eq_ediv_of_nonneg _ hwin.le]
  rcases Int.le_total 0 d with hd | hd
  · rw [Int.tdiv_eq_ediv_of_nonneg hd]
  · have htdiv := Int.tdiv_nonneg (Int.neg_nonneg_of_nonpos hd) hwin.le
    rw [Int.neg_tdiv] at htdiv
    have hediv := Int.ediv_nonpos_of_nonpos_of_neg hd hwin
    lia

theorem roll_eq (hwin : 0 < cfg.winMs) (sw : SlidingWindowState) :
    (cfg.args nowMs).roll sw = sw.roll cfg nowMs := by
  unfold ScriptArgs.roll SlidingWindowState.roll
  dsimp only
  rw [bucketNow_eq hwin, args_winMs, max_tdiv_eq hwin]
  generalize (alignFloor nowMs cfg.winMs - sw.currWindowStartMs).fdiv cfg.winMs = advance
  split
  · rename_i hone
    rw [hone]
    rfl
  · rename_i hone
    split
    · rename_i htwo
      rw [if_neg (by lia), if_neg (by lia)]
    · rename_i htwo
      rw [if_pos (by lia)]

theorem estimated_eq (hwin : 0 < cfg.winMs) (sw : SlidingWindowState) :
    (cfg.args nowMs).estimated sw = sw.estimated cfg nowMs := by
  unfold ScriptArgs.estimated SlidingWindowState.estimated SlidingWindowState.weightPrev
  change (sw.currCount : Rat) + sw.prevCount * (1 - min 1 (max 0
    (((nowMs - sw.currWindowStartMs : Int) : Rat) / (cfg.winMs : Rat)))) = _
  have hpos : (0 : Rat) < cfg.winMs := Int.cast_pos.mpr hwin
  have hmax : max (0 : Rat) (((nowMs - sw.currWindowStartMs : Int) : Rat) / (cfg.winMs : Rat)) =
      max (((max (nowMs - sw.currWindowStartMs) 0 : Int) : Rat) / (cfg.winMs : Rat)) 0 := by
    rw [Int.cast_max, Int.cast_zero, ← max_div_div_right hpos.le, zero_div,
      max_assoc, max_self, max_comm]
  rw [hmax, min_comm, add_comm]

theorem window_eq (hvalid : cfg.Validated) (sw : SlidingWindowState) :
    sw.tryConsume cfg nowMs =
      if (((cfg.args nowMs).lim : Int) : Rat) <
          (cfg.args nowMs).estimated ((cfg.args nowMs).roll sw) + 1 then
        ((cfg.args nowMs).roll sw, false)
      else
        ({ (cfg.args nowMs).roll sw with
          currCount := ((cfg.args nowMs).roll sw).currCount + 1 }, true) := by
  have hwin := hvalid.winMs_pos
  rw [estimated_eq hwin, roll_eq hwin, args_lim]
  unfold SlidingWindowState.tryConsume
  dsimp only
  split
  · rfl
  · rename_i hadmitted
    rw [min_currCount_of_admitted hadmitted]

end Window

section Call

variable {cfg : LimitCfg} {nowMs : Int}

def LimitCfg.redisRefillPerMs (cfg : LimitCfg) : Rat :=
  cfg.refillE3 / 1000 / 1000

def elapsed (lastMs nowMs : Int) : Nat :=
  (nowMs - lastMs).toNat

theorem refilled_eq_refill (s : TokenBucketState) :
    s.refilled cfg nowMs = BucketPair.refill cfg.burstCapacity.toNat cfg.refillPerMs
        (elapsed s.lastCheckMs nowMs) s.tokens := by
  have hcast : ((max (nowMs - s.lastCheckMs) 0 : Int) : Rat) =
      (elapsed s.lastCheckMs nowMs : Nat) := by
    rw [← Int.ofNat_toNat]
    exact Int.cast_natCast _
  unfold TokenBucketState.refilled BucketPair.refill LimitCfg.refillPerMs LimitCfg.capacity
  dsimp only
  rw [hcast, min_comm]
  ring_nf

theorem consume_eq (entry : Entry) {level : Rat}
    (hlevel : BucketPair.refill cfg.burstCapacity.toNat cfg.refillPerMs
      (elapsed entry.tb.lastCheckMs nowMs) entry.tb.tokens = level) :
    entry.consume cfg nowMs =
      if 1 ≤ level then
        ({ tb := { tokens := level - 1, lastCheckMs := nowMs }
           sw := (entry.sw.tryConsume cfg nowMs).1
           lastTouchMs := nowMs },
          if (entry.sw.tryConsume cfg nowMs).2 then .allow
          else .sustainedExceeded)
      else
        ({ entry with
           tb := { tokens := level, lastCheckMs := nowMs }
           lastTouchMs := nowMs }, .burstExceeded) := by
  unfold Entry.consume TokenBucketState.tryConsume
  rw [refilled_eq_refill, hlevel]
  dsimp only
  split
  · rfl
  · rfl

structure Reads (cfg : LimitCfg) (nowMs : Int) (h : RedisHash) (tokens : Rat)
    (lastMs : Int) (sw : SlidingWindowState) : Prop where
  tokens : h.tbTokens.getD cfg.burstCapacity.toNat = tokens
  lastMs : h.tbLastMs.getD nowMs = lastMs
  window : (cfg.args nowMs).window h = sw

theorem args_refilled {h : RedisHash} {tokens : Rat} {lastMs : Int}
    {sw : SlidingWindowState} (hreads : Reads cfg nowMs h tokens lastMs sw) :
    (cfg.args nowMs).refilled h = BucketPair.refill cfg.burstCapacity.toNat cfg.redisRefillPerMs
        (elapsed lastMs nowMs) tokens := by
  have hcast : ((max 0 (nowMs - lastMs) : Int) : Rat) = (elapsed lastMs nowMs : Nat) := by
    rw [max_comm, ← Int.ofNat_toNat]
    exact Int.cast_natCast _
  have hcap : (((cfg.args nowMs).cap : Int) : Rat) = cfg.burstCapacity.toNat := Int.cast_natCast _
  have hnow : (cfg.args nowMs).now = nowMs := rfl
  have hrefill : (cfg.args nowMs).refillE3 = cfg.refillE3 := rfl
  unfold ScriptArgs.refilled BucketPair.refill LimitCfg.redisRefillPerMs
  dsimp only
  rw [hcap, hnow, hrefill, hreads.tokens, hreads.lastMs, hcast]
  ring_nf

theorem redisCheckAndConsume_eq (hvalid : cfg.Validated) {h : RedisHash}
    {tokens level : Rat} {lastMs : Int} {sw : SlidingWindowState}
    (hreads : Reads cfg nowMs h tokens lastMs sw)
    (hlevel : BucketPair.refill cfg.burstCapacity.toNat cfg.redisRefillPerMs
      (elapsed lastMs nowMs) tokens = level) :
    redisCheckAndConsume cfg nowMs h =
      if 1 ≤ level then
        (RedisHash.full (level - 1) nowMs (sw.tryConsume cfg nowMs).1,
          some (if (sw.tryConsume cfg nowMs).2 then .allow
            else .sustainedExceeded))
      else
        ({ h with tbTokens := some level, tbLastMs := some nowMs }, some .burstExceeded) := by
  unfold redisCheckAndConsume ScriptArgs.run
  dsimp only
  rw [args_refilled hreads, hlevel, hreads.window, window_eq hvalid]
  rcases le_or_gt 1 level with hone | hone
  · rw [if_neg (not_lt.mpr hone), if_pos hone]
    split
    · rfl
    · rfl
  · rw [if_pos hone, if_neg (not_le.mpr hone)]
    rfl

theorem reads_full (tokens : Rat) (lastMs : Int) (sw : SlidingWindowState) :
    Reads cfg nowMs (RedisHash.full tokens lastMs sw) tokens lastMs sw :=
  ⟨rfl, rfl, rfl⟩

theorem reads_empty (hwin : 0 < cfg.winMs) :
    Reads cfg nowMs RedisHash.empty cfg.burstCapacity.toNat nowMs
      (SlidingWindowState.new nowMs cfg) := by
  refine ⟨rfl, rfl, ?_⟩
  unfold ScriptArgs.window SlidingWindowState.new
  rw [bucketNow_eq hwin]
  rfl

end Call

section Pair

variable {cfg : LimitCfg}

/-- A hash holds the counters of an entry, and tokens that no calls can tell from
those of the entry. -/
def Matches (cfg : LimitCfg) (entry : Entry) (h : RedisHash) : Prop :=
  exists tokens, h = RedisHash.full tokens entry.tb.lastCheckMs entry.sw ∧
    BucketPair.Indistinct cfg.burstCapacity.toNat cfg.refillPerMs
      cfg.redisRefillPerMs entry.tb.tokens tokens

theorem matches_step (hvalid : cfg.Validated) {entry : Entry} {h : RedisHash}
    (hmatch : Matches cfg entry h) (nowMs : Int) :
    (redisCheckAndConsume cfg nowMs h).2 = some (entry.consume cfg nowMs).2 ∧
      Matches cfg (entry.consume cfg nowMs).1 (redisCheckAndConsume cfg nowMs h).1 := by
  rcases hmatch with ⟨tokens, hfull, hindistinct⟩
  rcases hindistinct.tested (elapsed entry.tb.lastCheckMs nowMs) with ⟨hone, hrest⟩
  rw [hfull, consume_eq entry rfl, redisCheckAndConsume_eq hvalid (reads_full tokens _ _) rfl]
  rcases le_or_gt 1 (BucketPair.refill cfg.burstCapacity.toNat cfg.refillPerMs
      (elapsed entry.tb.lastCheckMs nowMs) entry.tb.tokens) with htoken | hempty
  · rw [BucketPair.taken_of_le htoken, BucketPair.taken_of_le (hone.mp htoken)] at hrest
    rw [if_pos htoken, if_pos (hone.mp htoken)]
    exact ⟨rfl, _, rfl, hrest⟩
  · have hempty' := lt_of_not_ge (fun hle => absurd (hone.mpr hle) (not_le.mpr hempty))
    rw [BucketPair.taken_of_lt hempty, BucketPair.taken_of_lt hempty'] at hrest
    rw [if_neg (not_le.mpr hempty), if_neg (not_le.mpr hempty')]
    exact ⟨rfl, _, rfl, hrest⟩

theorem decisions_of_matches (hvalid : cfg.Validated) {entry : Entry}
    {h : RedisHash} (hmatch : Matches cfg entry h) (times : List Int) :
    redisDecisions cfg h times = (entryDecisions cfg entry times).map some := by
  induction times generalizing entry h with
  | nil => rfl
  | cons nowMs rest ih =>
    rcases matches_step hvalid hmatch nowMs with ⟨hdecision, hnext⟩
    rw [redisDecisions, entryDecisions, List.map_cons, hdecision, ih hnext]

theorem first_call (hvalid : cfg.Validated) (nowMs : Int) :
    ((Entry.fresh cfg nowMs).consume cfg nowMs).1.tb =
        { tokens := cfg.burstCapacity.toNat - 1, lastCheckMs := nowMs } ∧
      redisCheckAndConsume cfg nowMs RedisHash.empty =
        (RedisHash.full (cfg.burstCapacity.toNat - 1) nowMs
            ((Entry.fresh cfg nowMs).consume cfg nowMs).1.sw,
          some ((Entry.fresh cfg nowMs).consume cfg nowMs).2) := by
  have helapsed : elapsed nowMs nowMs = 0 := by
    unfold elapsed
    rw [sub_self]
    rfl
  have hfull : forall rate : Rat,
      BucketPair.refill cfg.burstCapacity.toNat rate (elapsed nowMs nowMs)
        (cfg.burstCapacity.toNat : Rat) = cfg.burstCapacity.toNat := by
    intro rate
    rw [helapsed]
    exact BucketPair.refill_zero (le_refl _)
  have hone : (1 : Rat) ≤ cfg.burstCapacity.toNat := Nat.one_le_cast.mpr hvalid.1
  rw [consume_eq (Entry.fresh cfg nowMs) (hfull _), if_pos hone,
    redisCheckAndConsume_eq hvalid (reads_empty hvalid.winMs_pos) (hfull _), if_pos hone]
  exact ⟨rfl, rfl⟩

theorem matches_first (hvalid : cfg.Validated)
    (h : BucketPair.Indistinct cfg.burstCapacity.toNat cfg.refillPerMs
      cfg.redisRefillPerMs (cfg.burstCapacity.toNat - 1)
      (cfg.burstCapacity.toNat - 1)) (nowMs : Int) :
    Matches cfg ((Entry.fresh cfg nowMs).consume cfg nowMs).1
      (redisCheckAndConsume cfg nowMs RedisHash.empty).1 := by
  rcases first_call hvalid nowMs with ⟨htb, hredis⟩
  rw [hredis]
  refine ⟨cfg.burstCapacity.toNat - 1, ?_, ?_⟩
  · rw [htb]
  · rw [htb]
    exact h

/-!
## What decisions reveal of the buckets

Decisions show whether a bucket has a token and not how much it holds, so some rates cannot
be told apart by them.
-/

def Decision.gotToken (decision : Decision) : Bool :=
  decision ≠ .burstExceeded

def timesFrom : Int -> List Nat -> List Int
  | _, [] => []
  | lastMs, wait :: rest => (lastMs + wait) :: timesFrom (lastMs + wait) rest

theorem elapsed_add (lastMs : Int) (wait : Nat) :
    elapsed lastMs (lastMs + wait) = wait := by
  unfold elapsed
  rw [add_sub_cancel_left]
  rfl

theorem map_gotToken_some (decisions : List Decision) :
    decisions.map (Option.map Decision.gotToken ∘ some) =
      (decisions.map Decision.gotToken).map some := by
  rw [List.map_map]
  rfl

theorem gotToken_window (admitted : Bool) :
    (if admitted then Decision.allow
      else Decision.sustainedExceeded).gotToken = true := by
  cases admitted with
  | true => rfl
  | false => rfl

theorem entryDecisions_gotToken (entry : Entry) (waits : List Nat) :
    (entryDecisions cfg entry (timesFrom entry.tb.lastCheckMs waits)).map Decision.gotToken =
      BucketPair.outcomes cfg.burstCapacity.toNat cfg.refillPerMs entry.tb.tokens waits := by
  induction waits generalizing entry with
  | nil => rfl
  | cons wait rest ih =>
    have helapsed := elapsed_add entry.tb.lastCheckMs wait
    rw [timesFrom, entryDecisions, List.map_cons, BucketPair.outcomes,
      consume_eq entry rfl, helapsed]
    rcases le_or_gt 1 (BucketPair.refill cfg.burstCapacity.toNat
        cfg.refillPerMs wait entry.tb.tokens) with hone | hone
    · rw [if_pos hone, BucketPair.taken_of_le hone, decide_eq_true hone, gotToken_window]
      exact congrArg _ (ih _)
    · rw [if_neg (not_le.mpr hone), BucketPair.taken_of_lt hone, decide_eq_false (not_le.mpr hone)]
      exact congrArg _ (ih _)

theorem redisDecisions_gotToken (hvalid : cfg.Validated) (tokens : Rat)
    (lastMs : Int) (sw : SlidingWindowState) (waits : List Nat) :
    (redisDecisions cfg (RedisHash.full tokens lastMs sw)
        (timesFrom lastMs waits)).map (Option.map Decision.gotToken) =
      (BucketPair.outcomes cfg.burstCapacity.toNat cfg.redisRefillPerMs tokens waits).map some := by
  induction waits generalizing tokens lastMs sw with
  | nil => rfl
  | cons wait rest ih =>
    have helapsed := elapsed_add lastMs wait
    rw [timesFrom, redisDecisions, List.map_cons, BucketPair.outcomes,
      List.map_cons, redisCheckAndConsume_eq hvalid (reads_full _ _ _) rfl, helapsed]
    rcases le_or_gt 1 (BucketPair.refill cfg.burstCapacity.toNat
        cfg.redisRefillPerMs wait tokens) with hone | hone
    · rw [if_pos hone, BucketPair.taken_of_le hone, decide_eq_true hone,
        Option.map_some, gotToken_window]
      exact congrArg _ (ih _ _ _)
    · rw [if_neg (not_le.mpr hone), BucketPair.taken_of_lt hone, decide_eq_false (not_le.mpr hone)]
      exact congrArg _ (ih _ _ sw)

end Pair

section Agreement

variable {cfg : LimitCfg} {key : Text}

theorem memoryDecisions_first (nowMs : Int) (rest : List Int) :
    memoryDecisions key cfg MemoryStore.empty (nowMs :: rest) =
      ((Entry.fresh cfg nowMs).consume cfg nowMs).2 ::
        entryDecisions cfg ((Entry.fresh cfg nowMs).consume cfg nowMs).1
          rest := by
  rw [memoryDecisions, memoryDecisions_of_lookup
      (MemoryStore.lookup_checkAndConsume_self key cfg nowMs MemoryStore.empty)]
  rfl

theorem redisRefillPerMs_nonneg (hvalid : cfg.Validated) :
    0 ≤ cfg.redisRefillPerMs := by
  have hthousand : (0 : Rat) ≤ cfg.burstRefillPerS * 1000 := mul_nonneg hvalid.2.1 (by norm_num)
  have hround : 0 ≤ roundAway (cfg.burstRefillPerS * 1000) := by
    unfold roundAway
    rw [if_pos hthousand]
    exact Int.floor_nonneg.mpr (add_nonneg hthousand (by norm_num))
  have he3 : 0 ≤ cfg.refillE3 := by
    unfold LimitCfg.refillE3
    lia
  exact div_nonneg (div_nonneg (Int.cast_nonneg he3) (by norm_num)) (by norm_num)

/-- On every sequence of calls the script decides as the store in memory does,
exactly when the rounded refill is the refill, or both refill all but less than
one token in a millisecond and make up for it after the same number of them. -/
theorem redisDecisions_eq_iff (hvalid : cfg.Validated) :
    (forall times, redisDecisions cfg RedisHash.empty times =
        (memoryDecisions key cfg MemoryStore.empty times).map some) <->
      cfg.refillPerMs = cfg.redisRefillPerMs ∨
        BucketPair.SameExcess cfg.burstCapacity.toNat cfg.refillPerMs
          cfg.redisRefillPerMs := by
  have hcapacity : 1 ≤ cfg.burstCapacity.toNat := hvalid.1
  have hone : (1 : Rat) ≤ cfg.burstCapacity.toNat := Nat.one_le_cast.mpr hcapacity
  have hrate := hvalid.refillPerMs_nonneg
  have hrate' := redisRefillPerMs_nonneg hvalid
  rw [← BucketPair.indistinct_iff hcapacity hrate hrate']
  constructor
  · intro hagree
    refine BucketPair.indistinct_full hcapacity hrate hrate' ?_
    intro waits
    rcases first_call hvalid 0 with ⟨htb, hredis⟩
    have hall := hagree (0 :: timesFrom 0 waits)
    rw [memoryDecisions_first, redisDecisions, List.map_cons, hredis] at hall
    injection hall with _ hrest
    have hflags := congrArg (List.map (Option.map Decision.gotToken)) hrest
    have hentry := @entryDecisions_gotToken cfg ((Entry.fresh cfg 0).consume cfg 0).1 waits
    rw [htb] at hentry
    rw [redisDecisions_gotToken hvalid, List.map_map, map_gotToken_some, hentry] at hflags
    exact (List.map_injective_iff.mpr (Option.some_injective Bool) hflags).symm
  · intro hindistinct times
    have hfirst := (hindistinct.tested 0).2
    rw [BucketPair.refill_zero (le_refl _), BucketPair.refill_zero (le_refl _),
      BucketPair.taken_of_le hone] at hfirst
    cases times with
    | nil => rfl
    | cons nowMs rest =>
      have hmatch := matches_first hvalid hfirst nowMs
      rw [memoryDecisions_first, redisDecisions, List.map_cons,
        decisions_of_matches hvalid hmatch, (first_call hvalid nowMs).2]

theorem oneToken_half_agrees :
    redisDecisions (oneToken (1 / 2)) RedisHash.empty [0, 1000, 2000] =
      (memoryDecisions "k".toList (oneToken (1 / 2)) MemoryStore.empty
        [0, 1000, 2000]).map some := by
  have hvalid : (oneToken (1 / 2)).Validated := by decide +kernel
  have hsame : (oneToken (1 / 2)).refillPerMs = (oneToken (1 / 2)).redisRefillPerMs := by
    decide +kernel
  exact (redisDecisions_eq_iff hvalid).mpr (Or.inl hsame) [0, 1000, 2000]

/-- A refill of four tokens in ten thousand seconds is rounded to none. -/
theorem oneToken_slow_disagrees :
    (oneToken (4 / 10000)).Validated ∧
      redisDecisions (oneToken (4 / 10000)) RedisHash.empty [0, 2500000] =
        [some .allow, some .burstExceeded] ∧
      memoryDecisions "k".toList (oneToken (4 / 10000)) MemoryStore.empty
        [0, 2500000] = [.allow, .allow] := by
  refine ⟨by decide +kernel, by decide +kernel, by decide +kernel⟩

end Agreement

end RateLimit
end PrxWaf
