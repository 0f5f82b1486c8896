import PrxWaf.Engine.Context
import PrxWaf.RateLimit.MemoryStore

/-!
# The rate-limit check

For each request the check charges a key for the client's address and, with a
session cookie, a key for the session.
-/

namespace PrxWaf
namespace RateLimit

open Lib Net Engine

inductive KeyKind where
  | ip (host : Text) (addr : IpAddr)
  | session (host sid : Text)

def KeyKind.render : KeyKind -> Text
  | .ip host addr => "ip:".toList ++ host ++ ":".toList ++ addr.display
  | .session host sid => "sess:".toList ++ host ++ ":".toList ++ sid

theorem render_ip_ne_session (host other sid : Text) (addr : IpAddr) :
    (KeyKind.ip host addr).render ≠ (KeyKind.session other sid).render := by
  intro h
  injection h with hfirst
  cases hfirst

/-- A store charges a key, or fails. -/
class RateLimitStore (store : Type) where
  checkAndConsume : Text -> LimitCfg -> Int -> store -> store × Option Decision

instance : RateLimitStore MemoryStore where
  checkAndConsume := fun key cfg nowMs map =>
    let result := map.checkAndConsume key cfg nowMs
    (result.1, some result.2)

def block (ruleId scope : String) (decision : Decision) : DetectionResult :=
  { ruleId := some ruleId.toList
    ruleName := "Rate Limit".toList
    phase := .rateLimit
    detail := scope.toList ++
      match decision with
      | .burstExceeded => " burst limit exceeded".toList
      | .sustainedExceeded => " sustained window limit exceeded".toList
      | .allow => " allowed".toList }

def handleStoreErr (ctx : InspectCtx) : Option DetectionResult :=
  match ctx.failMode with
  | .failClose =>
    some {
      ruleId := some "RL-ERR".toList
      ruleName := "Rate Limit (store error)".toList
      phase := .rateLimit
      detail := "rate-limit store error; tier fail_mode=close".toList }
  | .failOpen => none

def verdict (ctx : InspectCtx) (ruleId scope : String) : Option Decision -> Option DetectionResult
  | none => handleStoreErr ctx
  | some .allow => none
  | some decision => some (block ruleId scope decision)

def ipKey (ctx : InspectCtx) : Text :=
  (KeyKind.ip ctx.hostConfig.code ctx.clientIp).render

def sessionKey (ctx : InspectCtx) (session : Text) : Text :=
  (KeyKind.session ctx.hostConfig.code session).render

section Check

variable {store : Type} [RateLimitStore store]

/-- The key of the address first; the session is charged only when that is
allowed. -/
def check (config : RateLimitConfig) (nowMs : Int) (s : store)
    (ctx : InspectCtx) : store × Option DetectionResult :=
  match config.forTier ctx.tier with
  | none => (s, none)
  | some cfg =>
    let first := RateLimitStore.checkAndConsume (ipKey ctx) cfg nowMs s
    match first.2 with
    | some .allow =>
      match ctx.cookies.lookup config.sessionCookie with
      | none => (first.1, none)
      | some session =>
        let second := RateLimitStore.checkAndConsume
          (sessionKey ctx session) cfg nowMs first.1
        (second.1, verdict ctx "RL-SESSION" "per-session" second.2)
    | decision => (first.1, verdict ctx "RL-IP" "per-IP" decision)

/-- What the charges that the check may make for a request keep. -/
def Keeps (P : store -> Prop) (config : RateLimitConfig) (ctx : InspectCtx) (nowMs : Int) : Prop :=
  forall key cfg s, config.forTier ctx.tier = some cfg ->
    (key = ipKey ctx ∨ exists session, key = sessionKey ctx session) ->
    P s -> P (RateLimitStore.checkAndConsume key cfg nowMs s).1

theorem check_keeps {P : store -> Prop} {config : RateLimitConfig}
    {ctx : InspectCtx} {nowMs : Int} (hkeeps : Keeps P config ctx nowMs)
    {s : store} (h : P s) : P (check config nowMs s ctx).1 := by
  unfold check
  cases hcfg : config.forTier ctx.tier with
  | none => exact h
  | some cfg =>
    have hfirst := hkeeps (ipKey ctx) cfg s hcfg (Or.inl rfl) h
    dsimp only
    split
    · split
      · exact hfirst
      · rename_i session _
        exact hkeeps (sessionKey ctx session) cfg _ hcfg (Or.inr ⟨session, rfl⟩) hfirst
    · exact hfirst

end Check

structure Charge where
  key : Text
  cfg : LimitCfg
  nowMs : Int
  decision : Option Decision
  deriving DecidableEq

/-- A store beside the record of all charges, the last one first. -/
structure Recorded (store : Type) where
  inner : store
  charges : List Charge

instance {store : Type} [RateLimitStore store] : RateLimitStore (Recorded store) where
  checkAndConsume := fun key cfg nowMs s =>
    let result := RateLimitStore.checkAndConsume key cfg nowMs s.inner
    ({ inner := result.1
       charges := {
         key := key
         cfg := cfg
         nowMs := nowMs
         decision := result.2 } :: s.charges },
      result.2)

def Recorded.chargesOf {store : Type} (key : Text) (s : Recorded store) : Nat :=
  s.charges.countP (fun charge => charge.key = key)

section Recorded

variable {store : Type} [RateLimitStore store]

variable (config : RateLimitConfig) (nowMs : Int) (s : Recorded store) (ctx : InspectCtx)

theorem chargesOf_checkAndConsume (key charged : Text) (cfg : LimitCfg)
    (nowMs : Int) (s : Recorded store) :
    (RateLimitStore.checkAndConsume charged cfg nowMs s).1.chargesOf key =
      s.chargesOf key + if charged = key then 1 else 0 := by
  refine List.countP_cons.trans ?_
  simp only [decide_eq_true_eq]
  rfl

theorem check_chargesOf :
    (check config nowMs s ctx).1.chargesOf (ipKey ctx) = s.chargesOf (ipKey ctx) +
        if (config.forTier ctx.tier).isSome then 1 else 0 := by
  unfold check
  cases config.forTier ctx.tier with
  | none => rfl
  | some cfg =>
    have hfirst := chargesOf_checkAndConsume (ipKey ctx) (ipKey ctx) cfg nowMs s
    rw [if_pos rfl] at hfirst
    dsimp only
    split
    · split
      · exact hfirst
      · rename_i sid _
        have hother : sessionKey ctx sid ≠ ipKey ctx := Ne.symm (render_ip_ne_session _ _ sid _)
        have hsecond := chargesOf_checkAndConsume (ipKey ctx) (sessionKey ctx sid) cfg nowMs
          (RateLimitStore.checkAndConsume (ipKey ctx) cfg nowMs s).1
        rw [if_neg hother, hfirst] at hsecond
        exact hsecond
    · exact hfirst

def chargedKeys (config : RateLimitConfig) (ctx : InspectCtx) : List Text :=
  match config.forTier ctx.tier with
  | none => []
  | some _ =>
    ipKey ctx :: ((ctx.cookies.lookup config.sessionCookie).map (sessionKey ctx)).toList

theorem check_chargesOf_bounds (key : Text) :
    s.chargesOf key ≤ (check config nowMs s ctx).1.chargesOf key ∧
      (check config nowMs s ctx).1.chargesOf key ≤ s.chargesOf key +
        if key ∈ chargedKeys config ctx then 1 else 0 := by
  unfold check chargedKeys
  cases config.forTier ctx.tier with
  | none => exact ⟨le_refl _, Nat.le_add_right _ _⟩
  | some cfg =>
    have hfirst := chargesOf_checkAndConsume key (ipKey ctx) cfg nowMs s
    have hip : forall others, (if ipKey ctx = key then 1 else 0) ≤
        if key ∈ ipKey ctx :: others then 1 else 0 := by
      intro others
      split
      · rename_i hkey
        rw [if_pos (List.mem_cons.mpr (Or.inl hkey.symm))]
      · exact Nat.zero_le _
    dsimp only
    split
    · split
      · rw [hfirst]
        exact ⟨Nat.le_add_right _ _, Nat.add_le_add_left (hip _) _⟩
      · rename_i sid hcookie
        have hsecond := chargesOf_checkAndConsume key (sessionKey ctx sid) cfg
          nowMs (RateLimitStore.checkAndConsume (ipKey ctx) cfg nowMs s).1
        rw [hcookie, hsecond, hfirst]
        refine ⟨by lia, ?_⟩
        rcases Decidable.em (sessionKey ctx sid = key) with hkey | hkey
        · have hother : ipKey ctx ≠ key := by
            rw [← hkey]
            exact render_ip_ne_session _ _ sid _
          have hmem : key ∈ ipKey ctx :: [sessionKey ctx sid] := by
            rw [hkey]
            exact List.mem_cons_of_mem _ (List.mem_singleton_self key)
          rw [if_neg hother, if_pos hkey]
          exact Nat.add_le_add_left (if_pos hmem).ge _
        · rw [if_neg hkey]
          exact Nat.add_le_add_left (hip _) _
    · rw [hfirst]
      exact ⟨Nat.le_add_right _ _, Nat.add_le_add_left (hip _) _⟩

end Recorded

section Solvent

variable {key : Text} {cfg : LimitCfg} {nowMs : Int}

def MemoryStore.tokensAt (key : Text) (cfg : LimitCfg) (nowMs : Int) (map : MemoryStore) : Rat :=
  ((map.lookup key).getD (Entry.fresh cfg nowMs)).tb.refilled cfg nowMs

/-- As long as a key is charged at one instant and not more often than its
bucket has room, the bucket has paid for the charges. -/
def Solvent (key : Text) (cfg : LimitCfg) (nowMs : Int) (s : Recorded MemoryStore) : Prop :=
  (forall charge, charge ∈ s.charges -> charge.key = key ->
    charge.cfg = cfg ∧ charge.nowMs = nowMs) ->
  s.chargesOf key ≤ cfg.burstCapacity.toNat ->
    cfg.capacity - s.chargesOf key ≤ s.inner.tokensAt key cfg nowMs ∧
      forall charge, charge ∈ s.charges -> charge.key = key -> charge.decision ≠ some .burstExceeded

theorem refilled_le_capacity (tb : TokenBucketState) :
    tb.refilled cfg nowMs ≤ cfg.capacity :=
  min_le_right _ _

theorem refilled_of_lastCheckMs {tb : TokenBucketState}
    (hlast : tb.lastCheckMs = nowMs) (hle : tb.tokens ≤ cfg.capacity) :
    tb.refilled cfg nowMs = tb.tokens := by
  rw [refilled_eq hlast.le, hlast, sub_self, mul_zero, add_zero]
  exact min_eq_right hle

theorem consume_of_token {entry : Entry} (htoken : 1 ≤ entry.tb.refilled cfg nowMs) :
    (entry.consume cfg nowMs).1.tb.refilled cfg nowMs = entry.tb.refilled cfg nowMs - 1 ∧
      (entry.consume cfg nowMs).2 ≠ .burstExceeded := by
  have htaken : entry.tb.tryConsume cfg nowMs =
      ({ tokens := entry.tb.refilled cfg nowMs - 1, lastCheckMs := nowMs }, true) := if_pos htoken
  unfold Entry.consume
  rw [htaken]
  dsimp only
  rw [if_pos rfl]
  refine ⟨refilled_of_lastCheckMs rfl ?_, ?_⟩
  · exact (sub_le_self _ zero_le_one).trans (refilled_le_capacity entry.tb)
  · dsimp only
    split
    · exact Decision.noConfusion
    · exact Decision.noConfusion

theorem solvent_start {map : MemoryStore} (hfull : cfg.capacity ≤ map.tokensAt key cfg nowMs) :
    Solvent key cfg nowMs { inner := map, charges := [] } := by
  intro _ _
  refine ⟨?_, fun _ h => absurd h List.not_mem_nil⟩
  exact (sub_le_self _ (Nat.cast_nonneg _)).trans hfull

variable {s : Recorded MemoryStore}

theorem solvent_charge (h : Solvent key cfg nowMs s) :
    Solvent key cfg nowMs (RateLimitStore.checkAndConsume key cfg nowMs s).1 := by
  intro hsame hroom
  rw [chargesOf_checkAndConsume, if_pos rfl] at hroom ⊢
  rcases h (fun charge hcharge => hsame charge (List.mem_cons_of_mem _ hcharge))
    ((Nat.le_add_right _ _).trans hroom) with ⟨htokens, hnever⟩
  have hrat : ((s.chargesOf key + 1 : Nat) : Rat) ≤ cfg.capacity := Nat.cast_le.mpr hroom
  rw [Nat.cast_add, Nat.cast_one] at hrat ⊢
  have htoken : 1 ≤ s.inner.tokensAt key cfg nowMs := by
    refine le_trans ?_ htokens
    linarith
  rcases consume_of_token htoken with ⟨hleft, hgiven⟩
  constructor
  · have hlookup := s.inner.lookup_checkAndConsume_self key cfg nowMs
    unfold MemoryStore.tokensAt at htokens ⊢
    change _ ≤ (((s.inner.checkAndConsume key cfg nowMs).1.lookup key).getD _).tb.refilled _ _
    rw [hlookup, Option.getD_some, hleft]
    linarith
  · intro charge hcharge hkey
    rcases List.mem_cons.mp hcharge with hlast | hold
    · rw [hlast]
      exact fun hburst => hgiven (Option.some.inj hburst)
    · exact hnever charge hold hkey

theorem solvent_charge_of_ne {other : Text}
    (h : Solvent key cfg nowMs s) (hother : other ≠ key) (otherCfg : LimitCfg) (otherMs : Int) :
    Solvent key cfg nowMs (RateLimitStore.checkAndConsume other otherCfg otherMs s).1 := by
  intro hsame hroom
  rw [chargesOf_checkAndConsume, if_neg hother, Nat.add_zero] at hroom ⊢
  rcases h (fun charge hcharge => hsame charge (List.mem_cons_of_mem _ hcharge))
    hroom with ⟨htokens, hnever⟩
  constructor
  · have hlookup := MemoryStore.lookup_checkAndConsume_of_ne (Ne.symm hother)
      otherCfg otherMs s.inner
    unfold MemoryStore.tokensAt at htokens ⊢
    change _ ≤ (((s.inner.checkAndConsume other otherCfg otherMs).1.lookup
      key).getD _).tb.refilled _ _
    rw [hlookup]
    exact htokens
  · intro charge hcharge hkey
    rcases List.mem_cons.mp hcharge with hlast | hold
    · rw [hlast] at hkey
      exact absurd hkey hother
    · exact hnever charge hold hkey

theorem solvent_checkAndConsume
    (h : Solvent key cfg nowMs s) (charged : Text) (chargedCfg : LimitCfg) (chargedMs : Int) :
    Solvent key cfg nowMs (RateLimitStore.checkAndConsume charged chargedCfg chargedMs s).1 := by
  rcases eq_or_ne charged key with hkey | hkey
  · intro hsame
    -- the charge itself says that its limit and its time are those of the key
    rcases hsame _ List.mem_cons_self hkey with ⟨hcfg, hnow⟩
    dsimp only at hcfg hnow
    subst hkey hcfg hnow
    exact solvent_charge h hsame
  · exact solvent_charge_of_ne h hkey chargedCfg chargedMs

theorem solvent_cleanup (h : Solvent key cfg nowMs s) (cleanedMs : Int) :
    Solvent key cfg nowMs { s with inner := s.inner.cleanup cleanedMs } := by
  intro hsame hroom
  rcases h hsame hroom with ⟨htokens, hnever⟩
  refine ⟨?_, hnever⟩
  unfold MemoryStore.tokensAt at htokens ⊢
  dsimp only
  rcases s.inner.lookup_cleanup cleanedMs key with hkept | hgone
  · rw [hkept]
    exact htokens
  · have hfresh : (Entry.fresh cfg nowMs).tb.refilled cfg nowMs = cfg.capacity :=
      refilled_of_lastCheckMs rfl (le_refl _)
    rw [hgone, Option.getD_none, hfresh]
    exact sub_le_self _ (Nat.cast_nonneg _)

end Solvent

end RateLimit
end PrxWaf
