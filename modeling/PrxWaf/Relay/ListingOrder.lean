import PrxWaf.Relay.Identity

/-!
# The order of the providers

The providers that classify an address look at the derived one only if a provider
that needs the chain has run before them.  Listed earlier, they judge the peer.
-/

namespace PrxWaf
namespace Relay

open Lib Net Http

namespace Signal

def isClassification : Signal -> Bool
  | asnDatacenter _ _ => true
  | asnResidential => true
  | asnUnknown => true
  | torExit => true
  | _ => false

end Signal

namespace SignalProvider

def inspect (d : Derived) : SignalProvider -> List Signal
  | .xffValidator _ _ =>
    (if d.parsed.tooLongBytes || d.parsed.tooLongCount then
        [Signal.xffTooLong] else []) ++
      (if d.parsed.malformed then [Signal.xffMalformed] else []) ++
      (if d.spoofPrivateMidChain then [Signal.xffSpoofPrivate] else [])
  | .proxyChain _ _ maxDepth =>
    if maxDepth < d.effectiveDepth then
      [Signal.excessiveHopDepth d.effectiveDepth] else []
  | .asnClassifier _ _ => []
  | .torExit _ => []

def judge (ip : IpAddr) : SignalProvider -> List Signal
  | .xffValidator _ _ => []
  | .proxyChain _ _ _ => []
  | .asnClassifier db dc => [classify db dc ip]
  | .torExit set => if set ip then [Signal.torExit] else []

def signalsFor (d : Derived) (ip : IpAddr) (p : SignalProvider) : List Signal :=
  p.inspect d ++ p.judge ip

theorem length_judge_le (ip : IpAddr) (p : SignalProvider) :
    (p.judge ip).length ≤ 1 := by
  cases p with
  | xffValidator headers trusted => exact Nat.zero_le 1
  | proxyChain headers trusted maxDepth => exact Nat.zero_le 1
  | asnClassifier db dc => exact Nat.le_refl 1
  | torExit set =>
    simp only [judge]
    split
    · exact Nat.le_refl 1
    · exact Nat.zero_le 1

theorem judge_of_chainSource {p : SignalProvider}
    (h : p.chainSource?.isSome = true) (ip : IpAddr) : p.judge ip = [] := by
  cases p with
  | xffValidator headers trusted => rfl
  | proxyChain headers trusted maxDepth => rfl
  | asnClassifier db dc => cases h
  | torExit set => cases h

theorem isClassification_classify (db : IpAddr -> Option AsnRecord)
    (dc : DatacenterSet) (ip : IpAddr) :
    (classify db dc ip).isClassification = true := by
  unfold classify
  split
  · rfl
  · split
    · rfl
    · split
      · rfl
      · rfl

theorem filter_signalsFor (d : Derived) (ip : IpAddr) (p : SignalProvider) :
    (p.signalsFor d ip).filter Signal.isClassification = p.judge ip := by
  unfold signalsFor
  cases p with
  | xffValidator headers trusted =>
    simp only [inspect, judge, List.append_nil, List.filter_append]
    split <;> split <;> split <;> rfl
  | proxyChain headers trusted maxDepth =>
    simp only [inspect, judge, List.append_nil]
    split
    · rfl
    · rfl
  | asnClassifier db dc =>
    simp only [inspect, judge, List.nil_append]
    exact List.filter_cons_of_pos (isClassification_classify db dc ip)
  | torExit set =>
    simp only [inspect, judge, List.nil_append]
    split
    · rfl
    · rfl

variable {ctx : RelayCtx}

theorem evaluate_of_derived {d : Derived} (h : ctx.derived = some d) (p : SignalProvider) :
    p.evaluate ctx = (p.signalsFor d d.realIp, ctx) := by
  unfold evaluate signalsFor
  cases p with
  | xffValidator headers trusted =>
    simp only [RelayCtx.populateDerived, h, inspect, judge, List.append_nil]
  | proxyChain headers trusted maxDepth =>
    simp only [RelayCtx.populateDerived, h, inspect, judge, List.append_nil]
  | asnClassifier db dc =>
    simp only [RelayCtx.effectiveIp, h, inspect, judge, List.nil_append]
  | torExit set =>
    simp only [RelayCtx.effectiveIp, h, inspect, judge, List.nil_append]

theorem evaluate_of_chainSource_none (h : ctx.derived = none)
    {p : SignalProvider} (hsource : p.chainSource? = none) (d : Derived) :
    p.evaluate ctx = (p.signalsFor d ctx.peerIp, ctx) := by
  unfold evaluate signalsFor
  cases p with
  | xffValidator headers trusted => cases hsource
  | proxyChain headers trusted maxDepth => cases hsource
  | asnClassifier db dc =>
    simp only [RelayCtx.effectiveIp, h, inspect, judge, List.nil_append]
  | torExit set =>
    simp only [RelayCtx.effectiveIp, h, inspect, judge, List.nil_append]

theorem evaluate_of_chainSource_some (h : ctx.derived = none)
    {p : SignalProvider} {names : List HeaderName} {trusted : List IpNet}
    (hsource : p.chainSource? = some (names, trusted)) (ip : IpAddr) :
    p.evaluate ctx = (p.signalsFor (ctx.derive names trusted) ip,
      { ctx with derived := some (ctx.derive names trusted) }) := by
  unfold evaluate signalsFor
  cases p with
  | xffValidator headers trusted' =>
    cases hsource
    simp only [RelayCtx.populateDerived, h, inspect, judge, List.append_nil]
  | proxyChain headers trusted' maxDepth =>
    cases hsource
    simp only [RelayCtx.populateDerived, h, inspect, judge, List.append_nil]
  | asnClassifier db dc => cases hsource
  | torExit set => cases hsource

end SignalProvider

section Dispatch

variable {registry : ProviderRegistry}

theorem dispatch_of_derived {ctx : RelayCtx} {d : Derived}
    (h : ctx.derived = some d) (registry : ProviderRegistry) :
    registry.dispatch ctx = (registry.flatMap (SignalProvider.signalsFor d d.realIp), ctx) := by
  induction registry with
  | nil => rfl
  | cons p rest ih =>
    simp only [ProviderRegistry.dispatch, SignalProvider.evaluate_of_derived h,
      ih, List.flatMap_cons]

/-- The address that each provider judges, if the chain has not been derived. -/
def judged (peerIp realIp : IpAddr) : ProviderRegistry -> List (SignalProvider × IpAddr)
  | [] => []
  | p :: rest =>
    if p.chainSource?.isSome then
      (p :: rest).map (fun q => (q, realIp))
    else (p, peerIp) :: judged peerIp realIp rest

theorem dispatch_signals {names : List HeaderName} {trusted : List IpNet}
    (htakes : TakesChain registry names trusted) {ctx : RelayCtx} (h : ctx.derived = none) :
    (registry.dispatch ctx).1 =
      (judged ctx.peerIp (ctx.derive names trusted).realIp registry).flatMap (fun entry =>
          entry.1.signalsFor (ctx.derive names trusted) entry.2) := by
  induction registry with
  | nil => rfl
  | cons p rest ih =>
    have htakesRest : TakesChain rest names trusted := by
      intro q hq
      exact htakes q (List.mem_cons_of_mem p hq)
    unfold judged
    cases hsource : p.chainSource? with
    | none =>
      rw [if_neg (by simp), List.flatMap_cons, ← ih htakesRest]
      simp only [ProviderRegistry.dispatch,
        SignalProvider.evaluate_of_chainSource_none h hsource (ctx.derive names trusted)]
    | some source =>
      have hsame := htakes p List.mem_cons_self source hsource
      rw [hsame] at hsource
      rw [if_pos Option.isSome_some, List.map_cons, List.flatMap_cons, List.flatMap_map]
      simp only [ProviderRegistry.dispatch,
        SignalProvider.evaluate_of_chainSource_some h hsource (ctx.derive names trusted).realIp]
      rw [dispatch_of_derived rfl]

theorem judged_flatMap {peerIp : IpAddr} {d : Derived}
    (h : forall p, p ∈ registry -> p.judge peerIp = p.judge d.realIp) :
    (judged peerIp d.realIp registry).flatMap (fun entry => entry.1.signalsFor d entry.2) =
      registry.flatMap (SignalProvider.signalsFor d d.realIp) := by
  induction registry with
  | nil => rfl
  | cons p rest ih =>
    unfold judged
    split
    · rw [List.flatMap_map]
    · rw [List.flatMap_cons, List.flatMap_cons, ih (fun q hq => h q (List.mem_cons_of_mem p hq))]
      unfold SignalProvider.signalsFor
      rw [h p List.mem_cons_self]

end Dispatch

/-!
## All orders

A provider that needs no chain judges the peer if it comes first. So some order shows every
difference between the verdicts on the two addresses.
-/

/-- Every order of the enabled providers gives the signals and the address of the
registry, and the classifications are those of the address. -/
def OrderFree (intel : Intel) (cfg : RelayConfig) (registry : ProviderRegistry)
    (peerIp : IpAddr) (headers : HeaderMap) : Prop :=
  forall order, order.Perm cfg.signalsEnabled ->
    exists other,
      ProviderRegistry.fromConfig intel { cfg with signalsEnabled := order } = .ok other ∧
      (RelayDetector.evaluate other peerIp headers).realIp =
        (RelayDetector.evaluate registry peerIp headers).realIp ∧
      (RelayDetector.evaluate other peerIp headers).signals.Perm
        (RelayDetector.evaluate registry peerIp headers).signals ∧
      ((RelayDetector.evaluate other peerIp headers).signals.filter Signal.isClassification).Perm
        (other.flatMap (SignalProvider.judge
          (RelayDetector.evaluate registry peerIp headers).realIp))

section Orders

variable {intel : Intel} {cfg : RelayConfig} {registry : ProviderRegistry}

theorem fromConfig_perm (hbuilt : ProviderRegistry.fromConfig intel cfg = .ok registry)
    {order : List String} (hperm : order.Perm cfg.signalsEnabled) :
    exists other, ProviderRegistry.fromConfig intel { cfg with signalsEnabled := order } =
        .ok other ∧ registry.Perm other :=
  mapM_ok_perm hperm.symm hbuilt

variable {names : List HeaderName} {trusted : List IpNet}

theorem evaluate_eq (htakes : TakesChain registry names trusted)
    (hneeds : exists p, p ∈ registry ∧ p.chainSource?.isSome)
    (peerIp : IpAddr) (headers : HeaderMap) :
    (RelayDetector.evaluate registry peerIp headers).realIp =
        ((RelayCtx.new peerIp headers).derive names trusted).realIp ∧
      (RelayDetector.evaluate registry peerIp headers).signals =
        (judged peerIp ((RelayCtx.new peerIp headers).derive names
          trusted).realIp registry).flatMap (fun entry =>
            entry.1.signalsFor ((RelayCtx.new peerIp headers).derive names trusted) entry.2) := by
  have hstart : Follows (RelayCtx.new peerIp headers) names trusted
      (RelayCtx.new peerIp headers) := ⟨rfl, rfl, Or.inl rfl⟩
  have hderived := (dispatch_follows htakes hstart).right (Or.inr hneeds)
  constructor
  · simp only [RelayDetector.evaluate, RelayCtx.effectiveIp, hderived]
  · exact dispatch_signals htakes rfl

theorem eq_of_perm_short {left right : List Signal} (hperm : left.Perm right)
    (hlength : left.length ≤ 1) : left = right := by
  cases left with
  | nil => exact (List.nil_perm.mp hperm).symm
  | cons x rest =>
    cases rest with
    | nil => exact List.singleton_perm.mp hperm
    | cons y more =>
      simp only [List.length_cons] at hlength
      lia

theorem takesChain_perm {other : ProviderRegistry} (hperm : registry.Perm other)
    (h : TakesChain registry names trusted) :
    TakesChain other names trusted :=
  fun p hp => h p (hperm.mem_iff.mpr hp)

theorem exists_chainSource_perm {other : ProviderRegistry} (hperm : registry.Perm other)
    (h : exists p, p ∈ registry ∧ p.chainSource?.isSome) :
    exists p, p ∈ other ∧ p.chainSource?.isSome := by
  rcases h with ⟨p, hp, hsource⟩
  exact ⟨p, hperm.mem_iff.mp hp, hsource⟩

theorem exists_order (hbuilt : ProviderRegistry.fromConfig intel cfg = .ok registry)
    {p q : SignalProvider} (hp : p ∈ registry) (hpsource : p.chainSource? = none)
    (hq : q ∈ registry) (hqsource : q.chainSource?.isSome = true) :
    exists order others, order.Perm cfg.signalsEnabled ∧
      ProviderRegistry.fromConfig intel { cfg with signalsEnabled := order } =
        .ok (p :: q :: others) := by
  rcases (mapM_ok_mem hbuilt).1 p hp with ⟨c, hc, hbuildp⟩
  rcases (mapM_ok_mem hbuilt).1 q hq with ⟨n, hn, hbuildq⟩
  have hne : c ≠ n := by
    rintro rfl
    rw [hbuildp] at hbuildq
    injection hbuildq with hsame
    rw [← hsame, hpsource] at hqsource
    cases hqsource
  have hlist : (c :: n :: (cfg.signalsEnabled.erase n).erase c).Perm
      cfg.signalsEnabled := by
    refine (List.Perm.swap n c _).trans ?_
    refine ((List.perm_cons_erase ?_).symm.cons n).trans (List.perm_cons_erase hn).symm
    exact (List.mem_erase_of_ne hne).mpr hc
  rcases fromConfig_perm hbuilt hlist with ⟨other, hother, -⟩
  rcases mapM_ok_cons hother with ⟨p', rest, hp', hrest, rfl⟩
  rcases mapM_ok_cons hrest with ⟨q', others, hq', -, rfl⟩
  have hpp : p' = p := Except.ok.inj (hp'.symm.trans hbuildp)
  have hqq : q' = q := Except.ok.inj (hq'.symm.trans hbuildq)
  rw [hpp, hqq] at hother
  exact ⟨_, others, hlist, hother⟩

theorem judge_of_listed_first {p q : SignalProvider} {others : ProviderRegistry}
    (htakes : TakesChain (p :: q :: others) names trusted)
    (hp : p.chainSource? = none) (hq : q.chainSource?.isSome = true)
    {peerIp ip : IpAddr} {headers : HeaderMap}
    (hip : (RelayDetector.evaluate (p :: q :: others) peerIp headers).realIp = ip)
    (hclass : ((RelayDetector.evaluate (p :: q :: others) peerIp
        headers).signals.filter Signal.isClassification).Perm
      ((p :: q :: others).flatMap (SignalProvider.judge ip))) :
    p.judge peerIp = p.judge ip := by
  have hmem : q ∈ p :: q :: others := List.mem_cons_of_mem p List.mem_cons_self
  rcases evaluate_eq htakes ⟨q, hmem, hq⟩ peerIp headers with ⟨hrealIp, hsignals⟩
  rw [hip] at hrealIp
  have hjudged : judged peerIp ip (p :: q :: others) =
      (p, peerIp) :: (q :: others).map (fun r => (r, ip)) := by
    unfold judged
    rw [if_neg (by rw [hp]; exact Bool.false_ne_true)]
    unfold judged
    rw [if_pos hq]
  rw [hsignals, ← hrealIp, List.filter_flatMap] at hclass
  simp only [SignalProvider.filter_signalsFor, hjudged, List.flatMap_cons,
    List.flatMap_map] at hclass
  apply eq_of_perm_short _ (SignalProvider.length_judge_le peerIp p)
  exact (List.perm_append_right_iff _).mp hclass

theorem evaluate_of_judge (htakes : TakesChain registry names trusted)
    (hneeds : exists p, p ∈ registry ∧ p.chainSource?.isSome)
    {peerIp : IpAddr} {headers : HeaderMap} (hsame : forall p, p ∈ registry -> p.judge peerIp =
        p.judge ((RelayCtx.new peerIp headers).derive names trusted).realIp) :
    (RelayDetector.evaluate registry peerIp headers).signals =
      registry.flatMap (SignalProvider.signalsFor
        ((RelayCtx.new peerIp headers).derive names trusted)
        ((RelayCtx.new peerIp headers).derive names trusted).realIp) := by
  rw [(evaluate_eq htakes hneeds peerIp headers).right]
  exact judged_flatMap hsame

/-- The detector's report does not depend on the order of the providers exactly if
every provider says of the peer what it says of the address that the configured
headers and trusted networks give. -/
theorem evaluate_orderFree_iff (hbuilt : ProviderRegistry.fromConfig intel cfg = .ok registry)
    (hderives : cfg.DerivesChain)
    (hnames : ProviderRegistry.headerNames cfg.forwardedFor = .ok names)
    (peerIp : IpAddr) (headers : HeaderMap) :
    OrderFree intel cfg registry peerIp headers <-> forall p, p ∈ registry -> p.judge peerIp =
      p.judge ((RelayCtx.new peerIp headers).derive names cfg.trustedProxies).realIp := by
  rcases fromConfig_takesChain hbuilt hderives with ⟨names', hnames', htakes, hneeds⟩
  cases hnames.symm.trans hnames'
  have hrealIp := (evaluate_eq htakes hneeds peerIp headers).left
  constructor
  · intro hfree p hp
    cases hsource : p.chainSource? with
    | some source =>
      have hsome : p.chainSource?.isSome = true := by rw [hsource]; rfl
      rw [SignalProvider.judge_of_chainSource hsome, SignalProvider.judge_of_chainSource hsome]
    | none =>
      rcases hneeds with ⟨q, hq, hqsource⟩
      rcases exists_order hbuilt hp hsource hq hqsource with ⟨order, others, hperm, hfrom⟩
      rcases fromConfig_perm hbuilt hperm with ⟨built, hbuilt', hsame⟩
      cases hfrom.symm.trans hbuilt'
      rcases hfree order hperm with ⟨other, hother, hip, -, hclass⟩
      cases hfrom.symm.trans hother
      rw [hrealIp] at hip hclass
      exact judge_of_listed_first (takesChain_perm hsame htakes) hsource hqsource hip hclass
  · intro hsame order hperm
    rcases fromConfig_perm hbuilt hperm with ⟨other, hfrom, hregistry⟩
    have htakes' := takesChain_perm hregistry htakes
    have hneeds' := exists_chainSource_perm hregistry hneeds
    have hsignals := evaluate_of_judge htakes hneeds hsame
    have hsignals' := evaluate_of_judge htakes' hneeds'
      (fun p hp => hsame p (hregistry.mem_iff.mpr hp))
    have hrealIp' := (evaluate_eq htakes' hneeds' peerIp headers).left
    refine ⟨other, hfrom, hrealIp'.trans hrealIp.symm, ?_, ?_⟩
    · rw [hsignals, hsignals']
      exact (hregistry.flatMap_right _).symm
    · rw [hsignals', hrealIp, List.filter_flatMap]
      simp only [SignalProvider.filter_signalsFor]
      exact List.Perm.refl _

end Orders

def oneExit : Intel :=
  { Intel.unavailable with
    torSet := fun _ => .ok (fun ip => ip == .v4 (Ipv4Addr.new 1 2 3 4)) }

def withSignals (signals : List String) : RelayConfig where
  torListPath := some "tor.txt"
  signalsEnabled := signals

/-- Without a header the derived address is the peer's, and the order does not
matter. -/
theorem orderFree_without_header :
    exists registry, ProviderRegistry.fromConfig oneExit
        (withSignals ["tor_exit", "xff_validator"]) = .ok registry ∧
      OrderFree oneExit (withSignals ["tor_exit", "xff_validator"]) registry
        (.v4 (Ipv4Addr.new 203 0 113 9)) [] := by
  refine ⟨_, rfl, ?_⟩
  refine (evaluate_orderFree_iff rfl (Or.inl (by decide)) headerNames_default _ _).mpr ?_
  intro p _
  exact congrArg p.judge (by decide)

/-- A client behind the exit: listed before the validator, the classifier judges the
peer and finds nothing. -/
theorem tor_exit_listed_first :
    exists first second, ProviderRegistry.fromConfig oneExit
        (withSignals ["tor_exit", "xff_validator"]) = .ok first ∧
      ProviderRegistry.fromConfig oneExit (withSignals ["xff_validator", "tor_exit"]) = .ok second ∧
      (RelayDetector.evaluate first (.v4 (Ipv4Addr.new 203 0 113 9))
        [(xForwardedFor, line "1.2.3.4")]).realIp = .v4 (Ipv4Addr.new 1 2 3 4) ∧
      (RelayDetector.evaluate first (.v4 (Ipv4Addr.new 203 0 113 9))
        [(xForwardedFor, line "1.2.3.4")]).signals = [] ∧
      (RelayDetector.evaluate second (.v4 (Ipv4Addr.new 203 0 113 9))
        [(xForwardedFor, line "1.2.3.4")]).signals = [.torExit] := by
  refine ⟨_, _, rfl, rfl, ?_⟩
  decide

end Relay
end PrxWaf
