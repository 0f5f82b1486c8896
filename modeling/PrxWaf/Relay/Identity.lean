import PrxWaf.Relay.Detector

/-!
# Who the client is

The address that the detector reports is the last untrusted entry of the chain,
whoever the peer is.  This module derives that from the providers' shared state
and then settles what a client can do with it.
-/

namespace PrxWaf
namespace Relay

open Lib Net Http

/-!
# The derivation is shared

All providers that need the chain take it from the same headers and networks, so
whichever runs first, the derivation is that of the fresh request.
-/

/-- A context in the course of evaluating the request `start`. -/
structure Follows (start : RelayCtx) (headerNames : List HeaderName)
    (trusted : List IpNet) (ctx : RelayCtx) : Prop where
  peerIp : ctx.peerIp = start.peerIp
  headers : ctx.headers = start.headers
  derived : ctx.derived = none ∨ ctx.derived = some (start.derive headerNames trusted)

variable {headerNames : List HeaderName} {trusted : List IpNet} {registry : ProviderRegistry}
  {intel : Intel} {ip : IpAddr}

variable (s : Text) {start ctx : RelayCtx} {p : SignalProvider} {cfg : RelayConfig} {c : Char}
  {names : List HeaderName}

theorem derive_of_follows (h : Follows start headerNames trusted ctx) :
    ctx.derive headerNames trusted = start.derive headerNames trusted := by
  simp only [RelayCtx.derive, h.peerIp, h.headers]

theorem populateDerived_of_follows (h : Follows start headerNames trusted ctx) :
    Follows start headerNames trusted (ctx.populateDerived headerNames trusted).2 ∧
      (ctx.populateDerived headerNames trusted).2.derived =
        some (start.derive headerNames trusted) := by
  unfold RelayCtx.populateDerived
  rcases h.derived with hnone | hsome
  · simp only [hnone, derive_of_follows h]
    exact ⟨⟨h.peerIp, h.headers, Or.inr rfl⟩, trivial⟩
  · simp only [hsome]
    exact ⟨h, trivial⟩

theorem evaluate_ctx (p : SignalProvider) (ctx : RelayCtx) :
    (p.evaluate ctx).2 =
      match p.chainSource? with
      | none => ctx
      | some (headerNames, trusted) =>
        (ctx.populateDerived headerNames trusted).2 := by
  cases p with
  | xffValidator headers trusted => rfl
  | proxyChain headers trusted maxDepth => rfl
  | asnClassifier db dc => rfl
  | torExit set => rfl

/-- Every provider of the registry that needs a chain takes this one. -/
def TakesChain (registry : ProviderRegistry) (headerNames : List HeaderName)
    (trusted : List IpNet) : Prop :=
  forall p, p ∈ registry -> forall source, p.chainSource? = some source ->
    source = (headerNames, trusted)

theorem dispatch_follows (htakes : TakesChain registry headerNames trusted) {start ctx : RelayCtx}
    (h : Follows start headerNames trusted ctx) :
    Follows start headerNames trusted (registry.dispatch ctx).2 ∧
      ((ctx.derived.isSome ∨ exists p, p ∈ registry ∧ p.chainSource?.isSome) ->
        (registry.dispatch ctx).2.derived = some (start.derive headerNames trusted)) := by
  induction registry generalizing ctx with
  | nil =>
    refine ⟨h, ?_⟩
    intro hneeds
    rcases hneeds with hsome | ⟨p, hp, _⟩
    · rcases h.derived with hnone | hderived
      · rw [hnone] at hsome
        cases hsome
      · exact hderived
    · cases hp
  | cons p rest ih =>
    have htakesRest : TakesChain rest headerNames trusted := by
      intro q hq
      exact htakes q (List.mem_cons_of_mem p hq)
    cases hsource : p.chainSource? with
    | none =>
      have hctx : (p.evaluate ctx).2 = ctx := by
        rw [evaluate_ctx, hsource]
      simp only [ProviderRegistry.dispatch, hctx]
      refine ⟨(ih htakesRest h).left, ?_⟩
      intro hneeds
      apply (ih htakesRest h).right
      rcases hneeds with hsome | ⟨q, hq, hqsource⟩
      · exact Or.inl hsome
      · rcases List.mem_cons.mp hq with heq | hmem
        · rw [heq, hsource] at hqsource
          cases hqsource
        · exact Or.inr ⟨q, hmem, hqsource⟩
    | some source =>
      have hsame := htakes p List.mem_cons_self source hsource
      have hctx : (p.evaluate ctx).2 = (ctx.populateDerived headerNames trusted).2 := by
        rw [evaluate_ctx, hsource, hsame]
      rcases populateDerived_of_follows h with ⟨hfollows, hderived⟩
      rw [← hctx] at hfollows hderived
      simp only [ProviderRegistry.dispatch]
      refine ⟨(ih htakesRest hfollows).left, ?_⟩
      intro _
      apply (ih htakesRest hfollows).right
      apply Or.inl
      rw [hderived]
      rfl

theorem evaluate_realIp (htakes : TakesChain registry headerNames trusted)
    (hneeds : exists p, p ∈ registry ∧ p.chainSource?.isSome)
    (peerIp : IpAddr) (headers : HeaderMap) :
    (RelayDetector.evaluate registry peerIp headers).realIp =
      (lastUntrusted trusted (RelayCtx.chain headers headerNames)).getD
        peerIp := by
  have hstart : Follows (RelayCtx.new peerIp headers) headerNames trusted
      (RelayCtx.new peerIp headers) := ⟨rfl, rfl, Or.inl rfl⟩
  have hderived := (dispatch_follows htakes hstart).right (Or.inr hneeds)
  simp only [RelayDetector.evaluate, RelayCtx.effectiveIp, hderived, RelayCtx.derive]
  exact deriveRealIp_realIp _ _ _

/-! A registry built from a configuration takes the configured chain. -/

theorem buildAsnClassifier_chainSource {cfg : AsnConfig}
    (h : ProviderRegistry.buildAsnClassifier intel cfg = .ok p) :
    p.chainSource? = none := by
  unfold ProviderRegistry.buildAsnClassifier at h
  rcases bind_ok h with ⟨db, _, hdc⟩
  rcases bind_ok hdc with ⟨dc, _, hp⟩
  injection hp with hp
  rw [← hp]
  rfl

theorem buildTorExit_chainSource (intel : Intel) (path : Option String) :
    (ProviderRegistry.buildTorExit intel path).chainSource? = none := by
  unfold ProviderRegistry.buildTorExit
  split
  · rfl
  · rfl

theorem buildProvider_chainSource {name : String}
    (h : ProviderRegistry.buildProvider intel cfg name = .ok p) :
    (p.chainSource? = none ∧ name ≠ "xff_validator" ∧ name ≠ "proxy_chain") ∨
      exists names, ProviderRegistry.headerNames cfg.forwardedFor = .ok names ∧
        p.chainSource? = some (names, cfg.trustedProxies) := by
  unfold ProviderRegistry.buildProvider at h
  split at h
  · rcases map_ok h with ⟨names, hnames, hp⟩
    exact Or.inr ⟨names, hnames, by rw [← hp]; rfl⟩
  · rename_i hxff
    split at h
    · rcases map_ok h with ⟨names, hnames, hp⟩
      exact Or.inr ⟨names, hnames, by rw [← hp]; rfl⟩
    · rename_i hproxy
      apply Or.inl
      split at h
      · exact ⟨buildAsnClassifier_chainSource h, hxff, hproxy⟩
      · split at h
        · injection h with hp
          exact ⟨by rw [← hp, buildTorExit_chainSource], hxff, hproxy⟩
        · cases h

def RelayConfig.DerivesChain (cfg : RelayConfig) : Prop :=
  "xff_validator" ∈ cfg.signalsEnabled ∨ "proxy_chain" ∈ cfg.signalsEnabled

theorem fromConfig_takesChain
    (hbuilt : ProviderRegistry.fromConfig intel cfg = .ok registry) (hderives : cfg.DerivesChain) :
    exists names, ProviderRegistry.headerNames cfg.forwardedFor = .ok names ∧
      TakesChain registry names cfg.trustedProxies ∧
      exists p, p ∈ registry ∧ p.chainSource?.isSome := by
  rcases mapM_ok_mem hbuilt with ⟨hfrom, hto⟩
  have hneeds : exists names p, ProviderRegistry.headerNames cfg.forwardedFor = .ok names ∧
        p ∈ registry ∧ p.chainSource? = some (names, cfg.trustedProxies) := by
    rcases hderives with hxff | hproxy
    · rcases hto _ hxff with ⟨p, hp, hbuild⟩
      rcases buildProvider_chainSource hbuild with ⟨_, hne, _⟩ | ⟨names, hnames, hsource⟩
      · exact absurd rfl hne
      · exact ⟨names, p, hnames, hp, hsource⟩
    · rcases hto _ hproxy with ⟨p, hp, hbuild⟩
      rcases buildProvider_chainSource hbuild with ⟨_, _, hne⟩ | ⟨names, hnames, hsource⟩
      · exact absurd rfl hne
      · exact ⟨names, p, hnames, hp, hsource⟩
  rcases hneeds with ⟨names, p, hnames, hp, hsource⟩
  refine ⟨names, hnames, ?_, p, hp, by rw [hsource]; rfl⟩
  intro q hq source hqsource
  rcases hfrom q hq with ⟨name, _, hbuild⟩
  rcases buildProvider_chainSource hbuild with ⟨hnone, _⟩ | ⟨names', hnames', hsource'⟩
  · rw [hnone] at hqsource
    cases hqsource
  · rw [hnames] at hnames'
    injection hnames' with heq
    rw [hsource', ← heq] at hqsource
    injection hqsource with hqsource
    exact hqsource.symm

/-!
# A chain of the client's choice

A single header line with the text of an address makes that address the whole
chain, unless the line is read too often.
-/

theorem toText_range (hc : c ∈ ip.toText) :
    46 ≤ c.toNat ∧ c.toNat ≤ 122 := by
  rcases IpAddr.mem_toText hc with hdigit | hdot | hcolon
  · have hrange := digitValue_range hdigit
    lia
  · rw [hdot]
    decide
  · rw [hcolon]
    decide

theorem isVisible_toText (ip : IpAddr) : IsVisible ip.toText := by
  intro c hc
  have hrange := toText_range hc
  lia

theorem isWhitespace_toText (hc : c ∈ ip.toText) :
    Text.isWhitespace c = false := by
  have hrange := toText_range hc
  exact Text.isWhitespace_of_range (by lia) (by lia)

theorem parseToken_toText (ip : IpAddr) : parseToken ip.toText = some ip := by
  have htrim : Text.trim ip.toText = ip.toText :=
    Text.trim_eq_self (fun c hc => isWhitespace_toText hc)
  have hquote : Text.trimMatches (fun c => c == '"') ip.toText = ip.toText := by
    apply Text.trimMatches_eq_self
    intro c hc
    have hrange := toText_range hc
    rw [beq_eq_false_iff_ne]
    intro heq
    rw [heq] at hrange
    exact absurd hrange (by decide)
  have hzone : stripZone ip.toText = ip.toText := Text.beforeFirst_eq_self
      (IpAddr.not_mem_toText ip (by decide) (by decide) (by decide))
  have hbracket : '[' ∉ ip.toText := IpAddr.not_mem_toText ip (by decide) (by decide) (by decide)
  simp only [parseToken, htrim, hquote]
  split
  · rename_i rest hrest
    rw [hrest] at hbracket
    exact absurd List.mem_cons_self hbracket
  · rw [if_neg (IpAddr.count_colon_toText ip), hzone]
    exact IpAddr.fromStr_toText ip

theorem toText_ne_nil (ip : IpAddr) : ip.toText ≠ [] := by
  intro hnil
  have hparse := parseToken_toText ip
  rw [hnil] at hparse
  cases hparse

theorem tokens_toText (ip : IpAddr) : tokens ip.toText = [ip.toText] := by
  have hcomma : ',' ∉ ip.toText := IpAddr.not_mem_toText ip (by decide) (by decide) (by decide)
  have htrim : Text.trim ip.toText = ip.toText :=
    Text.trim_eq_self (fun c hc => isWhitespace_toText hc)
  rw [tokens, List.splitOn_eq_singleton hcomma, List.map_singleton, htrim]
  simp [toText_ne_nil ip]

def claimAddress (name : HeaderName) (ip : IpAddr) : HeaderMap :=
  [(name, HeaderValue.ofText ip.toText (isVisible_toText ip))]

theorem flatMap_getAll_singleton (name : HeaderName) (v : HeaderValue) (names : List HeaderName) :
    names.flatMap (HeaderMap.getAll [(name, v)]) = List.replicate (names.count name) v := by
  induction names with
  | nil => rfl
  | cons other rest ih =>
    rw [List.flatMap_cons, ih]
    cases hsame : decide (other = name) with
    | true =>
      have heq := of_decide_eq_true hsame
      rw [heq, HeaderMap.getAll_singleton_self, List.count_cons_self,
        List.replicate_succ, List.singleton_append]
    | false =>
      have hne := of_decide_eq_false hsame
      rw [HeaderMap.getAll_singleton_of_ne hne, List.count_cons_of_ne hne, List.nil_append]

theorem chain_claimAddress {name : HeaderName}
    (hcount : names.count name ≤ maxChainEntries) (ip : IpAddr) :
    RelayCtx.chain (claimAddress name ip) names = List.replicate (names.count name) ip := by
  have hstr := HeaderValue.toStr_ofText ip.toText (isVisible_toText ip)
  have hlen := HeaderValue.toStr_length hstr
  have hlines := flatMap_getAll_singleton name
    (HeaderValue.ofText ip.toText (isVisible_toText ip)) names
  have htokens := lineTokens_of_toStr hstr
  rw [tokens_toText] at htokens
  have hraw : (names.flatMap (claimAddress name ip).getAll).flatMap lineTokens =
      List.replicate (names.count name) ip.toText := by
    rw [claimAddress, hlines]
    simp [List.flatMap_replicate, htokens]
  have hjoin : Joinable (names.flatMap (claimAddress name ip).getAll) 0 := by
    rw [claimAddress, hlines]
    constructor
    · intro v hv
      rw [List.eq_of_mem_replicate hv, hstr]
      rfl
    · rw [List.map_replicate, List.sum_replicate_nat, ← hlen]
      have hshort := ip.toText_length_le
      have hcap := Nat.mul_le_mul hcount hshort
      have hsmall : maxChainEntries * 39 ≤ maxHeaderBytes := by decide
      lia
  have hparsed : forall t, t ∈ List.replicate (names.count name) ip.toText ->
        (parseToken t).isSome := by
    intro t ht
    rw [List.eq_of_mem_replicate ht, parseToken_toText]
    rfl
  rw [RelayCtx.chain, parseXffChain_of_joinable hjoin, hraw,
    parseTokens_of_parsed (by rw [List.length_replicate]; exact hcount) hparsed]
  simp [ParsedChain.hasError, parseToken_toText]

/-!
# What the client can choose

The detector never looks at whether the peer is trusted.  A header line that is
read at most `maxChainEntries` times is enough to put any untrusted address in
the place of the peer.
-/

theorem flatMap_length_ge {f : HeaderName -> List Text} (name : HeaderName)
    (names : List HeaderName) :
    names.count name * (f name).length ≤ (names.flatMap f).length := by
  induction names with
  | nil => simp
  | cons other rest ih =>
    rw [List.flatMap_cons, List.length_append, List.count_cons]
    split
    · rename_i hsame
      rw [eq_of_beq hsame, Nat.add_mul, Nat.one_mul]
      lia
    · lia

theorem chain_of_repeated_names (hrepeated : forall name, name ∈ names ->
      maxChainEntries < names.count name) (headers : HeaderMap) :
    RelayCtx.chain headers names = [] := by
  simp only [RelayCtx.chain]
  split
  · rfl
  · rename_i hnot
    rw [Bool.not_eq_true] at hnot
    rcases parseXffChain_of_no_error hnot with ⟨_, hcount, hentries⟩
    rw [List.flatMap_assoc] at hcount
    rw [hentries, List.flatMap_assoc, List.flatMap_eq_nil_iff]
    intro name hname
    have hmany := flatMap_length_ge name names (f := fun n => (headers.getAll n).flatMap lineTokens)
    have hfew := hrepeated name hname
    have hnone : ((headers.getAll name).flatMap lineTokens).length = 0 := by
      cases hlength : ((headers.getAll name).flatMap lineTokens).length with
      | zero => rfl
      | succ k =>
        rw [hlength, Nat.mul_succ] at hmany
        lia
    rw [List.length_eq_zero_iff, List.flatMap_eq_nil_iff] at hnone
    rw [List.flatMap_eq_nil_iff]
    intro v hv
    rw [lineAddresses, hnone v hv]
    rfl

theorem lastUntrusted_mem {chain : List IpAddr} (h : lastUntrusted trusted chain = some ip) :
    isTrusted trusted ip = false := by
  have hfound := List.find?_some h
  simpa using hfound

theorem lastUntrusted_replicate (h : isTrusted trusted ip = false) {k : Nat} (hk : 0 < k) :
    lastUntrusted trusted (List.replicate k ip) = some ip := by
  cases k with
  | zero => cases hk
  | succ k =>
    rw [lastUntrusted, List.reverse_replicate, List.replicate_succ, List.find?_cons_of_pos]
    simp [h]

theorem realIp_is_peer_iff {intel : Intel} {cfg : RelayConfig}
    {registry : ProviderRegistry} {names : List HeaderName}
    (hbuilt : ProviderRegistry.fromConfig intel cfg = .ok registry)
    (henabled : "xff_validator" ∈ cfg.signalsEnabled)
    (hnames : ProviderRegistry.headerNames cfg.forwardedFor = .ok names) (peerIp : IpAddr) :
    (forall h1 h2, (RelayDetector.evaluate registry peerIp h1).realIp =
          (RelayDetector.evaluate registry peerIp h2).realIp ∧
        (RelayDetector.evaluate registry peerIp h2).realIp = peerIp) <->
      ((forall name, name ∈ names -> maxChainEntries < names.count name) ∨
        forall ip, ip ≠ peerIp -> isTrusted cfg.trustedProxies ip = true) := by
  rcases fromConfig_takesChain hbuilt (Or.inl henabled) with ⟨names', hnames', htakes, hneeds⟩
  rw [hnames] at hnames'
  injection hnames' with hsame
  rw [← hsame] at htakes
  have hrealIp := evaluate_realIp htakes hneeds peerIp
  constructor
  · intro hpeer
    apply Classical.byContradiction
    intro hnot
    rw [not_or] at hnot
    rcases Classical.not_forall.mp hnot.left with ⟨name, hname⟩
    rcases Classical.not_imp.mp hname with ⟨hmem, hfew⟩
    rcases Classical.not_forall.mp hnot.right with ⟨ip, hip⟩
    rcases Classical.not_imp.mp hip with ⟨hne, huntrusted⟩
    rw [Bool.not_eq_true] at huntrusted
    have hclaim := (hpeer [] (claimAddress name ip)).right
    rw [hrealIp, chain_claimAddress (Nat.not_lt.mp hfew),
      lastUntrusted_replicate huntrusted (List.count_pos_iff.mpr hmem)] at hclaim
    exact hne hclaim
  · intro hcondition
    have hfixed : forall headers,
        (RelayDetector.evaluate registry peerIp headers).realIp = peerIp := by
      intro headers
      rw [hrealIp]
      rcases hcondition with hrepeated | htrusted
      · rw [chain_of_repeated_names hrepeated]
        rfl
      · cases hlast : lastUntrusted cfg.trustedProxies (RelayCtx.chain headers names) with
        | none => rfl
        | some ip =>
          apply Classical.byContradiction
          intro hne
          have huntrusted := lastUntrusted_mem hlast
          rw [htrusted ip hne] at huntrusted
          cases huntrusted
    intro h1 h2
    rw [hfixed h1, hfixed h2]
    exact ⟨rfl, rfl⟩

def Intel.unavailable : Intel where
  iptoasn := Except.error
  ipinfoLite := Except.error
  datacenterSet := fun _ => Except.error "unavailable"
  torSet := Except.error

/-- Without a configured header the address is the peer's. -/
theorem realIp_is_peer_iff_no_header :
    exists registry, ProviderRegistry.fromConfig Intel.unavailable
        { forwardedFor := [], signalsEnabled := ["xff_validator"] } = .ok registry ∧ forall h1 h2,
        (RelayDetector.evaluate registry (.v4 (Ipv4Addr.new 203 0 113 9)) h1).realIp =
          (RelayDetector.evaluate registry (.v4 (Ipv4Addr.new 203 0 113 9)) h2).realIp ∧
        (RelayDetector.evaluate registry (.v4 (Ipv4Addr.new 203 0 113 9))
            h2).realIp = .v4 (Ipv4Addr.new 203 0 113 9) := by
  have hbuilt : ProviderRegistry.fromConfig Intel.unavailable
      { forwardedFor := [], signalsEnabled := ["xff_validator"] } = .ok [.xffValidator [] []] := rfl
  have hnames : ProviderRegistry.headerNames [] = .ok [] := rfl
  refine ⟨_, hbuilt, ?_⟩
  refine (realIp_is_peer_iff hbuilt (List.mem_singleton.mpr rfl) hnames _).mpr (Or.inl ?_)
  intro name hname
  cases hname

def xForwardedFor : HeaderName :=
  headerName "x-forwarded-for"

def xRealIp : HeaderName :=
  headerName "x-real-ip"

def privateTen : IpNet :=
  .v4 { addr := 10 * 2 ^ 24, addr_lt := by decide, prefixLen := 8, prefixLen_le := by decide }

theorem headerNames_default :
    ProviderRegistry.headerNames ["X-Forwarded-For".toList, "X-Real-IP".toList] =
        .ok [xForwardedFor, xRealIp] := by
  rfl

theorem fromConfig_privateTen :
    ProviderRegistry.fromConfig Intel.unavailable
      { trustedProxies := [privateTen],
        signalsEnabled := ["xff_validator"] } =
      .ok [.xffValidator [xForwardedFor, xRealIp] [privateTen]] := by
  rw [ProviderRegistry.fromConfig, List.mapM_cons, List.mapM_nil,
    ProviderRegistry.buildProvider, if_pos rfl, headerNames_default]
  rfl

/--
A direct client at 203.0.113.9, which is no trusted proxy, becomes 1.2.3.4 by
sending one header line.
-/
theorem untrusted_peer_chooses_address :
    exists registry,
      ProviderRegistry.fromConfig Intel.unavailable
        { trustedProxies := [privateTen],
          signalsEnabled := ["xff_validator"] } = .ok registry ∧
      isTrusted [privateTen] (.v4 (Ipv4Addr.new 203 0 113 9)) = false ∧
      (RelayDetector.evaluate registry (.v4 (Ipv4Addr.new 203 0 113 9))
        []).realIp = .v4 (Ipv4Addr.new 203 0 113 9) ∧
      (RelayDetector.evaluate registry (.v4 (Ipv4Addr.new 203 0 113 9))
        (claimAddress xForwardedFor (.v4 (Ipv4Addr.new 1 2 3 4)))).realIp =
          .v4 (Ipv4Addr.new 1 2 3 4) := by
  refine ⟨_, fromConfig_privateTen, ?_⟩
  decide

/-!
# What a trusted proxy appends

With the default header list the entries of `X-Real-IP` stand after those of
`X-Forwarded-For`, so an untrusted address there comes after the entry that the
proxy appended.
-/

/--
`forwarded` are the lines `client` with `entry` appended, as a line of its own
or on the last line, after a comma and any number of blanks.
-/
def AppendsEntry (client forwarded : List HeaderValue) (entry : HeaderValue) : Prop :=
  forwarded = client ++ [entry] ∨
    exists front last line blanks, client = front ++ [last] ∧
      forwarded = front ++ [line] ∧
      line.bytes = last.bytes ++ 44 :: (List.replicate blanks 32 ++ entry.bytes)

theorem trim_blank : Text.trim (' ' :: s) = Text.trim s := by
  simp only [Text.trim, Text.trimMatches]
  rw [List.dropWhile_cons_of_pos (by decide)]

theorem tokens_blank : tokens (' ' :: s) = tokens s := by
  simp only [tokens]
  rw [List.splitOn_cons_eq_if_modifyHead, if_neg (by decide)]
  cases s.splitOn ',' with
  | nil => rfl
  | cons first rest =>
    simp only [List.modifyHead_cons, List.map_cons, trim_blank]

theorem tokens_blanks (blanks : Nat) : tokens (List.replicate blanks ' ' ++ s) = tokens s := by
  induction blanks with
  | zero => rfl
  | succ blanks ih =>
    rw [List.replicate_succ, List.cons_append, tokens_blank, ih]

theorem lineTokens_append {line last entry : HeaderValue} {blanks : Nat}
    (hbytes : line.bytes = last.bytes ++ 44 :: (List.replicate blanks 32 ++ entry.bytes))
    (hread : line.toStr.isSome) :
    lineTokens line = lineTokens last ++ lineTokens entry := by
  have hall : line.bytes.all isVisibleAscii = true := by
    unfold HeaderValue.toStr at hread
    split at hread
    · rename_i hvisible
      exact hvisible
    · cases hread
  have hparts := hall
  rw [hbytes, List.all_append, List.all_cons, List.all_append] at hparts
  simp only [Bool.and_eq_true] at hparts
  have hlast : last.toStr = some (last.bytes.map (fun b => Char.ofNat b.toNat)) := by
    rw [HeaderValue.toStr, if_pos hparts.left]
  have hentry : entry.toStr = some (entry.bytes.map (fun b => Char.ofNat b.toNat)) := by
    rw [HeaderValue.toStr, if_pos hparts.right.right.right]
  have hline : line.toStr = some (last.bytes.map (fun b => Char.ofNat b.toNat) ++
        ',' :: (List.replicate blanks ' ' ++ entry.bytes.map (fun b => Char.ofNat b.toNat))) := by
    rw [HeaderValue.toStr, if_pos hall, hbytes, List.map_append, List.map_cons, List.map_append,
      List.map_replicate]
    rfl
  rw [lineTokens_of_toStr hline, lineTokens_of_toStr hlast,
    lineTokens_of_toStr hentry, tokens_append_comma, tokens_blanks]

theorem appendsEntry_addresses {client forwarded : List HeaderValue}
    {entry : HeaderValue} (happ : AppendsEntry client forwarded entry)
    (hread : forall v, v ∈ forwarded -> v.toStr.isSome) :
    forwarded.flatMap lineAddresses = client.flatMap lineAddresses ++ lineAddresses entry := by
  rcases happ with hown | ⟨front, last, line, blanks, hclient, hforwarded, hbytes⟩
  · rw [hown, List.flatMap_append, List.flatMap_singleton]
  · have hline := hread line (by rw [hforwarded]; simp)
    have haddresses : lineAddresses line = lineAddresses last ++ lineAddresses entry := by
      rw [lineAddresses, lineTokens_append hbytes hline, List.filterMap_append]
      rfl
    rw [hforwarded, hclient, List.flatMap_append, List.flatMap_append,
      List.flatMap_singleton, List.flatMap_singleton, haddresses, List.append_assoc]

theorem chain_default_headers {headers : HeaderMap}
    (h : (parseXffChain headers [xForwardedFor, xRealIp]).hasError = false) :
    (forall v, v ∈ headers.getAll xForwardedFor -> v.toStr.isSome) ∧
      RelayCtx.chain headers [xForwardedFor, xRealIp] =
        (headers.getAll xForwardedFor).flatMap lineAddresses ++
          (headers.getAll xRealIp).flatMap lineAddresses := by
  rcases parseXffChain_of_no_error h with ⟨hjoin, _, hentries⟩
  constructor
  · intro v hv
    apply hjoin.left
    simp [hv]
  · rw [RelayCtx.chain]
    simp only [h, Bool.false_eq_true, if_false, hentries]
    simp [List.flatMap_cons, List.flatMap_append]

theorem appended_address_realIp_iff {intel : Intel} {cfg : RelayConfig}
    {registry : ProviderRegistry} (hbuilt : ProviderRegistry.fromConfig intel cfg = .ok registry)
    (hderives : cfg.DerivesChain) (hdefault : cfg.forwardedFor =
      ["X-Forwarded-For".toList, "X-Real-IP".toList])
    {peerIp a : IpAddr} (hpeer : isTrusted cfg.trustedProxies peerIp = true)
    (ha : isTrusted cfg.trustedProxies a = false) {headers : HeaderMap}
    {client : List HeaderValue} {entry : HeaderValue}
    (happ : AppendsEntry client (headers.getAll xForwardedFor) entry)
    (hentry : lineAddresses entry = [a]) :
    (RelayDetector.evaluate registry peerIp headers).realIp = a <->
      ((parseXffChain headers [xForwardedFor, xRealIp]).hasError = false ∧
        forall ip, lastUntrusted cfg.trustedProxies
          ((headers.getAll xRealIp).flatMap lineAddresses) = some ip -> ip = a) := by
  rcases fromConfig_takesChain hbuilt hderives with ⟨names, hnames, htakes, hneeds⟩
  have hnamesDefault : names = [xForwardedFor, xRealIp] := by
    rw [hdefault, headerNames_default] at hnames
    injection hnames with hsame
    exact hsame.symm
  rw [hnamesDefault] at htakes
  rw [evaluate_realIp htakes hneeds]
  cases herror : (parseXffChain headers [xForwardedFor, xRealIp]).hasError with
  | true =>
    have hchain : RelayCtx.chain headers [xForwardedFor, xRealIp] = [] := by
      simp only [RelayCtx.chain, herror, if_true]
    rw [hchain]
    constructor
    · intro hsame
      have hsame : peerIp = a := hsame
      rw [hsame, ha] at hpeer
      cases hpeer
    · intro hcondition
      cases hcondition.left
  | false =>
    rcases chain_default_headers herror with ⟨hread, hchain⟩
    rw [hchain, appendsEntry_addresses happ hread, hentry,
      lastUntrusted_append, lastUntrusted_append, lastUntrusted_singleton ha]
    cases hlast : lastUntrusted cfg.trustedProxies
        ((headers.getAll xRealIp).flatMap lineAddresses) with
    | none => simp
    | some ip => simp

theorem appended_address_realIp_iff_example :
    exists registry,
      ProviderRegistry.fromConfig Intel.unavailable
        { trustedProxies := [privateTen],
          signalsEnabled := ["xff_validator"] } = .ok registry ∧
      (RelayDetector.evaluate registry (.v4 (Ipv4Addr.new 10 0 0 1))
        [(xForwardedFor, line "9.9.9.9, 1.2.3.4")]).realIp =
          .v4 (Ipv4Addr.new 1 2 3 4) := by
  refine ⟨_, fromConfig_privateTen, ?_⟩
  have happ : AppendsEntry [line "9.9.9.9"] [line "9.9.9.9, 1.2.3.4"]
      (line "1.2.3.4") :=
    Or.inr ⟨[], line "9.9.9.9", line "9.9.9.9, 1.2.3.4", 1, rfl, rfl, by decide⟩
  refine (appended_address_realIp_iff fromConfig_privateTen
    (Or.inl List.mem_cons_self) rfl (by decide) (by decide) happ
    (by decide)).mpr ⟨by decide, ?_⟩
  intro ip hip
  cases hip

/--
The same peer appends 1.2.3.4, but the client sent `X-Real-IP: 6.6.6.6` along,
and becomes 6.6.6.6.
-/
theorem realIp_header_overrides_appended :
    exists registry,
      ProviderRegistry.fromConfig Intel.unavailable
        { trustedProxies := [privateTen],
          signalsEnabled := ["xff_validator"] } = .ok registry ∧
      isTrusted [privateTen] (.v4 (Ipv4Addr.new 10 0 0 1)) = true ∧
      isTrusted [privateTen] (.v4 (Ipv4Addr.new 1 2 3 4)) = false ∧
      (parseXffChain
        [(xForwardedFor, line "1.2.3.4"), (xRealIp, line "6.6.6.6")]
        [xForwardedFor, xRealIp]).hasError = false ∧
      (RelayDetector.evaluate registry (.v4 (Ipv4Addr.new 10 0 0 1))
        [(xForwardedFor, line "1.2.3.4"),
          (xRealIp, line "6.6.6.6")]).realIp =
            .v4 (Ipv4Addr.new 6 6 6 6) := by
  refine ⟨_, fromConfig_privateTen, ?_⟩
  decide

end Relay
end PrxWaf
