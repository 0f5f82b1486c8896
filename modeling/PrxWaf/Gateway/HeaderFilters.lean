import PrxWaf.Gateway.Request
import PrxWaf.Net.IpDisplay
import PrxWaf.Relay.Identity

/-!
# The filters of upstream requests

Before a request is sent on, six filters change its headers one after the other.
The first two write down who the client is; the last one removes the headers of the
connection, and with them all headers that the `Connection` line names.
-/

namespace PrxWaf
namespace Gateway

open Lib Net Http
open Relay (xForwardedFor xRealIp)

/-! ## The filters -/

structure FilterCtx where
  clientIp : IpAddr
  peerIp : IpAddr
  isTls : Bool
  preserveHost : Bool
  remoteHost : Text

/-- A filter that fails says what it was about to do. -/
structure RequestHeaderFilter where
  name : Text
  apply : HeaderMap -> FilterCtx -> Except Text HeaderMap

def insertHeader (headers : HeaderMap) (name : HeaderName) (value : Text)
    (context : String) : Except Text HeaderMap :=
  match HeaderValue.fromStr value with
  | some v => .ok (HeaderMap.insert headers name v)
  | none => .error context.toList

/-- The first line of a header, if it is UTF-8. -/
def headerText (headers : HeaderMap) (name : HeaderName) : Option Text :=
  (HeaderMap.get headers name).bind HeaderValue.fromUtf8

def forwardedProtoName : HeaderName :=
  headerName "x-forwarded-proto"

def forwardedHostName : HeaderName :=
  headerName "x-forwarded-host"

def connectionName : HeaderName :=
  headerName "connection"

def upgradeName : HeaderName :=
  headerName "upgrade"

/-- An existing line is continued with the peer, else the client begins one. -/
def forwardedFor (headers : HeaderMap) (fctx : FilterCtx) : Text :=
  match headerText headers xForwardedFor with
  | none => fctx.clientIp.display
  | some prev => prev ++ ", ".toList ++ fctx.peerIp.display

def requestXff : RequestHeaderFilter where
  name := "request-xff".toList
  apply := fun headers fctx =>
    insertHeader headers xForwardedFor (forwardedFor headers fctx) "set xff"

def requestRealIp : RequestHeaderFilter where
  name := "request-real-ip".toList
  apply := fun headers fctx =>
    insertHeader headers xRealIp fctx.clientIp.display "set real-ip"

def requestForwardedProto : RequestHeaderFilter where
  name := "request-forwarded-proto".toList
  apply := fun headers fctx =>
    insertHeader headers forwardedProtoName
      (if fctx.isTls then "https".toList else "http".toList) "set proto"

def requestForwardedHost : RequestHeaderFilter where
  name := "request-forwarded-host".toList
  apply := fun headers _ =>
    match headerText headers hostName with
    | none => .ok headers
    | some host => insertHeader headers forwardedHostName host "set fwd-host"

inductive HostHeaderPolicy where
  | preserve
  | rewrite (value : Text)

def HostHeaderPolicy.fromHostConfig (fctx : FilterCtx) : HostHeaderPolicy :=
  if fctx.preserveHost then .preserve else .rewrite fctx.remoteHost

def HostHeaderPolicy.apply (headers : HeaderMap) : HostHeaderPolicy -> Except Text HeaderMap
  | preserve => .ok headers
  | rewrite value => insertHeader headers hostName value "host rewrite"

def requestHostPolicy : RequestHeaderFilter where
  name := "request-host-policy".toList
  apply := fun headers fctx =>
    (HostHeaderPolicy.fromHostConfig fctx).apply headers

def hopByHop : List Text :=
  ["connection".toList, "keep-alive".toList, "proxy-authenticate".toList,
    "proxy-authorization".toList, "te".toList, "trailer".toList,
    "transfer-encoding".toList, "upgrade".toList]

def isWebSocket (headers : HeaderMap) : Bool :=
  (headerText headers upgradeName).any (fun v =>
    eqIgnoreAsciiCase v "websocket".toList)

def lineTokens (v : HeaderValue) : List Text :=
  match v.fromUtf8 with
  | none => []
  | some s =>
    ((s.splitOn ',').map (fun t => toAsciiLowercase (Text.trim t))).filter (fun t => !t.isEmpty)

/-- The tokens of the first `Connection` line. -/
def connectionTokens (headers : HeaderMap) : List Text :=
  ((HeaderMap.get headers connectionName).map lineTokens).getD []

def strip (stays : Text -> Bool) (names : List Text) (headers : HeaderMap) : HeaderMap :=
  names.foldl (fun headers name =>
    if stays name then headers else HeaderMap.remove headers name) headers

def requestHopByHop : RequestHeaderFilter where
  name := "request-hop-by-hop".toList
  apply := fun headers _ =>
    let isWs := isWebSocket headers
    let tokens := connectionTokens headers
    let headers := strip (fun t => isWs && t = "upgrade".toList) tokens headers
    let headers := strip (fun t =>
      isWs && (t = "upgrade".toList || t = "connection".toList))
      hopByHop headers
    if isWs then insertHeader headers connectionName "upgrade".toList "ws conn"
    else .ok headers

/-- `build_request_chain`. -/
def requestChain : List RequestHeaderFilter :=
  [requestXff, requestRealIp, requestForwardedProto, requestForwardedHost,
    requestHostPolicy, requestHopByHop]

/-- The first filter that fails ends the chain. -/
def applyAll (fctx : FilterCtx) : List RequestHeaderFilter -> HeaderMap -> Except Text HeaderMap
  | [], headers => .ok headers
  | filter :: rest, headers =>
    match filter.apply headers fctx with
    | .error e => .error e
    | .ok headers => applyAll fctx rest headers

section Lines

variable {headers out : HeaderMap} {fctx : FilterCtx}

variable {name : HeaderName}

theorem insertHeader_ok {value : Text} {context : String}
    (h : insertHeader headers name value context = .ok out) :
    exists v, v.fromUtf8 = some value ∧ out = HeaderMap.insert headers name v := by
  unfold insertHeader at h
  cases hvalue : HeaderValue.fromStr value with
  | none =>
    rw [hvalue] at h
    cases h
  | some v =>
    rw [hvalue] at h
    injection h with h
    exact ⟨v, HeaderValue.fromUtf8_of_fromStr hvalue, h.symm⟩

theorem getAll_insertHeader_of_ne {other : HeaderName} {value : Text}
    {context : String} (hother : other ≠ name)
    (h : insertHeader headers name value context = .ok out) :
    HeaderMap.getAll out other = HeaderMap.getAll headers other := by
  rcases insertHeader_ok h with ⟨v, -, rfl⟩
  exact HeaderMap.getAll_insert_of_ne hother headers v

def connectionNames (headers : HeaderMap) : List HeaderName :=
  (connectionTokens headers).filterMap HeaderName.fromBytes

theorem connectionNames_congr (h : HeaderMap.getAll out connectionName =
      HeaderMap.getAll headers connectionName) :
    connectionNames out = connectionNames headers := by
  unfold connectionNames connectionTokens HeaderMap.get
  rw [h]

theorem getAll_strip (stays : Text -> Bool) (names : List Text)
    (headers : HeaderMap) (name : HeaderName) :
    HeaderMap.getAll (strip stays names headers) name =
      if exists t, t ∈ names ∧ stays t = false ∧ HeaderName.fromBytes t = some name then []
      else HeaderMap.getAll headers name := by
  unfold strip
  induction names generalizing headers with
  | nil => rw [if_neg (by simp)]; rfl
  | cons first rest ih =>
    rw [List.foldl_cons, ih]
    simp only [List.mem_cons, exists_eq_or_imp]
    rcases Decidable.em (exists t, t ∈ rest ∧ stays t = false ∧
        HeaderName.fromBytes t = some name) with hrest | hrest
    · rw [if_pos hrest, if_pos (Or.inr hrest)]
    · rw [if_neg hrest]
      cases hstays : stays first with
      | true =>
        rw [if_pos rfl, if_neg ?_]
        rintro (⟨hfirst, -⟩ | hlater)
        · cases hfirst
        · exact hrest hlater
      | false =>
        rw [if_neg Bool.false_ne_true, HeaderMap.getAll_remove]
        simp only [hrest, or_false, true_and]

theorem getAll_requestForwardedHost (hname : name ≠ forwardedHostName)
    (h : requestForwardedHost.apply headers fctx = .ok out) :
    HeaderMap.getAll out name = HeaderMap.getAll headers name := by
  unfold requestForwardedHost at h
  dsimp only at h
  split at h
  · injection h with h
    rw [h]
  · exact getAll_insertHeader_of_ne hname h

theorem getAll_requestHostPolicy (hname : name ≠ hostName)
    (h : requestHostPolicy.apply headers fctx = .ok out) :
    HeaderMap.getAll out name = HeaderMap.getAll headers name := by
  unfold requestHostPolicy at h
  dsimp only at h
  cases hpolicy : HostHeaderPolicy.fromHostConfig fctx with
  | preserve =>
    rw [hpolicy] at h
    injection h with h
    rw [h]
  | rewrite value =>
    rw [hpolicy] at h
    exact getAll_insertHeader_of_ne hname h

theorem text_of_hopByHop {t : Text} (ht : t ∈ hopByHop) {name : HeaderName}
    (h : HeaderName.fromBytes t = some name) : name.text = t := by
  have hlower : forall t, t ∈ hopByHop -> toAsciiLowercase t = t := by
    decide
  rw [HeaderName.text_of_fromBytes h, hlower t ht]

theorem fromBytes_ne_of_text (hname : name.text ∉ hopByHop) :
    forall t, t ∈ hopByHop -> HeaderName.fromBytes t ≠ some name := by
  intro t ht heq
  rw [text_of_hopByHop ht heq] at hname
  exact hname ht

theorem getAll_requestHopByHop
    (hname : forall t, t ∈ hopByHop -> HeaderName.fromBytes t ≠ some name)
    (h : requestHopByHop.apply headers fctx = .ok out) :
    HeaderMap.getAll out name =
      if name ∈ connectionNames headers then []
      else HeaderMap.getAll headers name := by
  have hupgrade := hname "upgrade".toList (by decide)
  have hconnection : name ≠ connectionName := by
    rintro rfl
    exact hname "connection".toList (by decide)
      (@HeaderName.fromBytes_text connectionName (by decide))
  have hnames : forall isWs : Bool, (exists t, t ∈ connectionTokens headers ∧
        (isWs && decide (t = "upgrade".toList)) = false ∧
          HeaderName.fromBytes t = some name) <-> name ∈ connectionNames headers := by
    intro isWs
    unfold connectionNames
    rw [List.mem_filterMap]
    constructor
    · rintro ⟨t, hmem, -, ht⟩
      exact ⟨t, hmem, ht⟩
    · rintro ⟨t, hmem, ht⟩
      refine ⟨t, hmem, ?_, ht⟩
      rw [Bool.and_eq_false_iff, decide_eq_false_iff_not]
      right
      rintro rfl
      exact hupgrade ht
  have hstripped : forall isWs : Bool, HeaderMap.getAll (strip (fun t =>
            isWs && (t = "upgrade".toList || t = "connection".toList)) hopByHop
          (strip (fun t => isWs && t = "upgrade".toList) (connectionTokens headers) headers)) name =
        if name ∈ connectionNames headers then []
        else HeaderMap.getAll headers name := by
    intro isWs
    rw [getAll_strip, if_neg ?_, getAll_strip]
    · exact if_congr (hnames isWs) rfl rfl
    · rintro ⟨t, hmem, -, ht⟩
      exact hname t hmem ht
  unfold requestHopByHop at h
  dsimp only at h
  rw [← hstripped (isWebSocket headers)]
  split at h
  · exact getAll_insertHeader_of_ne hconnection h
  · injection h with h
    rw [h]

end Lines

section Chain

variable {headers out : HeaderMap} {fctx : FilterCtx}

theorem applyAll_cons {filter : RequestHeaderFilter} {rest : List RequestHeaderFilter}
    (h : applyAll fctx (filter :: rest) headers = .ok out) :
    exists between, filter.apply headers fctx = .ok between ∧
      applyAll fctx rest between = .ok out := by
  unfold applyAll at h
  split at h
  · cases h
  · rename_i between hfilter
    exact ⟨between, hfilter, h⟩

/-- What the chain leaves of the two headers that tell who the client is: each has
the line that its filter wrote, unless the `Connection` line names it. -/
theorem getAll_requestChain (h : applyAll fctx requestChain headers = .ok out) :
    exists realIp xff : HeaderValue, realIp.fromUtf8 = some fctx.clientIp.display ∧
      xff.fromUtf8 = some (forwardedFor headers fctx) ∧ HeaderMap.getAll out xRealIp =
        (if xRealIp ∈ connectionNames headers then [] else [realIp]) ∧
      HeaderMap.getAll out xForwardedFor =
        (if xForwardedFor ∈ connectionNames headers then [] else [xff]) := by
  obtain ⟨h1, hxff, h⟩ := applyAll_cons h
  obtain ⟨h2, hreal, h⟩ := applyAll_cons h
  obtain ⟨h3, hproto, h⟩ := applyAll_cons h
  obtain ⟨h4, hhost, h⟩ := applyAll_cons h
  obtain ⟨h5, hpolicy, h⟩ := applyAll_cons h
  obtain ⟨h6, hhop, h⟩ := applyAll_cons h
  injection h with h
  rw [← h]
  have hlater : forall name, name ≠ forwardedProtoName ->
      name ≠ forwardedHostName -> name ≠ hostName ->
        HeaderMap.getAll h5 name = HeaderMap.getAll h2 name := by
    intro name hne1 hne2 hne3
    rw [getAll_requestHostPolicy hne3 hpolicy, getAll_requestForwardedHost hne2 hhost,
      getAll_insertHeader_of_ne hne1 hproto]
  obtain ⟨xff, htext, rfl⟩ := insertHeader_ok hxff
  obtain ⟨realIp, hip, rfl⟩ := insertHeader_ok hreal
  have hnames : connectionNames h5 = connectionNames headers := by
    refine connectionNames_congr ?_
    rw [hlater connectionName (by decide) (by decide) (by decide),
      HeaderMap.getAll_insert_of_ne (by decide), HeaderMap.getAll_insert_of_ne (by decide)]
  refine ⟨realIp, xff, hip, htext, ?_, ?_⟩
  · rw [getAll_requestHopByHop (fromBytes_ne_of_text (by decide)) hhop, hnames,
      hlater xRealIp (by decide) (by decide) (by decide), HeaderMap.getAll_insert_self]
  · rw [getAll_requestHopByHop (fromBytes_ne_of_text (by decide)) hhop, hnames,
      hlater xForwardedFor (by decide) (by decide) (by decide),
      HeaderMap.getAll_insert_of_ne (by decide), HeaderMap.getAll_insert_self]

end Chain

/-!
## Who the client is

The filter appends the peer to a chain that it can read, and starts one with the client
otherwise.
-/

section Identity

variable {headers out : HeaderMap} {fctx : FilterCtx}

/-- The client sent a line with a forwarding chain that is UTF-8. -/
def sentForwardedFor (headers : HeaderMap) : Bool :=
  (HeaderMap.getAll headers xForwardedFor).any (fun v =>
    v.fromUtf8.isSome)

def lastEntry (text : Text) : Option Text :=
  ((text.splitOn ',').getLast?).map Text.trim

/-- The upstream is told who the client is and who sent the request. -/
structure ForwardsIdentity (headers : HeaderMap) (fctx : FilterCtx) (out : HeaderMap) : Prop where
  realIp : exists v, HeaderMap.getAll out xRealIp = [v] ∧ v.fromUtf8 = some fctx.clientIp.display
  forwardedFor : exists v text,
    v ∈ HeaderMap.getAll out xForwardedFor ∧ v.fromUtf8 = some text ∧
      lastEntry text =
        some (if sentForwardedFor headers then fctx.peerIp.display
          else fctx.clientIp.display)

theorem lastEntry_display (ip : IpAddr) :
    lastEntry ip.display = some ip.display := by
  unfold lastEntry
  rw [List.splitOn_eq_singleton (ip.not_mem_display (by decide) (by decide) (by decide))]
  exact congrArg some ip.trim_display

theorem lastEntry_append_display (prev : Text) (ip : IpAddr) :
    lastEntry (prev ++ ", ".toList ++ ip.display) = some ip.display := by
  have htext : prev ++ ", ".toList ++ ip.display = prev ++ ',' :: (' ' :: ip.display) := by
    rw [List.append_assoc]
    rfl
  have hcomma : ',' ∉ ' ' :: ip.display := by
    rw [List.mem_cons, not_or]
    exact ⟨by decide, ip.not_mem_display (by decide) (by decide) (by decide)⟩
  unfold lastEntry
  rw [htext, List.splitOn_append_cons_self, List.splitOn_eq_singleton hcomma,
    List.getLast?_concat, Option.map_some, Text.trim_space_cons, ip.trim_display]

theorem lastEntry_forwardedFor (headers : HeaderMap) (fctx : FilterCtx) :
    lastEntry (forwardedFor headers fctx) =
      some (if (headerText headers xForwardedFor).isSome then
        fctx.peerIp.display else fctx.clientIp.display) := by
  unfold forwardedFor
  cases headerText headers xForwardedFor with
  | none => exact lastEntry_display fctx.clientIp
  | some prev => exact lastEntry_append_display prev fctx.peerIp

theorem sentForwardedFor_of_headerText (h : (headerText headers xForwardedFor).isSome = true) :
    sentForwardedFor headers = true := by
  unfold headerText HeaderMap.get at h
  unfold sentForwardedFor
  cases hlines : HeaderMap.getAll headers xForwardedFor with
  | nil =>
    rw [hlines] at h
    cases h
  | cons first rest =>
    rw [hlines] at h
    have hfirst : first.fromUtf8.isSome = true := h
    rw [List.any_cons, hfirst, Bool.true_or]

/-- The upstream is told who the client is exactly when the first `Connection`
line names neither header, and a forwarding chain whose first line is not UTF-8 has
no line that is, or the client is the peer. -/
theorem forwardsIdentity_iff (h : applyAll fctx requestChain headers = .ok out) :
    ForwardsIdentity headers fctx out <-> xRealIp ∉ connectionNames headers ∧
        xForwardedFor ∉ connectionNames headers ∧ (headerText headers xForwardedFor = none ->
          sentForwardedFor headers = true -> fctx.clientIp = fctx.peerIp) := by
  obtain ⟨realIp, xff, hip, htext, hreal, hxff⟩ := getAll_requestChain h
  have hlast := lastEntry_forwardedFor headers fctx
  constructor
  · rintro ⟨⟨v, honly, -⟩, w, text, hmem, hw, hentry⟩
    have hnamed : xRealIp ∉ connectionNames headers := by
      intro hnamed
      rw [hreal, if_pos hnamed] at honly
      cases honly
    have hnamed' : xForwardedFor ∉ connectionNames headers := by
      intro hnamed
      rw [hxff, if_pos hnamed] at hmem
      cases hmem
    refine ⟨hnamed, hnamed', ?_⟩
    intro hnone hsent
    rw [hxff, if_neg hnamed'] at hmem
    rw [List.mem_singleton.mp hmem, htext] at hw
    rw [← Option.some.inj hw, hlast, hnone, hsent] at hentry
    exact IpAddr.display_injective (Option.some.inj hentry)
  · rintro ⟨hnamed, hnamed', hsame⟩
    refine ⟨⟨realIp, ?_, hip⟩, xff, _, ?_, htext, ?_⟩
    · rw [hreal, if_neg hnamed]
    · rw [hxff, if_neg hnamed']
      exact List.mem_singleton.mpr rfl
    · rw [hlast]
      cases hfirst : headerText headers xForwardedFor with
      | some prev =>
        rw [sentForwardedFor_of_headerText (by rw [hfirst]; rfl)]
        rfl
      | none =>
        cases hsent : sentForwardedFor headers with
        | false => rfl
        | true =>
          rw [hsame hfirst hsent]
          rfl

end Identity

def behindProxy : FilterCtx :=
  { clientIp := .v4 (Ipv4Addr.new 203 0 113 9)
    peerIp := .v4 (Ipv4Addr.new 10 0 0 1)
    isTls := true
    preserveHost := true
    remoteHost := [] }

def forwardedLine : HeaderName × HeaderValue :=
  (xForwardedFor, line "203.0.113.9")

def upstreamHeaders (headers : HeaderMap) : Option HeaderMap :=
  (applyAll behindProxy requestChain headers).toOption

theorem applyAll_of_upstreamHeaders {headers out : HeaderMap}
    (h : upstreamHeaders headers = some out) :
    applyAll behindProxy requestChain headers = .ok out := by
  unfold upstreamHeaders at h
  cases happly : applyAll behindProxy requestChain headers with
  | error e =>
    rw [happly] at h
    cases h
  | ok headers =>
    rw [happly] at h
    injection h with h
    rw [h]

theorem keep_alive_forwards_identity :
    exists out, upstreamHeaders [forwardedLine, (connectionName, line "keep-alive")] = some out ∧
      ForwardsIdentity [forwardedLine, (connectionName, line "keep-alive")] behindProxy out := by
  refine ⟨_, rfl, (forwardsIdentity_iff ?_).mpr ?_⟩
  · exact applyAll_of_upstreamHeaders rfl
  · decide +kernel

/-- A client names both headers in its `Connection` line, and the upstream gets
neither. -/
theorem connection_line_hides_identity :
    exists out, upstreamHeaders [forwardedLine, (connectionName,
        line "x-real-ip, X-Forwarded-For")] = some out ∧ HeaderMap.getAll out xRealIp = [] ∧
      HeaderMap.getAll out xForwardedFor = [] ∧ ¬ ForwardsIdentity [forwardedLine, (connectionName,
        line "x-real-ip, X-Forwarded-For")] behindProxy out := by
  have hsent : exists out, upstreamHeaders [forwardedLine, (connectionName,
      line "x-real-ip, X-Forwarded-For")] = some out := ⟨_, rfl⟩
  rcases hsent with ⟨out, hout⟩
  have hnamed : xRealIp ∈ connectionNames [forwardedLine, (connectionName,
        line "x-real-ip, X-Forwarded-For")] ∧
      xForwardedFor ∈ connectionNames [forwardedLine, (connectionName,
        line "x-real-ip, X-Forwarded-For")] := by
    decide +kernel
  rcases getAll_requestChain (applyAll_of_upstreamHeaders hout) with
    ⟨realIp, xff, _, _, hreal, hxff⟩
  rw [if_pos hnamed.left] at hreal
  rw [if_pos hnamed.right] at hxff
  refine ⟨out, hout, hreal, hxff, ?_⟩
  rintro ⟨⟨v, honly, -⟩, -⟩
  rw [hreal] at honly
  cases honly

end Gateway
end PrxWaf
