import PrxWaf.Gateway.HeaderFilters

/-!
# Headers of the connection

A request may have any number of `Connection` lines, and each names headers that are
meant for the next hop only.  The filter takes the names from the first line.
-/

namespace PrxWaf
namespace Gateway

open Lib Http

def hopByHopNames : List HeaderName :=
  hopByHop.filterMap HeaderName.fromBytes

def namedByAnyLine (headers : HeaderMap) : List HeaderName :=
  ((HeaderMap.getAll headers connectionName).flatMap lineTokens).filterMap HeaderName.fromBytes

/-- The header is one of the connection and not one of a WebSocket handshake. -/
def OfConnection (headers : HeaderMap) (name : HeaderName) : Prop :=
  (name ∈ hopByHopNames ∨ name ∈ namedByAnyLine headers) ∧
    (isWebSocket headers = true -> name ≠ upgradeName ∧ name ≠ connectionName)

structure Cleaned (headers out : HeaderMap) : Prop where
  removed : forall name, OfConnection headers name -> HeaderMap.getAll out name = []
  upgrade : isWebSocket headers = true ->
    HeaderMap.getAll out upgradeName = HeaderMap.getAll headers upgradeName
  connection : isWebSocket headers = true ->
    exists v, HeaderMap.getAll out connectionName = [v] ∧ v.fromUtf8 = some "upgrade".toList
  others : forall name, name ∉ hopByHopNames ->
    name ∉ namedByAnyLine headers -> HeaderMap.getAll out name = HeaderMap.getAll headers name

variable {name : HeaderName}

theorem mem_hopByHopNames (h : name.text ∈ hopByHop)
    (hlength : name.text.length ≤ HeaderName.maxLen) : name ∈ hopByHopNames :=
  List.mem_filterMap.mpr ⟨name.text, h, HeaderName.fromBytes_text hlength⟩

theorem upgradeName_standard : upgradeName ∈ hopByHopNames :=
  mem_hopByHopNames (by decide) (by decide)

theorem connectionName_standard : connectionName ∈ hopByHopNames :=
  mem_hopByHopNames (by decide) (by decide)

theorem not_mem_hopByHopNames (h : name.text ∉ hopByHop) :
    name ∉ hopByHopNames := by
  intro hname
  rcases List.mem_filterMap.mp hname with ⟨t, ht, heq⟩
  exact fromBytes_ne_of_text h t ht heq

theorem mem_connectionTokens {headers : HeaderMap} {t : Text}
    (ht : t ∈ connectionTokens headers) :
    exists v, v ∈ HeaderMap.getAll headers connectionName ∧ t ∈ lineTokens v := by
  unfold connectionTokens HeaderMap.get at ht
  cases hlines : HeaderMap.getAll headers connectionName with
  | nil =>
    rw [hlines] at ht
    cases ht
  | cons first rest =>
    rw [hlines] at ht
    exact ⟨first, List.mem_cons_self, ht⟩

theorem connectionNames_subset (headers : HeaderMap) :
    connectionNames headers ⊆ namedByAnyLine headers := by
  intro name hname
  rcases List.mem_filterMap.mp hname with ⟨t, ht, heq⟩
  rcases mem_connectionTokens ht with ⟨v, hv, htoken⟩
  exact List.mem_filterMap.mpr ⟨t, List.mem_flatMap.mpr ⟨v, hv, htoken⟩, heq⟩

theorem token_eq_text {headers : HeaderMap} {t : Text} (ht : t ∈ connectionTokens headers)
    (hname : HeaderName.fromBytes t = some name) : t = name.text := by
  have hlower : toAsciiLowercase t = t := by
    rcases mem_connectionTokens ht with ⟨v, -, hv⟩
    unfold lineTokens at hv
    split at hv
    · cases hv
    · rcases List.mem_map.mp (List.mem_of_mem_filter hv) with ⟨u, -, rfl⟩
      unfold toAsciiLowercase
      rw [List.map_map]
      apply List.map_congr_left
      intro c _
      exact Char.toLower_toLower_eq_toLower c
  unfold HeaderName.fromBytes at hname
  split at hname
  · injection hname with hname
    rw [← hname]
    exact hlower.symm
  · cases hname

section Apply

variable {headers out : HeaderMap} {fctx : FilterCtx}

theorem requestHopByHop_ok (headers : HeaderMap) (fctx : FilterCtx) :
    exists out, requestHopByHop.apply headers fctx = .ok out := by
  unfold requestHopByHop
  dsimp only
  split
  · exact ⟨_, rfl⟩
  · exact ⟨_, rfl⟩

theorem requestHopByHop_cases (h : requestHopByHop.apply headers fctx = .ok out) :
    exists left : HeaderMap, (forall name, HeaderMap.getAll left name =
        if exists t, t ∈ hopByHop ∧ (isWebSocket headers && (t = "upgrade".toList ||
              t = "connection".toList)) = false ∧ HeaderName.fromBytes t = some name then []
        else if exists t, t ∈ connectionTokens headers ∧
            (isWebSocket headers && decide (t = "upgrade".toList)) = false ∧
            HeaderName.fromBytes t = some name then []
        else HeaderMap.getAll headers name) ∧ (isWebSocket headers = true ->
        exists v, v.fromUtf8 = some "upgrade".toList ∧
          out = HeaderMap.insert left connectionName v) ∧
      (isWebSocket headers = false -> out = left) := by
  unfold requestHopByHop at h
  dsimp only at h
  refine ⟨strip (fun t =>
      isWebSocket headers && (t = "upgrade".toList || t = "connection".toList)) hopByHop
      (strip (fun t => isWebSocket headers && t = "upgrade".toList)
        (connectionTokens headers) headers), fun name => ?_, fun hws => ?_, fun hws => ?_⟩
  · rw [getAll_strip, getAll_strip]
  · rw [if_pos hws] at h
    exact insertHeader_ok h
  · rw [if_neg (by rw [hws]; exact Bool.false_ne_true)] at h
    injection h with h
    exact h.symm

theorem getAll_of_not_hopByHop {name : HeaderName} (hname : name ∉ hopByHopNames)
    (h : requestHopByHop.apply headers fctx = .ok out) :
    HeaderMap.getAll out name =
      if name ∈ connectionNames headers then []
      else HeaderMap.getAll headers name := by
  refine getAll_requestHopByHop ?_ h
  intro t ht heq
  exact hname (List.mem_filterMap.mpr ⟨t, ht, heq⟩)

theorem getAll_of_hopByHop {name : HeaderName} (hname : name ∈ hopByHopNames)
    (hws : isWebSocket headers = true -> name ≠ upgradeName ∧ name ≠ connectionName)
    (h : requestHopByHop.apply headers fctx = .ok out) :
    HeaderMap.getAll out name = [] := by
  rcases List.mem_filterMap.mp hname with ⟨t, ht, heq⟩
  rcases requestHopByHop_cases h with ⟨left, hleft, hyes, hno⟩
  cases hisWs : isWebSocket headers with
  | false =>
    rw [hno hisWs, hleft, if_pos]
    exact ⟨t, ht, by rw [hisWs, Bool.false_and], heq⟩
  | true =>
    rcases hyes hisWs with ⟨v, -, rfl⟩
    rcases hws hisWs with ⟨hupgrade, hconnection⟩
    rw [HeaderMap.getAll_insert_of_ne hconnection, hleft, if_pos]
    refine ⟨t, ht, ?_, heq⟩
    rw [Bool.and_eq_false_iff, Bool.or_eq_false_iff, decide_eq_false_iff_not,
      decide_eq_false_iff_not]
    right
    constructor
    · rintro rfl
      exact hupgrade (Option.some.inj (heq.symm.trans
        (@HeaderName.fromBytes_text upgradeName (by decide))))
    · rintro rfl
      exact hconnection (Option.some.inj (heq.symm.trans
        (@HeaderName.fromBytes_text connectionName (by decide))))

theorem getAll_upgrade (hws : isWebSocket headers = true)
    (h : requestHopByHop.apply headers fctx = .ok out) :
    HeaderMap.getAll out upgradeName = HeaderMap.getAll headers upgradeName := by
  rcases requestHopByHop_cases h with ⟨left, hleft, hyes, -⟩
  rcases hyes hws with ⟨v, -, rfl⟩
  rw [HeaderMap.getAll_insert_of_ne (by decide), hleft, hws, if_neg, if_neg]
  · rintro ⟨t, ht, hstays, heq⟩
    rw [token_eq_text ht heq] at hstays
    exact absurd hstays (by decide)
  · rintro ⟨t, ht, hstays, heq⟩
    rw [← text_of_hopByHop ht heq] at hstays
    exact absurd hstays (by decide)

end Apply

/-- The filter always succeeds, and it removes what is to be removed exactly when
every header of the request that some `Connection` line names is a standard one or
is named by the first line. -/
theorem requestHopByHop_cleaned_iff (headers : HeaderMap) (fctx : FilterCtx) :
    exists out, requestHopByHop.apply headers fctx = .ok out ∧ (Cleaned headers out <->
        forall name, name ∈ namedByAnyLine headers -> HeaderMap.getAll headers name ≠ [] ->
            name ∈ hopByHopNames ∨ name ∈ connectionNames headers) := by
  rcases requestHopByHop_ok headers fctx with ⟨out, h⟩
  refine ⟨out, h, ?_⟩
  constructor
  · intro hcleaned name hnamed hlines
    rcases Decidable.em (name ∈ hopByHopNames) with hstandard | hstandard
    · exact Or.inl hstandard
    · right
      have hof : OfConnection headers name := by
        refine ⟨Or.inr hnamed, fun _ => ⟨?_, ?_⟩⟩
        · rintro rfl
          exact hstandard upgradeName_standard
        · rintro rfl
          exact hstandard connectionName_standard
      have hnone := hcleaned.removed name hof
      rw [getAll_of_not_hopByHop hstandard h] at hnone
      split at hnone
      · assumption
      · exact absurd hnone hlines
  · intro hfirst
    refine ⟨?_, fun hws => getAll_upgrade hws h, ?_, ?_⟩
    · rintro name ⟨hname, hws⟩
      rcases Decidable.em (name ∈ hopByHopNames) with hstandard | hstandard
      · exact getAll_of_hopByHop hstandard hws h
      · have hnamed := hname.resolve_left hstandard
        rw [getAll_of_not_hopByHop hstandard h]
        split
        · rfl
        · rename_i hother
          apply Decidable.byContradiction
          intro hlines
          rcases hfirst name hnamed hlines with hbad | hbad
          · exact hstandard hbad
          · exact hother hbad
    · intro hws
      rcases requestHopByHop_cases h with ⟨left, -, hyes, -⟩
      rcases hyes hws with ⟨v, hv, rfl⟩
      exact ⟨v, HeaderMap.getAll_insert_self left connectionName v, hv⟩
    · intro name hstandard hnamed
      rw [getAll_of_not_hopByHop hstandard h, if_neg]
      intro hmem
      exact hnamed (connectionNames_subset headers hmem)

def secretName : HeaderName :=
  headerName "x-secret"

def twoConnectionLines : HeaderMap :=
  [(connectionName, line "close"), (connectionName, line "X-Secret"), (secretName, line "1")]

/-- The header that only the second line names goes to the upstream. -/
theorem second_connection_line_ignored :
    secretName ∈ namedByAnyLine twoConnectionLines ∧
      exists out, requestHopByHop.apply twoConnectionLines behindProxy = .ok out ∧
        HeaderMap.getAll out secretName = [line "1"] ∧ ¬ Cleaned twoConnectionLines out := by
  have hnamed : secretName ∈ namedByAnyLine twoConnectionLines := by
    decide +kernel
  rcases requestHopByHop_ok twoConnectionLines behindProxy with ⟨out, h⟩
  have hlines : HeaderMap.getAll out secretName = [line "1"] := by
    rw [getAll_of_not_hopByHop (not_mem_hopByHopNames (by decide)) h, if_neg (by decide +kernel)]
    decide +kernel
  refine ⟨hnamed, out, h, hlines, ?_⟩
  intro hcleaned
  have hnone := hcleaned.removed secretName ⟨Or.inr hnamed, by decide⟩
  rw [hlines] at hnone
  cases hnone

end Gateway
end PrxWaf
