import PrxWaf.Gateway.HeaderFilters

/-!
# The forwarding chain

A request may carry its forwarding chain in several lines, which a reader joins in
their order.  The filter reads the first of them and writes one line in place of
all.
-/

namespace PrxWaf
namespace Gateway

open Lib Net Http
open Relay (xForwardedFor)

def lineEntries (text : Text) : List Text :=
  (text.splitOn ',').map Text.trim

def chainEntries (headers : HeaderMap) : List Text :=
  (HeaderMap.getAll headers xForwardedFor).flatMap (fun v =>
    match v.fromUtf8 with
    | none => []
    | some text => lineEntries text)

def PreservesChain (headers : HeaderMap) (fctx : FilterCtx) : Prop :=
  exists out, requestXff.apply headers fctx = .ok out ∧
    chainEntries out = chainEntries headers ++ [fctx.peerIp.display]

theorem lineEntries_append_display (prev : Text) (ip : IpAddr) :
    lineEntries (prev ++ ", ".toList ++ ip.display) = lineEntries prev ++ [ip.display] := by
  have htext : prev ++ ", ".toList ++ ip.display = prev ++ ',' :: (' ' :: ip.display) := by
    rw [List.append_assoc]
    rfl
  have hcomma : ',' ∉ ' ' :: ip.display := by
    rw [List.mem_cons, not_or]
    exact ⟨by decide, ip.not_mem_display (by decide) (by decide) (by decide)⟩
  unfold lineEntries
  rw [htext, List.splitOn_append_cons_self, List.splitOn_eq_singleton hcomma,
    List.map_append, List.map_singleton, Text.trim_space_cons, ip.trim_display]

theorem lineEntries_ne_nil (text : Text) : lineEntries text ≠ [] := by
  unfold lineEntries
  rw [ne_eq, List.map_eq_nil_iff]
  exact List.splitOn_ne_nil ',' text

section Filter

variable {headers : HeaderMap} {fctx : FilterCtx}
variable {first : HeaderValue} {rest : List HeaderValue} {text : Text}

theorem forwardedFor_of_first (hlines : HeaderMap.getAll headers xForwardedFor = first :: rest)
    (htext : first.fromUtf8 = some text) :
    forwardedFor headers fctx = text ++ ", ".toList ++ fctx.peerIp.display := by
  unfold forwardedFor headerText HeaderMap.get
  rw [hlines, List.head?_cons, Option.bind_some, htext]

theorem isValueByte_of_isVisible {s : Text} (h : IsVisible s) :
    (utf8 s).all isValueByte = true := by
  have hvalue := HeaderValue.fromUtf8_of_fromStr
    (HeaderValue.fromStr_of_toStr (HeaderValue.toStr_ofText s h))
  rw [HeaderValue.utf8_of_fromUtf8 hvalue]
  exact (HeaderValue.ofText s h).valid

theorem isValueByte_continued (htext : first.fromUtf8 = some text) (ip : IpAddr) :
    (utf8 (text ++ ", ".toList ++ ip.display)).all isValueByte = true := by
  have hpeer : IsVisible (", ".toList ++ ip.display) := by
    intro c hc
    rcases List.mem_append.mp hc with hsep | hdisplay
    · have hvisible : IsVisible ", ".toList := by decide
      exact hvisible c hsep
    · have hrange := IpAddr.display_range hdisplay
      lia
  rw [List.append_assoc]
  unfold utf8
  rw [List.flatMap_append, List.all_append, Bool.and_eq_true]
  refine ⟨?_, isValueByte_of_isVisible hpeer⟩
  have hbytes := HeaderValue.utf8_of_fromUtf8 htext
  unfold utf8 at hbytes
  rw [hbytes]
  exact first.valid

theorem chainEntries_requestXff (hlines : HeaderMap.getAll headers xForwardedFor = first :: rest)
    (htext : first.fromUtf8 = some text) :
    exists out, requestXff.apply headers fctx = .ok out ∧
      chainEntries out = lineEntries text ++ [fctx.peerIp.display] := by
  obtain ⟨v, hv⟩ := HeaderValue.fromStr_eq_some (isValueByte_continued htext fctx.peerIp)
  refine ⟨HeaderMap.insert headers xForwardedFor v, ?_, ?_⟩
  · unfold requestXff insertHeader
    dsimp only
    rw [forwardedFor_of_first hlines htext, hv]
  · unfold chainEntries
    rw [HeaderMap.getAll_insert_self, List.flatMap_singleton, HeaderValue.fromUtf8_of_fromStr hv]
    exact lineEntries_append_display text fctx.peerIp

/-- The chain is preserved exactly when it came in one line. -/
theorem preservesChain_iff (hsent : HeaderMap.getAll headers xForwardedFor ≠ [])
    (hutf8 : forall v, v ∈ HeaderMap.getAll headers xForwardedFor -> v.fromUtf8.isSome = true) :
    PreservesChain headers fctx <-> (HeaderMap.getAll headers xForwardedFor).length = 1 := by
  cases hlines : HeaderMap.getAll headers xForwardedFor with
  | nil => exact absurd hlines hsent
  | cons first rest =>
    rw [hlines] at hutf8
    obtain ⟨text, htext⟩ := Option.isSome_iff_exists.mp (hutf8 first List.mem_cons_self)
    obtain ⟨out, hout, hentries⟩ :=
      @chainEntries_requestXff headers fctx first rest text hlines htext
    unfold PreservesChain
    constructor
    · rintro ⟨out', hout', hpreserved⟩
      rw [hout] at hout'
      injection hout' with hsame
      rw [← hsame, hentries, List.append_left_inj] at hpreserved
      cases rest with
      | nil => rfl
      | cons second more =>
        obtain ⟨later, hlater⟩ := Option.isSome_iff_exists.mp
          (hutf8 second (List.mem_cons_of_mem first List.mem_cons_self))
        unfold chainEntries at hpreserved
        rw [hlines, List.flatMap_cons, htext, List.flatMap_cons, hlater] at hpreserved
        have hnil := List.self_eq_append_right.mp hpreserved
        exact absurd (List.append_eq_nil_iff.mp hnil).left (lineEntries_ne_nil later)
    · intro hlength
      have hrest : rest = [] := List.length_eq_zero_iff.mp (by
        rw [List.length_cons] at hlength
        lia)
      refine ⟨out, hout, ?_⟩
      rw [hentries]
      unfold chainEntries
      rw [hlines, hrest, List.flatMap_singleton, htext]

end Filter

theorem one_line_chain_preserved :
    PreservesChain [forwardedLine] behindProxy :=
  (preservesChain_iff (by decide +kernel) (by decide +kernel)).mpr (by decide +kernel)

/-- The client's entry is in the second of two lines, and the upstream never sees
it. -/
theorem second_line_lost :
    HeaderMap.getAll [(xForwardedFor, line "198.51.100.7"), forwardedLine]
        xForwardedFor = [line "198.51.100.7", line "203.0.113.9"] ∧
      ¬ PreservesChain [(xForwardedFor, line "198.51.100.7"), forwardedLine]
        behindProxy := by
  refine ⟨by decide +kernel, ?_⟩
  rintro ⟨out, hout, hentries⟩
  have happly : exists sent, requestXff.apply [(xForwardedFor, line "198.51.100.7"), forwardedLine]
        behindProxy = .ok sent ∧ (chainEntries sent).length = 2 := by
    refine ⟨_, rfl, ?_⟩
    decide +kernel
  obtain ⟨sent, hsent, hlength⟩ := happly
  rw [hout] at hsent
  injection hsent with hsame
  rw [← hsame, hentries] at hlength
  revert hlength
  decide +kernel

end Gateway
end PrxWaf
