import PrxWaf.Http.Header
import PrxWaf.Lib.Traverse
import PrxWaf.Net.IpParse

/-!
# Forwarded-for chains

The lines of all configured headers are joined with commas, under a cap on their
bytes, and split again into address tokens, under a cap on their number.  The
client address is then the last entry of the chain that is not in a trusted
network.
-/

namespace PrxWaf
namespace Relay

open Lib Net Http

def maxHeaderBytes : Nat := 8192

def maxChainEntries : Nat := 32

structure ParsedChain where
  entries : List IpAddr := []
  tooLongBytes : Bool := false
  tooLongCount : Bool := false
  malformed : Bool := false
  deriving DecidableEq

def ParsedChain.hasError (p : ParsedChain) : Bool :=
  p.tooLongBytes || p.tooLongCount || p.malformed

def stripZone (s : Text) : Text :=
  Text.beforeFirst '%' s

/--
Parse a single token: a bracketed address, an address with a port, or a bare
address, each with an optional zone.
-/
def parseToken (raw : Text) : Option IpAddr :=
  let s := Text.trimMatches (fun c => c == '"') (Text.trim raw)
  match s with
  | '[' :: rest =>
    if ']' ∈ rest then
      IpAddr.fromStr (stripZone (Text.beforeFirst ']' rest))
    else none
  | _ =>
    let candidate := if s.count ':' = 1 then Text.beforeFirst ':' s else s
    IpAddr.fromStr (stripZone candidate)

def tokens (s : Text) : List Text :=
  ((s.splitOn ',').map Text.trim).filter (fun t => !t.isEmpty)

/-- Join the header lines, stopping at the byte cap or an unreadable line. -/
def combineLines : List HeaderValue -> Nat -> Text -> Except ParsedChain Text
  | [], _, combined => .ok combined
  | v :: rest, totalBytes, combined =>
    let totalBytes := totalBytes + v.len
    if maxHeaderBytes < totalBytes then .error { tooLongBytes := true }
    else
      match v.toStr with
      | none => .error { malformed := true }
      | some s =>
        let front := if combined.isEmpty then combined else combined ++ [',']
        combineLines rest totalBytes (front ++ s)

def parseTokens (raw : List Text) : ParsedChain :=
  if maxChainEntries < raw.length then { tooLongCount := true }
  else
    match raw.mapM parseToken with
    | none => { malformed := true }
    | some entries => { entries := entries }

def parseXffChain (headers : HeaderMap) (headerNames : List HeaderName) : ParsedChain :=
  match combineLines (headerNames.flatMap headers.getAll) 0 [] with
  | .error parsed => parsed
  | .ok combined =>
    if combined.isEmpty then {} else parseTokens (tokens combined)

def isPrivateLike : IpAddr -> Bool
  | .v4 ip =>
    ip.isPrivate || ip.isLoopback || ip.isLinkLocal || ip.isUnspecified
  | .v6 ip =>
    let s0 := ip.segments.headD 0
    ip.isLoopback || ip.isUnspecified || s0 &&& 0xfe00 == 0xfc00 || s0 &&& 0xffc0 == 0xfe80

structure DeriveOutcome where
  realIp : IpAddr
  strippedCount : Nat
  spoofPrivateMidChain : Bool

def isTrusted (trusted : List IpNet) (ip : IpAddr) : Bool :=
  trusted.any (fun net => net.contains ip)

/--
Walk over the trusted entries at the front of the reversed chain.  The count is
a byte and saturates.
-/
def stripTrusted (trusted : List IpNet) : List IpAddr -> Nat -> Nat × List IpAddr
  | [], stripped => (stripped, [])
  | ip :: rest, stripped =>
    if isTrusted trusted ip then
      stripTrusted trusted rest (min (stripped + 1) 255)
    else (stripped, ip :: rest)

/-- The first untrusted entry from the right, else the peer. -/
def deriveRealIp (chain : List IpAddr) (trusted : List IpNet) (peerIp : IpAddr) : DeriveOutcome :=
  match stripTrusted trusted chain.reverse 0 with
  | (stripped, []) =>
    { realIp := peerIp, strippedCount := stripped, spoofPrivateMidChain := false }
  | (stripped, ip :: rest) =>
    { realIp := ip, strippedCount := stripped,
      spoofPrivateMidChain := (ip :: rest).any isPrivateLike }

example : parseToken "[2001:db8::1]:443".toList =
    some (.v6 (Ipv6Addr.new 0x2001 0xdb8 0 0 0 0 0 1)) := by decide
example : parseToken " \"1.2.3.4:8080\"".toList =
    some (.v4 (Ipv4Addr.new 1 2 3 4)) := by decide
example : parseToken "fe80::1%eth0".toList =
    some (.v6 (Ipv6Addr.new 0xfe80 0 0 0 0 0 0 1)) := by decide

/-!
# The tokens of joined lines

Joining lines with commas and splitting again gives the tokens of the lines, one
line after the other.
-/

theorem tokens_nil : tokens [] = [] := rfl

theorem tokens_append_comma (s t : Text) :
    tokens (s ++ ',' :: t) = tokens s ++ tokens t := by
  unfold tokens
  rw [List.splitOn_append_cons_self, List.map_append, List.filter_append]

def lineTokens (v : HeaderValue) : List Text :=
  match v.toStr with
  | none => []
  | some s => tokens s

theorem lineTokens_of_toStr {v : HeaderValue} {s : Text}
    (h : v.toStr = some s) : lineTokens v = tokens s := by
  rw [lineTokens, h]

/-- The lines can be joined: none is unreadable and the cap is kept. -/
def Joinable (lines : List HeaderValue) (totalBytes : Nat) : Prop :=
  (forall v, v ∈ lines -> v.toStr.isSome) ∧
    totalBytes + (lines.map HeaderValue.len).sum ≤ maxHeaderBytes

theorem tokens_front (combined s : Text) :
    tokens ((if combined.isEmpty then combined else combined ++ [',']) ++ s) =
      tokens combined ++ tokens s := by
  cases combined with
  | nil =>
    rw [tokens_nil]
    rfl
  | cons c rest =>
    simp only [List.isEmpty_cons, Bool.false_eq_true, if_false,
      List.append_assoc, List.singleton_append]
    exact tokens_append_comma (c :: rest) s

variable (trusted : List IpNet) {lines : List HeaderValue} {totalBytes : Nat} {raw : List Text}

theorem combineLines_of_joinable (hjoin : Joinable lines totalBytes) (combined : Text) :
    exists joined, combineLines lines totalBytes combined = .ok joined ∧
      tokens joined = tokens combined ++ lines.flatMap lineTokens := by
  induction lines generalizing totalBytes combined with
  | nil =>
    exact ⟨combined, rfl, by simp⟩
  | cons v rest ih =>
    rcases Option.isSome_iff_exists.mp (hjoin.left v List.mem_cons_self) with ⟨s, hs⟩
    have hbytes := hjoin.right
    rw [List.map_cons, List.sum_cons] at hbytes
    have hcap : ¬ maxHeaderBytes < totalBytes + v.len := by lia
    have hrest : Joinable rest (totalBytes + v.len) :=
      ⟨fun u hu => hjoin.left u (List.mem_cons_of_mem v hu), by lia⟩
    rcases ih hrest
        ((if combined.isEmpty then combined else combined ++ [',']) ++ s) with
      ⟨joined, hjoined, htokens⟩
    refine ⟨joined, ?_, ?_⟩
    · simp only [combineLines, if_neg hcap, hs]
      exact hjoined
    · rw [htokens, tokens_front, List.flatMap_cons, lineTokens_of_toStr hs, List.append_assoc]

theorem combineLines_of_not_joinable (hstart : totalBytes ≤ maxHeaderBytes)
    (hjoin : ¬ Joinable lines totalBytes) (combined : Text) :
    exists parsed, combineLines lines totalBytes combined = .error parsed ∧
      parsed.hasError = true := by
  induction lines generalizing totalBytes combined with
  | nil =>
    exact absurd ⟨by simp, by simpa using hstart⟩ hjoin
  | cons v rest ih =>
    unfold combineLines
    simp only
    split
    · exact ⟨_, rfl, rfl⟩
    · rename_i hcap
      cases hs : v.toStr with
      | none => exact ⟨_, rfl, rfl⟩
      | some s =>
        apply ih (Nat.not_lt.mp hcap)
        intro hrest
        apply hjoin
        constructor
        · intro u hu
          rcases List.mem_cons.mp hu with heq | hmem
          · rw [heq, hs]
            rfl
          · exact hrest.left u hmem
        · have hbytes := hrest.right
          rw [List.map_cons, List.sum_cons]
          lia

variable {headers : HeaderMap} {headerNames : List HeaderName}

theorem parseXffChain_of_joinable (hjoin : Joinable (headerNames.flatMap headers.getAll) 0) :
    parseXffChain headers headerNames =
      parseTokens ((headerNames.flatMap headers.getAll).flatMap lineTokens) := by
  rcases combineLines_of_joinable hjoin [] with ⟨joined, hjoined, htokens⟩
  rw [tokens_nil, List.nil_append] at htokens
  rw [parseXffChain, hjoined, ← htokens]
  cases joined with
  | nil => rfl
  | cons c rest => rfl

theorem parseXffChain_of_not_joinable (hjoin : ¬ Joinable (headerNames.flatMap headers.getAll) 0) :
    (parseXffChain headers headerNames).hasError = true := by
  rcases combineLines_of_not_joinable (Nat.zero_le _) hjoin [] with ⟨parsed, hparsed, herror⟩
  rw [parseXffChain, hparsed]
  exact herror

/-! Without an error, the entries are the addresses of the tokens. -/

def lineAddresses (v : HeaderValue) : List IpAddr :=
  (lineTokens v).filterMap parseToken

theorem parseTokens_of_no_error (h : (parseTokens raw).hasError = false) :
    raw.length ≤ maxChainEntries ∧ (parseTokens raw).entries = raw.filterMap parseToken := by
  unfold parseTokens at h ⊢
  split at h
  · cases h
  · rename_i hcount
    rw [if_neg hcount]
    cases hentries : raw.mapM parseToken with
    | none =>
      rw [hentries] at h
      cases h
    | some entries =>
      exact ⟨Nat.not_lt.mp hcount, filterMap_of_mapM_some hentries⟩

theorem parseTokens_of_parsed (hcount : raw.length ≤ maxChainEntries)
    (hparsed : forall t, t ∈ raw -> (parseToken t).isSome) :
    parseTokens raw = { entries := raw.filterMap parseToken } := by
  rw [parseTokens, if_neg (Nat.not_lt.mpr hcount), mapM_of_forall_some hparsed]

theorem parseXffChain_of_no_error (h : (parseXffChain headers headerNames).hasError = false) :
    Joinable (headerNames.flatMap headers.getAll) 0 ∧
      ((headerNames.flatMap headers.getAll).flatMap lineTokens).length ≤ maxChainEntries ∧
      (parseXffChain headers headerNames).entries =
        (headerNames.flatMap headers.getAll).flatMap lineAddresses := by
  have hjoin : Joinable (headerNames.flatMap headers.getAll) 0 := by
    apply Classical.byContradiction
    intro hnot
    rw [parseXffChain_of_not_joinable hnot] at h
    cases h
  rw [parseXffChain_of_joinable hjoin] at h ⊢
  rcases parseTokens_of_no_error h with ⟨hcount, hentries⟩
  refine ⟨hjoin, hcount, ?_⟩
  rw [hentries, List.filterMap_flatMap]
  rfl

def lastUntrusted (trusted : List IpNet) (chain : List IpAddr) : Option IpAddr :=
  chain.reverse.find? (fun ip => !isTrusted trusted ip)

theorem stripTrusted_head (rev : List IpAddr) (stripped : Nat) :
    (stripTrusted trusted rev stripped).2.head? = rev.find? (fun ip => !isTrusted trusted ip) := by
  induction rev generalizing stripped with
  | nil => rfl
  | cons ip rest ih =>
    unfold stripTrusted
    cases htrusted : isTrusted trusted ip with
    | true =>
      rw [if_pos rfl, ih, List.find?_cons_of_neg]
      simp [htrusted]
    | false =>
      rw [if_neg Bool.false_ne_true, List.find?_cons_of_pos]
      · rfl
      · simp [htrusted]

theorem deriveRealIp_realIp (chain : List IpAddr) (trusted : List IpNet) (peerIp : IpAddr) :
    (deriveRealIp chain trusted peerIp).realIp = (lastUntrusted trusted chain).getD peerIp := by
  have hhead := stripTrusted_head trusted chain.reverse 0
  rw [lastUntrusted, ← hhead, deriveRealIp]
  rcases stripTrusted trusted chain.reverse 0 with ⟨stripped, rest⟩
  cases rest with
  | nil => rfl
  | cons ip rest => rfl

theorem lastUntrusted_append (front back : List IpAddr) :
    lastUntrusted trusted (front ++ back) =
      (lastUntrusted trusted back).or (lastUntrusted trusted front) := by
  rw [lastUntrusted, List.reverse_append, List.find?_append]
  rfl

theorem lastUntrusted_singleton {trusted : List IpNet} {ip : IpAddr}
    (h : isTrusted trusted ip = false) :
    lastUntrusted trusted [ip] = some ip := by
  simp [lastUntrusted, h]

end Relay
end PrxWaf
