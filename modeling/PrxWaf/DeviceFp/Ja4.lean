import PrxWaf.DeviceFp.Capture
import PrxWaf.Lib.Hex
import PrxWaf.Lib.Utf8

/-!
# The JA4 fingerprint

Two parts of the fingerprint are hashes of sorted lists, and the first part has
their lengths.  What hash is used does not matter.
-/

namespace PrxWaf
namespace DeviceFp
namespace Ja4Fingerprint

open Lib

def hashLen : Nat := 12

def tlsVersionLabel (v : UInt16) : Text :=
  if v = 0x0304 then "13".toList
  else if v = 0x0303 then "12".toList
  else if v = 0x0302 then "11".toList
  else if v = 0x0301 then "10".toList
  else if v = 0x0300 then "s3".toList
  else if v = 0x0002 then "s2".toList
  else "00".toList

def clampCount (n : Nat) : Nat :=
  if 99 < n then 99 else n

def twoDigits (n : Nat) : Text :=
  if n < 10 then '0' :: decimal n else decimal n

def sanitizeAlpnByte (b : UInt8) : Char :=
  let c := Char.ofNat b.toNat
  if c.isAlphanum then c else '9'

def alpnPair (alpn : Option Text) : Text :=
  match alpn with
  | none => "00".toList
  | some s =>
    match (utf8 s).head?, (utf8 s).getLast? with
    | some firstByte, some lastByte =>
      [sanitizeAlpnByte firstByte, sanitizeAlpnByte lastByte]
    | _, _ => "00".toList

def ja4a (tls : ParsedClientHello) : Text :=
  't' :: tlsVersionLabel tls.legacyVersion ++ [if tls.sni.isSome then 'd' else 'i'] ++
    twoDigits (clampCount (withoutGrease tls.cipherSuites).length) ++
    twoDigits (clampCount (withoutGrease tls.extensions).length) ++ alpnPair tls.alpn.head?

def sortUnstable (values : List UInt16) : List UInt16 :=
  values.insertionSort (fun a b => a ≤ b)

def hexCsv (values : List UInt16) : Text :=
  [','].intercalate (values.map (fun v => paddedHex 4 v.toNat))

def hexCsvKeepOrder (values : List UInt16) : Text :=
  hexCsv (withoutGrease values)

section Hash

variable (sha256 : List UInt8 -> List UInt8)

def sha256Truncated (input : Text) : Text :=
  if input = [] then "000000000000".toList
  else (hexEncode (sha256 (utf8 input))).take hashLen

def ja4b (ciphers : List UInt16) : Text :=
  sha256Truncated sha256 (hexCsv (sortUnstable (withoutGrease ciphers)))

/-- The extensions without those for the server name and the protocols. -/
def hashedExtensions (extensions : List UInt16) : List UInt16 :=
  extensions.filter (fun v => !isGrease v && v != 0x0000 && v != 0x0010)

def ja4c (extensions sigAlgs : List UInt16) : Text :=
  let extsCsv := hexCsv (sortUnstable (hashedExtensions extensions))
  let sigCsv := hexCsvKeepOrder sigAlgs
  let payload := if sigCsv = [] then extsCsv else extsCsv ++ '_' :: sigCsv
  sha256Truncated sha256 payload

def compute (raw : RawCapture) : Option Text :=
  raw.tls.map (fun tls => ['_'].intercalate [ja4a tls, ja4b sha256 tls.cipherSuites,
    ja4c sha256 tls.extensions tls.signatureAlgorithms])

end Hash

def InsertsGrease (values more : List UInt16) : Prop :=
  exists front v back, isGrease v = true ∧ values = front ++ back ∧ more = front ++ v :: back

/-- The ways in which a client may vary its message. -/
inductive Varies : ParsedClientHello -> ParsedClientHello -> Prop where
  | shuffleCiphers (tls : ParsedClientHello) {suites : List UInt16}
      (h : tls.cipherSuites.Perm suites) : Varies tls { tls with cipherSuites := suites }
  | shuffleExtensions (tls : ParsedClientHello) {exts : List UInt16}
      (h : tls.extensions.Perm exts) : Varies tls { tls with extensions := exts }
  | greaseCiphers (tls : ParsedClientHello) {suites : List UInt16}
      (h : InsertsGrease tls.cipherSuites suites) : Varies tls { tls with cipherSuites := suites }
  | greaseExtensions (tls : ParsedClientHello) {exts : List UInt16}
      (h : InsertsGrease tls.extensions exts) : Varies tls { tls with extensions := exts }
  | greaseSignatureAlgorithms (tls : ParsedClientHello) {algs : List UInt16}
      (h : InsertsGrease tls.signatureAlgorithms algs) :
      Varies tls { tls with signatureAlgorithms := algs }

theorem sortUnstable_of_perm {xs ys : List UInt16} (h : xs.Perm ys) :
    sortUnstable xs = sortUnstable ys := by
  refine List.Perm.eq_of_pairwise (fun a b _ _ => UInt16.le_antisymm)
    (List.pairwise_insertionSort _ xs) (List.pairwise_insertionSort _ ys) ?_
  exact (List.perm_insertionSort _ xs).trans (h.trans (List.perm_insertionSort _ ys).symm)

theorem InsertsGrease.withoutGrease_eq {values more : List UInt16}
    (h : InsertsGrease values more) : withoutGrease values = withoutGrease more := by
  obtain ⟨front, v, back, hv, rfl, rfl⟩ := h
  unfold withoutGrease
  rw [List.filter_append, List.filter_append, List.filter_cons_of_neg]
  rw [hv]
  exact Bool.false_ne_true

structure SameParts (tls tls' : ParsedClientHello) : Prop where
  version : tls.legacyVersion = tls'.legacyVersion
  sni : tls.sni = tls'.sni
  alpn : tls.alpn = tls'.alpn
  ciphers : (withoutGrease tls.cipherSuites).Perm (withoutGrease tls'.cipherSuites)
  extensions : (withoutGrease tls.extensions).Perm (withoutGrease tls'.extensions)
  signatureAlgorithms :
    withoutGrease tls.signatureAlgorithms = withoutGrease tls'.signatureAlgorithms

theorem Varies.sameParts {tls tls' : ParsedClientHello} (h : Varies tls tls') :
    SameParts tls tls' := by
  cases h with
  | shuffleCiphers h => exact ⟨rfl, rfl, rfl, h.filter _, .refl _, rfl⟩
  | shuffleExtensions h => exact ⟨rfl, rfl, rfl, .refl _, h.filter _, rfl⟩
  | greaseCiphers h => exact ⟨rfl, rfl, rfl, .of_eq h.withoutGrease_eq, .refl _, rfl⟩
  | greaseExtensions h => exact ⟨rfl, rfl, rfl, .refl _, .of_eq h.withoutGrease_eq, rfl⟩
  | greaseSignatureAlgorithms h =>
    exact ⟨rfl, rfl, rfl, .refl _, .refl _, h.withoutGrease_eq⟩

section Invariance

variable (sha256 : List UInt8 -> List UInt8)

theorem hashedExtensions_eq (extensions : List UInt16) : hashedExtensions extensions =
    (withoutGrease extensions).filter (fun v => v != 0x0000 && v != 0x0010) := by
  unfold hashedExtensions withoutGrease
  rw [List.filter_filter]
  refine List.filter_congr ?_
  intro v hv
  rw [Bool.and_assoc, Bool.and_comm]

theorem compute_of_sameParts {tls tls' : ParsedClientHello} (h : SameParts tls tls')
    (h2 : H2Capture) :
    compute sha256 { tls := some tls, h2 := h2 } =
      compute sha256 { tls := some tls', h2 := h2 } := by
  -- the first part counts all extensions, the last one hashes fewer
  have hexts := h.extensions.filter (fun v => v != 0x0000 && v != 0x0010)
  have ha : ja4a tls = ja4a tls' := by
    unfold ja4a
    rw [h.version, h.sni, h.alpn, h.ciphers.length_eq, h.extensions.length_eq]
  have hb : ja4b sha256 tls.cipherSuites = ja4b sha256 tls'.cipherSuites := by
    unfold ja4b
    rw [sortUnstable_of_perm h.ciphers]
  have hc : ja4c sha256 tls.extensions tls.signatureAlgorithms =
      ja4c sha256 tls'.extensions tls'.signatureAlgorithms := by
    unfold ja4c hexCsvKeepOrder
    rw [hashedExtensions_eq, hashedExtensions_eq, sortUnstable_of_perm hexts, h.signatureAlgorithms]
  unfold compute
  rw [Option.map_some, Option.map_some, ha, hb, hc]

/-- Any number of such changes, in both directions, leave the fingerprint. -/
theorem compute_ignores_variation {tls tls' : ParsedClientHello}
    (h : Relation.EqvGen Varies tls tls') (h2 : H2Capture) :
    compute sha256 { tls := some tls, h2 := h2 } =
      compute sha256 { tls := some tls', h2 := h2 } := by
  induction h with
  | rel _ _ h => exact compute_of_sameParts sha256 h.sameParts h2
  | refl _ => rfl
  | symm _ _ _ ih => exact ih.symm
  | trans _ _ _ _ _ ih ih' => exact ih.trans ih'

end Invariance

def plainHello : ParsedClientHello :=
  { legacyVersion := 0x0303
    cipherSuites := [0x1301, 0x1302]
    extensions := [0, 10]
    supportedGroups := []
    signatureAlgorithms := [0x0403]
    alpn := ["h2".toList]
    sni := none }

theorem plainHello_varied :
    isGrease 0x2A2A = true ∧ compute id { tls := some plainHello, h2 := ⟨[], [], [], none⟩ } =
        compute id {
          tls := some { plainHello with cipherSuites := [0x2A2A, 0x1302, 0x1301] }
          h2 := ⟨[], [], [], none⟩ } := by
  have hgrease : isGrease 0x2A2A = true := by decide
  refine ⟨hgrease, compute_ignores_variation id ?_ _⟩
  refine .trans _ _ _ (.rel _ _ (.shuffleCiphers plainHello (.swap _ _ []))) (.rel _ _ ?_)
  exact .greaseCiphers _ ⟨[], 0x2A2A, _, hgrease, rfl, rfl⟩

end Ja4Fingerprint
end DeviceFp
end PrxWaf
