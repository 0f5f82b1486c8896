import PrxWaf.Community.Blocklist
import PrxWaf.Lib.Hex

/-!
# Join tokens

A token is the time at which it expires, as text, and a signature of this text.  The
hash and the code that signs are given by libraries.  That the code cannot be forged
is an assumption on who presents a token: a signature that is valid for a text was
read off a token with this text.
-/

namespace PrxWaf
namespace Cluster
namespace JoinToken

open Lib Net Community

structure Crypto where
  sha256 : List UInt8 -> List UInt8
  hmacSha256 : List UInt8 -> List UInt8 -> List UInt8

def deriveSigningKey (crypto : Crypto) (caKeyPem : Text) : List UInt8 :=
  crypto.sha256 (utf8 "prx-waf-cluster-token-signing-v1:".toList ++ utf8 caKeyPem)

def sign (crypto : Crypto) (caKeyPem expiryHex : Text) : List UInt8 :=
  crypto.hmacSha256 (deriveSigningKey crypto caKeyPem) (utf8 expiryHex)

def expiryText (expiryMs : Nat) : Text :=
  paddedHex 16 expiryMs

def generateToken (crypto : Crypto) (caKeyPem : Text) (nowMs ttlMs : Nat) : Except Text Text :=
  if nowMs + ttlMs < 2 ^ 64 then
    let expiryHex := expiryText (nowMs + ttlMs)
    .ok (expiryHex ++ '.' :: hexEncode (sign crypto caKeyPem expiryHex))
  else .error "token TTL overflow".toList

/-- A plus sign may stand before the digits. -/
def fromStrRadix (radix bound : Nat) (s : Text) : Option Nat :=
  let digits := if s.head? = some '+' then s.tail else s
  if digits = [] then none
  else ((digits.mapM (toDigit radix)).map (digitsValue radix)).filter (fun n => n < bound)

def validateToken (crypto : Crypto) (caKeyPem token : Text) (nowMs : Nat) : Except Text Unit :=
  match Text.splitOnce '.' token with
  | none => .error "invalid token format: missing '.' separator".toList
  | some (expiryHex, signatureHex) =>
    match fromStrRadix 16 (2 ^ 64) expiryHex with
    | none => .error "invalid token format: bad expiry hex".toList
    | some expiryMs =>
      match hexDecode signatureHex with
      | none => .error "invalid token format: bad signature hex".toList
      | some providedSig =>
        if providedSig ≠ sign crypto caKeyPem expiryHex then
          .error "token signature verification failed".toList
        else if expiryMs < nowMs then .error "join token has expired".toList
        else .ok ()

theorem mapM_paddedHex {width n : Nat} (h : n < 16 ^ width) :
    exists digits, (paddedHex width n).mapM (toDigit 16) = some digits ∧
      digitsValue 16 digits = n := by
  induction width generalizing n with
  | zero => exact ⟨[], rfl, by unfold digitsValue; rw [List.foldl_nil]; lia⟩
  | succ width ih =>
    obtain ⟨digits, hdigits, hvalue⟩ := @ih (n / 16) (Nat.div_lt_of_lt_mul (by lia))
    have hlast := @toDigit_digitChar 16 (n % 16) (Nat.le_refl 16) (Nat.mod_lt n (by decide))
    refine ⟨digits ++ [n % 16], ?_, ?_⟩
    · rw [paddedHex, List.mapM_append, hdigits, List.mapM_cons, hlast]
      rfl
    · unfold digitsValue at hvalue ⊢
      rw [List.foldl_append, hvalue, List.foldl_cons, List.foldl_nil]
      lia

theorem not_mem_paddedHex {c : Char} (h : forall d, d < 16 -> Nat.digitChar d ≠ c)
    (width n : Nat) : c ∉ paddedHex width n := by
  induction width generalizing n with
  | zero => exact List.not_mem_nil
  | succ width ih =>
    intro hc
    rcases List.mem_append.mp hc with hfront | hlast
    · exact ih (n / 16) hfront
    · exact h _ (Nat.mod_lt n (by decide)) (List.mem_singleton.mp hlast).symm

theorem fromStrRadix_expiryText {expiryMs : Nat} (h : expiryMs < 2 ^ 64) :
    fromStrRadix 16 (2 ^ 64) (expiryText expiryMs) = some expiryMs := by
  obtain ⟨digits, hdigits, hvalue⟩ := @mapM_paddedHex 16 expiryMs h
  have hplus : (expiryText expiryMs).head? ≠ some '+' := by
    intro hhead
    exact not_mem_paddedHex (by decide) 16 expiryMs (List.mem_of_head? hhead)
  have hne : expiryText expiryMs ≠ [] := List.append_ne_nil_of_right_ne_nil _ (by simp)
  unfold fromStrRadix
  dsimp only
  rw [if_neg hplus, if_neg hne]
  unfold expiryText
  rw [hdigits, Option.map_some, hvalue]
  exact Option.filter_some_pos (by simpa using h)

theorem hexDecode_hexEncode (bytes : List UInt8) : hexDecode (hexEncode bytes) = some bytes := by
  induction bytes with
  | nil => rfl
  | cons b rest ih =>
    have hdigit : forall d, d < 16 -> hexDigit (Nat.digitChar d) = some (UInt8.ofNat d) := by
      intro d hd
      rw [hexDigit, toDigit_digitChar (Nat.le_refl 16) hd]
      rfl
    have hhigh := hdigit (b.toNat / 16 % 16) (Nat.mod_lt _ (by decide))
    have hlow := hdigit (b.toNat % 16) (Nat.mod_lt _ (by decide))
    have hbyte : UInt8.ofNat (b.toNat / 16 % 16) * 16 + UInt8.ofNat (b.toNat % 16) = b := by
      refine UInt8.toNat_inj.mp ?_
      have hb := b.toNat_lt
      simp only [UInt8.toNat_add, UInt8.toNat_mul, UInt8.toNat_ofNat']
      lia
    change hexDecode (Nat.digitChar (b.toNat / 16 % 16) :: Nat.digitChar (b.toNat % 16) ::
      hexEncode rest) = some (b :: rest)
    rw [hexDecode, hhigh, hlow, ih]
    dsimp only
    rw [hbyte]

section Tokens

variable {crypto : Crypto} {caKeyPem token : Text}

theorem validateToken_ok_iff {nowMs : Nat} :
    validateToken crypto caKeyPem token nowMs = .ok () <-> exists expiryHex signatureHex expiryMs,
      Text.splitOnce '.' token = some (expiryHex, signatureHex) ∧
      fromStrRadix 16 (2 ^ 64) expiryHex = some expiryMs ∧
      hexDecode signatureHex = some (sign crypto caKeyPem expiryHex) ∧ nowMs ≤ expiryMs := by
  unfold validateToken
  constructor
  · intro h
    split at h
    · cases h
    · split at h
      · cases h
      · split at h
        · cases h
        · rename_i hsplit _ _ hexpiry _ providedSig hsig
          split at h
          · cases h
          · rename_i hvalid
            split at h
            · cases h
            · rename_i hfresh
              rw [Classical.not_not] at hvalid
              rw [hvalid] at hsig
              exact ⟨_, _, _, hsplit, hexpiry, hsig, Nat.not_lt.mp hfresh⟩
  · rintro ⟨expiryHex, signatureHex, expiryMs, hsplit, hexpiry, hsig, hfresh⟩
    rw [hsplit]
    dsimp only
    rw [hexpiry, hsig]
    dsimp only
    rw [if_neg (not_not.mpr rfl), if_neg (Nat.not_lt.mpr hfresh)]

def signedText (token : Text) : Option Text :=
  (Text.splitOnce '.' token).map Prod.fst

theorem splitOnce_generateToken {nowMs ttlMs : Nat}
    (h : generateToken crypto caKeyPem nowMs ttlMs = .ok token) :
    nowMs + ttlMs < 2 ^ 64 ∧ Text.splitOnce '.' token = some (expiryText (nowMs + ttlMs),
      hexEncode (sign crypto caKeyPem (expiryText (nowMs + ttlMs)))) := by
  unfold generateToken at h
  split at h
  · rename_i hbound
    injection h with h
    have hfree : '.' ∉ expiryText (nowMs + ttlMs) := not_mem_paddedHex (by decide) 16 _
    rw [← h]
    exact ⟨hbound, Text.splitOnce_append_cons hfree _⟩
  · cases h

theorem exists_generateToken (crypto : Crypto) (caKeyPem : Text) {nowMs ttlMs : Nat}
    (h : nowMs + ttlMs < 2 ^ 64) :
    exists token, generateToken crypto caKeyPem nowMs ttlMs = .ok token := by
  unfold generateToken
  rw [if_pos h]
  exact ⟨_, rfl⟩

structure Issue where
  nowMs : Nat
  ttlMs : Nat
  token : Text

def IssuedBy (crypto : Crypto) (caKeyPem : Text) (known : List Issue) : Prop :=
  forall issue, issue ∈ known ->
    generateToken crypto caKeyPem issue.nowMs issue.ttlMs = .ok issue.token

/-- A valid signature in the token is for the text of a token that is known. -/
def Unforged (crypto : Crypto) (caKeyPem : Text) (known : List Issue) (token : Text) : Prop :=
  forall expiryHex signatureHex, Text.splitOnce '.' token = some (expiryHex, signatureHex) ->
    hexDecode signatureHex = some (sign crypto caKeyPem expiryHex) ->
      exists issue, issue ∈ known ∧ signedText issue.token = some expiryHex

theorem unforged_of_mem {known : List Issue} {issue : Issue} (h : issue ∈ known) :
    Unforged crypto caKeyPem known issue.token := by
  intro expiryHex signatureHex hsplit _
  refine ⟨issue, h, ?_⟩
  rw [signedText, hsplit]
  rfl

end Tokens

/-- A token is made unless its expiry is beyond the clock, it is accepted until it
expires, and what is accepted has the text of a known token that has not expired. -/
theorem tokens_sound_and_complete (crypto : Crypto) (caKeyPem : Text) :
    (forall nowMs ttlMs, nowMs + ttlMs < 2 ^ 64 ->
      exists token, generateToken crypto caKeyPem nowMs ttlMs = .ok token ∧
        forall t, nowMs ≤ t -> t ≤ nowMs + ttlMs ->
          validateToken crypto caKeyPem token t = .ok ()) ∧
    (forall nowMs ttlMs token t, generateToken crypto caKeyPem nowMs ttlMs = .ok token ->
      nowMs ≤ t -> t ≤ nowMs + ttlMs -> validateToken crypto caKeyPem token t = .ok ()) ∧
    forall known token t, IssuedBy crypto caKeyPem known ->
      Unforged crypto caKeyPem known token -> validateToken crypto caKeyPem token t = .ok () ->
        exists issue, issue ∈ known ∧ t ≤ issue.nowMs + issue.ttlMs ∧
          signedText token = some (expiryText (issue.nowMs + issue.ttlMs)) ∧
          signedText issue.token = signedText token := by
  have haccepted : forall nowMs ttlMs token t,
      generateToken crypto caKeyPem nowMs ttlMs = .ok token -> nowMs ≤ t -> t ≤ nowMs + ttlMs ->
        validateToken crypto caKeyPem token t = .ok () := by
    intro nowMs ttlMs token t hmade _ hlive
    obtain ⟨hbound, hsplit⟩ := splitOnce_generateToken hmade
    exact validateToken_ok_iff.mpr ⟨_, _, _, hsplit, fromStrRadix_expiryText hbound,
      hexDecode_hexEncode _, hlive⟩
  refine ⟨?_, haccepted, ?_⟩
  · intro nowMs ttlMs hbound
    obtain ⟨token, hmade⟩ := exists_generateToken crypto caKeyPem hbound
    exact ⟨token, hmade, fun t hfrom hlive => haccepted nowMs ttlMs token t hmade hfrom hlive⟩
  · intro known token t hknown hunforged hvalid
    obtain ⟨expiryHex, signatureHex, expiryMs, hsplit, hexpiry, hsig, hfresh⟩ :=
      validateToken_ok_iff.mp hvalid
    obtain ⟨issue, hissue, htext⟩ := hunforged expiryHex signatureHex hsplit hsig
    obtain ⟨hbound, hissued⟩ := splitOnce_generateToken (hknown issue hissue)
    have hsigned : signedText token = some expiryHex := by
      rw [signedText, hsplit]
      rfl
    have hsame : expiryText (issue.nowMs + issue.ttlMs) = expiryHex := by
      rw [signedText, hissued] at htext
      exact Option.some.inj htext
    -- the text that is signed is the text that is read
    rw [← hsame, fromStrRadix_expiryText hbound] at hexpiry
    refine ⟨issue, hissue, ?_, ?_, ?_⟩
    · rw [Option.some.inj hexpiry]
      exact hfresh
    · rw [hsigned, hsame]
    · rw [htext, hsigned]

def plainCrypto : Crypto where
  sha256 := id
  hmacSha256 := fun key text => key ++ text

/-- A token of an hour, at its last millisecond. -/
theorem hour_token_accepted :
    exists token, generateToken plainCrypto "pem".toList 1000 3600000 = .ok token ∧
      validateToken plainCrypto "pem".toList token 3601000 = .ok () ∧
      signedText token = some (expiryText 3601000) := by
  obtain ⟨hmakes, -, hsound⟩ := tokens_sound_and_complete plainCrypto "pem".toList
  obtain ⟨token, hmade, haccepted⟩ := hmakes 1000 3600000 (by norm_num)
  have hvalid := haccepted 3601000 (by norm_num) (by norm_num)
  have hissued : IssuedBy plainCrypto "pem".toList [⟨1000, 3600000, token⟩] := by
    intro issue hissue
    rw [List.mem_singleton.mp hissue]
    exact hmade
  obtain ⟨issue, hissue, -, htext, -⟩ := hsound [⟨1000, 3600000, token⟩] token 3601000 hissued
    (unforged_of_mem (List.mem_singleton.mpr rfl)) hvalid
  rw [List.mem_singleton.mp hissue] at htext
  have hexpiry : 1000 + 3600000 = 3601000 := by norm_num
  dsimp only at htext
  rw [hexpiry] at htext
  exact ⟨token, hmade, hvalid, htext⟩

end JoinToken
end Cluster
end PrxWaf
