import PrxWaf.Http.Header

/-!
# Absolute URLs

The URLs of RFC 3986 with the schemes `http` and `https`.  A percent sign may stand
wherever an escape may, so that all valid URLs are covered and some others.
-/

namespace PrxWaf
namespace Http

open Lib

theorem toNat_toLower (c : Char) :
    c.toLower.toNat =
      if 65 ≤ c.toNat ∧ c.toNat ≤ 90 then c.toNat + 32 else c.toNat := by
  have hval : forall n : UInt32, n ≥ 'A'.val ∧ n ≤ 'Z'.val <-> 65 ≤ n.toNat ∧ n.toNat ≤ 90 := by
    intro n
    rw [ge_iff_le, UInt32.le_iff_toNat_le, UInt32.le_iff_toNat_le]
    rfl
  unfold Char.toLower
  split
  · rename_i hupper
    have hrange := (hval c.val).mp hupper
    have hsum : (c.val + ('a'.val - 'A'.val)).toNat = c.val.toNat + 32 := by
      rw [UInt32.toNat_add]
      have hdiff : ('a'.val - 'A'.val).toNat = 32 := by decide
      rw [hdiff]
      lia
    rw [if_pos (by exact hrange)]
    exact hsum
  · rename_i hother
    have hout : ¬ (65 ≤ c.toNat ∧ c.toNat ≤ 90) := fun hrange => hother ((hval c.val).mpr hrange)
    rw [if_neg hout]

/-- The visible characters of ASCII, the blank apart. -/
def isUrlChar (c : Char) : Bool :=
  33 ≤ c.toNat && c.toNat ≤ 126

theorem isUrlChar_toLower (c : Char) :
    isUrlChar c.toLower = isUrlChar c := by
  unfold isUrlChar
  rw [toNat_toLower, Bool.eq_iff_iff]
  simp only [Bool.and_eq_true, decide_eq_true_eq]
  split
  · lia
  · rfl

theorem toLower_toLower (c : Char) : c.toLower.toLower = c.toLower := by
  refine Char.toNat_inj.mp ?_
  rw [toNat_toLower, if_neg]
  rw [toNat_toLower]
  split
  · lia
  · assumption

def IsUrlText (s : Text) : Prop :=
  forall c, c ∈ s -> isUrlChar c = true

variable {s : Text} {c : Char}

theorem isUrlText_toAsciiLowercase :
    IsUrlText (toAsciiLowercase s) <-> IsUrlText s := by
  constructor
  · intro h c hc
    rw [← isUrlChar_toLower]
    exact h _ (List.mem_map.mpr ⟨c, hc, rfl⟩)
  · intro h c hc
    obtain ⟨d, hd, rfl⟩ := List.mem_map.mp hc
    rw [isUrlChar_toLower]
    exact h d hd

theorem isWhitespace_of_isUrlChar (h : isUrlChar c = true) :
    Text.isWhitespace c = false := by
  unfold isUrlChar at h
  rw [Bool.and_eq_true, decide_eq_true_eq, decide_eq_true_eq] at h
  exact Text.isWhitespace_of_range h.left h.right

theorem trim_of_isUrlText (h : IsUrlText s) : Text.trim s = s :=
  Text.trim_eq_self (fun c hc => isWhitespace_of_isUrlChar (h c hc))

/-! ## The grammar -/

def isUnreserved (c : Char) : Bool :=
  c.isAlphanum || c = '-' || c = '.' || c = '_' || c = '~'

def subDelims : Text :=
  "!$&'()*+,;=".toList

def isNameChar (c : Char) : Bool :=
  isUnreserved c || subDelims.contains c || c = '%'

def isUserinfoChar (c : Char) : Bool :=
  isNameChar c || c = ':'

def isPathChar (c : Char) : Bool :=
  isUserinfoChar c || c = '@' || c = '/'

def isQueryChar (c : Char) : Bool :=
  isPathChar c || c = '?'

theorem isUrlChar_of_isAlphanum (h : c.isAlphanum = true) :
    isUrlChar c = true := by
  unfold Char.isAlphanum Char.isAlpha Char.isUpper Char.isLower Char.isDigit at h
  simp only [Bool.or_eq_true, Bool.and_eq_true, decide_eq_true_eq, ge_iff_le,
    UInt32.le_iff_toNat_le] at h
  change ((65 ≤ c.toNat ∧ c.toNat ≤ 90) ∨ (97 ≤ c.toNat ∧ c.toNat ≤ 122)) ∨
    (48 ≤ c.toNat ∧ c.toNat ≤ 57) at h
  unfold isUrlChar
  rw [Bool.and_eq_true, decide_eq_true_eq, decide_eq_true_eq]
  lia

theorem isUrlChar_of_isNameChar (h : isNameChar c = true) :
    isUrlChar c = true := by
  have hdelims : subDelims.all isUrlChar = true := by decide
  unfold isNameChar isUnreserved at h
  simp only [Bool.or_eq_true, decide_eq_true_eq, List.contains_iff_mem] at h
  rcases h with (((((h | rfl) | rfl) | rfl) | rfl) | h) | rfl
  · exact isUrlChar_of_isAlphanum h
  · decide
  · decide
  · decide
  · decide
  · exact List.all_eq_true.mp hdelims c h
  · decide

theorem isUrlChar_of_isUserinfoChar (h : isUserinfoChar c = true) :
    isUrlChar c = true := by
  unfold isUserinfoChar at h
  rw [Bool.or_eq_true, decide_eq_true_eq] at h
  rcases h with h | rfl
  · exact isUrlChar_of_isNameChar h
  · decide

theorem isUrlChar_of_isPathChar (h : isPathChar c = true) :
    isUrlChar c = true := by
  unfold isPathChar at h
  simp only [Bool.or_eq_true, decide_eq_true_eq] at h
  rcases h with (h | rfl) | rfl
  · exact isUrlChar_of_isUserinfoChar h
  · decide
  · decide

theorem isUrlChar_of_isQueryChar (h : isQueryChar c = true) :
    isUrlChar c = true := by
  unfold isQueryChar at h
  rw [Bool.or_eq_true, decide_eq_true_eq] at h
  rcases h with h | rfl
  · exact isUrlChar_of_isPathChar h
  · decide

theorem isUrlText_of_all {p : Char -> Bool}
    (hp : forall c, p c = true -> isUrlChar c = true) (h : s.all p = true) : IsUrlText s :=
  fun c hc => hp c (List.all_eq_true.mp h c hc)

theorem isUrlText_append {t : Text} (hs : IsUrlText s) (ht : IsUrlText t) :
    IsUrlText (s ++ t) := by
  intro c hc
  rcases List.mem_append.mp hc with hc | hc
  · exact hs c hc
  · exact ht c hc

structure HttpUrl where
  scheme : Text
  userinfo : Option Text
  host : Text
  port : Option Text
  path : Text
  query : Option Text
  fragment : Option Text
  scheme_http : toAsciiLowercase scheme = "http".toList ∨ toAsciiLowercase scheme = "https".toList
  userinfo_chars : forall s, s ∈ userinfo -> s.all isUserinfoChar = true
  host_ne : host ≠ []
  host_chars : host.all isNameChar = true ∨
    exists inner, host = '[' :: (inner ++ [']']) ∧ inner.all isUserinfoChar = true
  port_digits : forall s, s ∈ port -> s.all Char.isDigit = true
  path_start : path = [] ∨ path.head? = some '/'
  path_chars : path.all isPathChar = true
  query_chars : forall s, s ∈ query -> s.all isQueryChar = true
  fragment_chars : forall s, s ∈ fragment -> s.all isQueryChar = true

namespace HttpUrl

/-- An optional part with the delimiter before it. -/
def after (delimiter : Char) : Option Text -> Text
  | none => []
  | some s => delimiter :: s

def before (delimiter : Char) : Option Text -> Text
  | none => []
  | some s => s ++ [delimiter]

def authority (url : HttpUrl) : Text :=
  before '@' url.userinfo ++ (url.host ++ after ':' url.port)

def tail (url : HttpUrl) : Text :=
  url.path ++ (after '?' url.query ++ after '#' url.fragment)

def render (url : HttpUrl) : Text :=
  url.scheme ++ ("://".toList ++ (url.authority ++ url.tail))

theorem isUrlText_after {delimiter : Char} {part : Option Text}
    (hdelimiter : isUrlChar delimiter = true) (h : forall s, s ∈ part -> IsUrlText s) :
    IsUrlText (after delimiter part) := by
  cases part with
  | none =>
    intro c hc
    cases hc
  | some s =>
    intro c hc
    rcases List.mem_cons.mp hc with rfl | hc
    · exact hdelimiter
    · exact h s rfl c hc

variable (url : HttpUrl)

theorem isUrlText_host : IsUrlText url.host := by
  rcases url.host_chars with hname | ⟨inner, hhost, hinner⟩
  · exact isUrlText_of_all (fun _ h => isUrlChar_of_isNameChar h) hname
  · rw [hhost]
    have hopen : IsUrlText ['['] := isUrlText_of_all (fun _ h => h) rfl
    have hclose : IsUrlText [']'] := isUrlText_of_all (fun _ h => h) rfl
    exact isUrlText_append hopen (isUrlText_append
      (isUrlText_of_all (fun _ h => isUrlChar_of_isUserinfoChar h) hinner) hclose)

theorem isUrlText_authority : IsUrlText url.authority := by
  unfold authority
  refine isUrlText_append ?_ (isUrlText_append (isUrlText_host url) ?_)
  · cases huserinfo : url.userinfo with
    | none =>
      intro c hc
      cases hc
    | some s =>
      refine isUrlText_append ?_ (isUrlText_of_all (fun _ h => h) rfl)
      exact isUrlText_of_all (fun _ h => isUrlChar_of_isUserinfoChar h)
        (url.userinfo_chars s huserinfo)
  · refine isUrlText_after rfl ?_
    intro s hs
    refine isUrlText_of_all ?_ (url.port_digits s hs)
    intro c hc
    exact isUrlChar_of_isAlphanum (Bool.or_eq_true_iff.mpr (Or.inr hc))

theorem isUrlText_tail : IsUrlText url.tail := by
  have hquery : forall c, isQueryChar c = true -> isUrlChar c = true :=
    fun _ h => isUrlChar_of_isQueryChar h
  unfold tail
  refine isUrlText_append ?_ (isUrlText_append ?_ ?_)
  · exact isUrlText_of_all (fun _ h => isUrlChar_of_isPathChar h) url.path_chars
  · exact isUrlText_after rfl (fun s hs => isUrlText_of_all hquery (url.query_chars s hs))
  · exact isUrlText_after rfl (fun s hs => isUrlText_of_all hquery (url.fragment_chars s hs))

theorem isUrlText_scheme : IsUrlText url.scheme := by
  rw [← isUrlText_toAsciiLowercase]
  rcases url.scheme_http with hscheme | hscheme
  · rw [hscheme]
    exact isUrlText_of_all (fun _ h => h) rfl
  · rw [hscheme]
    exact isUrlText_of_all (fun _ h => h) rfl

theorem isUrlText_render : IsUrlText url.render :=
  isUrlText_append (isUrlText_scheme url) (isUrlText_append (isUrlText_of_all (fun _ h => h) rfl)
      (isUrlText_append (isUrlText_authority url) (isUrlText_tail url)))

end HttpUrl

end Http
end PrxWaf
