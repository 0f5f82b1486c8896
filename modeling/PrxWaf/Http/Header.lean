import PrxWaf.Lib.Utf8

/-!
# Header maps

Header names, values and maps as the `http` crate has them.  A name is kept in
lower case; a value is a sequence of bytes that may stand in a header line, not
all of which make a readable text; a map keeps the lines of one name in the
order in which they arrived.
-/

namespace PrxWaf
namespace Http

open Lib

def tokenChars : Text :=
  ("!#$%&'*+-.^_`|~0123456789" ++ "ABCDEFGHIJKLMNOPQRSTUVWXYZabcdefghijklmnopqrstuvwxyz").toList

def IsToken (s : Text) : Prop :=
  s ≠ [] ∧ forall c, c ∈ s -> c ∈ tokenChars

instance (s : Text) : Decidable (IsToken s) :=
  have : Decidable (forall c, c ∈ s -> c ∈ tokenChars) := List.decidableBAll _ s
  inferInstanceAs (Decidable (_ ∧ _))

def toAsciiLowercase (s : Text) : Text :=
  s.map Char.toLower

def eqIgnoreAsciiCase (s t : Text) : Bool :=
  toAsciiLowercase s == toAsciiLowercase t

theorem toLower_tokenChars :
    forall c, c ∈ tokenChars -> c.toLower ∈ tokenChars ∧ c.toLower.toLower = c.toLower := by
  have hall : tokenChars.all (fun c =>
      c.toLower ∈ tokenChars ∧ c.toLower.toLower = c.toLower) = true := by
    decide
  intro c hc
  exact of_decide_eq_true (List.all_eq_true.mp hall c hc)

variable {s : Text}

theorem isToken_toAsciiLowercase (h : IsToken s) :
    IsToken (toAsciiLowercase s) := by
  constructor
  · intro hnil
    exact h.left (List.map_eq_nil_iff.mp hnil)
  · intro c hc
    rcases List.mem_map.mp hc with ⟨d, hd, heq⟩
    rw [← heq]
    exact (toLower_tokenChars d (h.right d hd)).left

theorem toAsciiLowercase_idem (h : IsToken s) :
    toAsciiLowercase (toAsciiLowercase s) = toAsciiLowercase s := by
  simp only [toAsciiLowercase, List.map_map]
  apply List.map_congr_left
  intro c hc
  exact (toLower_tokenChars c (h.right c hc)).right

structure HeaderName where
  text : Text
  isToken : IsToken text
  isLower : toAsciiLowercase text = text
  deriving DecidableEq

namespace HeaderName

def maxLen : Nat := 2 ^ 16 - 1

/-- `HeaderName::from_bytes`: names are case-insensitive. -/
def fromBytes (s : Text) : Option HeaderName :=
  if h : IsToken s ∧ s.length ≤ maxLen then
    some
      { text := toAsciiLowercase s
        isToken := isToken_toAsciiLowercase h.left
        isLower := toAsciiLowercase_idem h.left }
  else none

theorem fromBytes_text {name : HeaderName} (h : name.text.length ≤ maxLen) :
    fromBytes name.text = some name := by
  unfold fromBytes
  rw [dif_pos ⟨name.isToken, h⟩]
  cases name with
  | mk text isToken isLower =>
    congr

theorem text_of_fromBytes {s : Text} {name : HeaderName}
    (h : fromBytes s = some name) : name.text = toAsciiLowercase s := by
  unfold fromBytes at h
  split at h
  · injection h with h
    rw [← h]
  · cases h

end HeaderName

/-- The header name with a text that is a token in lower case. -/
def headerName (s : String) (htoken : IsToken s.toList := by decide)
    (hlower : toAsciiLowercase s.toList = s.toList := by decide) : HeaderName :=
  { text := s.toList, isToken := htoken, isLower := hlower }

def isValueByte (b : UInt8) : Bool :=
  (32 ≤ b && b ≠ 127) || b == 9

def isVisibleAscii (b : UInt8) : Bool :=
  (32 ≤ b && b < 127) || b == 9

structure HeaderValue where
  bytes : List UInt8
  valid : bytes.all isValueByte = true
  deriving DecidableEq

namespace HeaderValue

def toStr (v : HeaderValue) : Option Text :=
  if v.bytes.all isVisibleAscii then
    some (v.bytes.map (fun b => Char.ofNat b.toNat))
  else none

def fromUtf8 (v : HeaderValue) : Option Text :=
  (String.fromUTF8? (ByteArray.mk v.bytes.toArray)).map String.toList

/-- `HeaderValue::from_str`: the bytes of the text have to be valid. -/
def fromStr (s : Text) : Option HeaderValue :=
  let bytes := (String.ofList s).toByteArray.data.toList
  if h : bytes.all isValueByte = true then some { bytes := bytes, valid := h }
  else none

variable {v : HeaderValue}

theorem fromUtf8_of_fromStr (h : fromStr s = some v) : v.fromUtf8 = some s := by
  unfold fromStr at h
  dsimp only at h
  split at h
  · injection h with hv
    unfold fromUtf8 String.fromUTF8?
    rw [← hv]
    dsimp only
    rw [Array.toArray_toList]
    exact (congrArg (Option.map String.toList) (dif_pos (String.ofList s).isValidUTF8)).trans
        (congrArg some String.toList_ofList)
  · cases h

theorem utf8_of_fromUtf8 (h : v.fromUtf8 = some s) : utf8 s = v.bytes := by
  unfold fromUtf8 String.fromUTF8? at h
  split at h
  · injection h with hs
    rw [← toByteArray_ofList, ← hs, String.ofList_toList]
    rfl
  · cases h

theorem fromStr_eq_some (h : (utf8 s).all isValueByte = true) :
    exists v, fromStr s = some v := by
  unfold fromStr
  dsimp only
  rw [toByteArray_ofList]
  rw [dif_pos h]
  exact ⟨_, rfl⟩

def len (v : HeaderValue) : Nat :=
  v.bytes.length

theorem toStr_length (h : v.toStr = some s) :
    s.length = v.len := by
  unfold toStr at h
  split at h
  · injection h with hs
    rw [← hs, List.length_map, len]
  · cases h

end HeaderValue

abbrev HeaderMap := List (HeaderName × HeaderValue)

namespace HeaderMap

def getAll (headers : HeaderMap) (name : HeaderName) : List HeaderValue :=
  (headers.filter (fun line => line.1 = name)).map Prod.snd

def get (headers : HeaderMap) (name : HeaderName) : Option HeaderValue :=
  (getAll headers name).head?

theorem getAll_singleton_self (name : HeaderName) (v : HeaderValue) :
    getAll [(name, v)] name = [v] := by
  simp [getAll]

variable {name other : HeaderName}

theorem getAll_singleton_of_ne (h : other ≠ name)
    (v : HeaderValue) : getAll [(name, v)] other = [] := by
  simp [getAll, h.symm]

/-- The line replaces all lines of the name. -/
def insert (headers : HeaderMap) (name : HeaderName) (v : HeaderValue) : HeaderMap :=
  headers.filter (fun line => line.1 ≠ name) ++ [(name, v)]

/-- Remove all lines of a name.  A text that is not a name has none. -/
def remove (headers : HeaderMap) (text : Text) : HeaderMap :=
  match HeaderName.fromBytes text with
  | none => headers
  | some name => headers.filter (fun line => line.1 ≠ name)

theorem getAll_without_self (headers : HeaderMap) (name : HeaderName) :
    getAll (headers.filter (fun line => line.1 ≠ name)) name = [] := by
  unfold getAll
  rw [List.filter_filter, List.map_eq_nil_iff, List.filter_eq_nil_iff]
  intro headerLine _ hboth
  simp at hboth

theorem getAll_without_of_ne (h : other ≠ name) (headers : HeaderMap) :
    getAll (headers.filter (fun line => line.1 ≠ name)) other = getAll headers other := by
  unfold getAll
  rw [List.filter_filter]
  congr 1
  refine List.filter_congr ?_
  intro headerLine _
  rcases Decidable.em (headerLine.1 = other) with hline | hline
  · rw [hline]
    simp [h]
  · simp [hline]

theorem getAll_append (first second : HeaderMap) (name : HeaderName) :
    getAll (first ++ second) name = getAll first name ++ getAll second name := by
  unfold getAll
  rw [List.filter_append, List.map_append]

theorem getAll_insert_self (headers : HeaderMap) (name : HeaderName)
    (v : HeaderValue) : getAll (insert headers name v) name = [v] := by
  unfold insert
  rw [getAll_append, getAll_without_self, getAll_singleton_self]
  rfl

theorem getAll_insert_of_ne (h : other ≠ name) (headers : HeaderMap) (v : HeaderValue) :
    getAll (insert headers name v) other = getAll headers other := by
  unfold insert
  rw [getAll_append, getAll_without_of_ne h, getAll_singleton_of_ne h, List.append_nil]

theorem getAll_remove (headers : HeaderMap) (text : Text) (name : HeaderName) :
    getAll (remove headers text) name =
      if HeaderName.fromBytes text = some name then []
      else getAll headers name := by
  unfold remove
  cases HeaderName.fromBytes text with
  | none => rfl
  | some removed =>
    dsimp only
    rcases Decidable.em (removed = name) with rfl | hne
    · rw [if_pos rfl, getAll_without_self]
    · rw [if_neg (fun h => hne (Option.some.inj h)), getAll_without_of_ne (Ne.symm hne)]

end HeaderMap

/-! A text of visible ASCII characters is the text of a header value. -/

def IsVisible (s : Text) : Prop :=
  forall c, c ∈ s -> 32 ≤ c.toNat ∧ c.toNat < 127

instance (s : Text) : Decidable (IsVisible s) :=
  List.decidableBAll _ s

theorem isVisibleAscii_ofNat {n : Nat} (hlow : 32 ≤ n) (hhigh : n < 127) :
    isVisibleAscii (UInt8.ofNat n) = true := by
  have hbyte : (UInt8.ofNat n).toNat = n := by
    rw [UInt8.toNat_ofNat']
    lia
  simp only [isVisibleAscii, Bool.or_eq_true, Bool.and_eq_true,
    decide_eq_true_eq, UInt8.le_iff_toNat_le, UInt8.lt_iff_toNat_lt, hbyte]
  exact Or.inl ⟨hlow, hhigh⟩

theorem isVisibleAscii_lt {b : UInt8} (h : isVisibleAscii b = true) : b < 128 := by
  simp only [isVisibleAscii, Bool.or_eq_true, Bool.and_eq_true, decide_eq_true_eq, beq_iff_eq] at h
  rcases h with ⟨_, hhigh⟩ | htab
  · exact UInt8.lt_trans hhigh (by decide)
  · rw [htab]
    decide

theorem isValueByte_of_isVisibleAscii {b : UInt8}
    (h : isVisibleAscii b = true) : isValueByte b = true := by
  simp only [isVisibleAscii, isValueByte, Bool.or_eq_true, Bool.and_eq_true,
    decide_eq_true_eq] at h ⊢
  rcases h with ⟨hlow, hhigh⟩ | htab
  · exact Or.inl ⟨hlow, UInt8.ne_of_lt hhigh⟩
  · exact Or.inr htab

def HeaderValue.ofText (s : Text) (h : IsVisible s) : HeaderValue where
  bytes := s.map (fun c => UInt8.ofNat c.toNat)
  valid := by
    rw [List.all_map, List.all_eq_true]
    intro c hc
    exact isValueByte_of_isVisibleAscii (isVisibleAscii_ofNat (h c hc).left (h c hc).right)

def line (s : String) (h : IsVisible s.toList := by decide) : HeaderValue :=
  HeaderValue.ofText s.toList h

theorem HeaderValue.toStr_ofText (s : Text) (h : IsVisible s) :
    (HeaderValue.ofText s h).toStr = some s := by
  have hall : (s.map (fun c => UInt8.ofNat c.toNat)).all isVisibleAscii =
      true := by
    rw [List.all_map, List.all_eq_true]
    intro c hc
    exact isVisibleAscii_ofNat (h c hc).left (h c hc).right
  simp only [toStr, ofText, hall, if_true, List.map_map, Option.some.injEq]
  rw [← List.map_id s, List.map_map]
  apply List.map_congr_left
  intro c hc
  have hbyte : (UInt8.ofNat c.toNat).toNat = c.toNat := by
    rw [UInt8.toNat_ofNat']
    have hhigh := (h c hc).right
    lia
  simp only [Function.comp_apply, id_eq, hbyte, Char.ofNat_toNat]

theorem HeaderValue.fromStr_of_toStr {v : HeaderValue}
    (h : v.toStr = some s) : fromStr s = some v := by
  unfold toStr at h
  split at h
  · rename_i hvisible
    injection h with hs
    have hbytes : (String.ofList s).toByteArray.data.toList = v.bytes := by
      rw [toByteArray_ofList, ← hs]
      exact utf8_ascii (fun b hb =>
        isVisibleAscii_lt (List.all_eq_true.mp hvisible b hb))
    unfold fromStr
    dsimp only
    rw [dif_pos (by rw [hbytes]; exact v.valid)]
    congr
  · cases h

end Http
end PrxWaf
