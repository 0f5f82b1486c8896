import PrxWaf.Engine.DecodedWords
import PrxWaf.Engine.Patterns
import PrxWaf.Lib.Regex

/-!
# Directory traversal

The path and the query are compared with a set of patterns, as they came and decoded
once.  The patterns spell out some of the encodings of a traversal.
-/

namespace PrxWaf
namespace Engine
namespace DirTraversal

open Lib

/-! ## The patterns -/

def same (c d : Char) : Bool :=
  c = d

/-- The same letter of either case.  Two characters outside of ASCII fold to ASCII
letters: the long s and the Kelvin sign. -/
def sameFold (c d : Char) : Bool :=
  c.toLower = d.toLower || (c.toLower = 's' && d = '\u017f') || (c.toLower = 'k' && d = '\u212a')

def exactly (w : Text) : Regex :=
  .word same w

def folded (w : Text) : Regex :=
  .word sameFold w

/-- The class `[A-Za-z]` in either case. -/
def isDriveLetter (c : Char) : Bool :=
  c.isAlpha || c = '\u017f' || c = '\u212a'

def traversalDescs : List Text :=
  ["directory traversal (../)".toList,
    "URL-encoded traversal (%2e%2e)".toList,
    "double URL-encoded traversal (%252e%252e)".toList,
    "Unicode-encoded traversal".toList,
    "Windows backslash traversal (..\\)".toList,
    "null byte injection (%00)".toList,
    "absolute path to sensitive directory".toList,
    "Windows drive-letter path (C:\\)".toList]

def classic : Regex :=
  -- (\.\./|\.\.\\)
  .alt (exactly "../".toList) (exactly "..\\".toList)

def encodedDots : Regex :=
  -- (?i)%2e%2e(%2f|%5c|/|\\)
  .seq (folded "%2e%2e".toList)
    (.oneOf (folded "%2f".toList)
      [folded "%5c".toList, folded "/".toList, folded "\\".toList])

def doubleEncodedDots : Regex :=
  -- (?i)%252e%252e
  folded "%252e%252e".toList

def overlong : Regex :=
  -- (?i)\.\.((%c0%af)|(%c1%9c)|(%e0%80%af)|(%c0%9v))
  .seq (folded "..".toList)
    (.oneOf (folded "%c0%af".toList)
      [folded "%c1%9c".toList, folded "%e0%80%af".toList, folded "%c0%9v".toList])

def backslash : Regex :=
  -- \.\.\\
  exactly "..\\".toList

def nullByte : Regex :=
  -- %00
  exactly "%00".toList

def sensitiveDirectory : Regex :=
  -- (?i)/(etc|proc|var/log|usr/local|root|home|tmp|dev|sys)(/|$)
  .seq (folded "/".toList)
    (.seq
      (.oneOf (folded "etc".toList)
        [folded "proc".toList, folded "var/log".toList,
          folded "usr/local".toList, folded "root".toList,
          folded "home".toList, folded "tmp".toList, folded "dev".toList,
          folded "sys".toList])
      (.alt (folded "/".toList) .atEnd))

def driveLetter : Regex :=
  -- (?i)[A-Za-z]:\\
  .seq (.char isDriveLetter) (folded ":\\".toList)

def traversalSet : List Regex :=
  [classic, encodedDots, doubleEncodedDots, overlong, backslash, nullByte,
    sensitiveDirectory, driveLetter]

def Matched (s : Text) : Prop :=
  exists r, r ∈ traversalSet ∧ r.isMatch s = true

def report : PatternReport :=
  { code := "TRAV".toList
    ruleName := "Directory Traversal".toList
    phase := .dirTraversal
    descs := traversalDescs
    otherDesc := "path traversal".toList }

def candidates (ctx : InspectCtx) : List (Text × Text) :=
  [("path".toList, ctx.path),
    ("path(decoded)".toList, urlDecode ctx.path),
    ("query".toList, ctx.query),
    ("query(decoded)".toList, urlDecode ctx.query)]

def check (defense : DefenseConfig) (ctx : InspectCtx) : Option DetectionResult :=
  if defense.dirTraversal = false then none
  else
    (candidates ctx).findSome? (fun candidate =>
      if candidate.2 = [] then none
      else
        (PatternSet.firstMatch (traversalSet.map Regex.isMatch)
          candidate.2).map (fun idx => report.result idx candidate.1))

theorem firstMatch_isSome_iff {s : Text} :
    (PatternSet.firstMatch (traversalSet.map Regex.isMatch) s).isSome = true <-> Matched s := by
  rw [PatternSet.firstMatch_isSome_iff]
  constructor
  · rintro ⟨pattern, hmem, hmatch⟩
    obtain ⟨r, hr, rfl⟩ := List.mem_map.mp hmem
    exact ⟨r, hr, hmatch⟩
  · rintro ⟨r, hr, hmatch⟩
    exact ⟨r.isMatch, List.mem_map.mpr ⟨r, hr, rfl⟩, hmatch⟩

theorem not_matched_nil : ¬ Matched [] := by
  have hnone : traversalSet.all (fun r => !r.isMatch []) = true := by decide
  rintro ⟨r, hr, hmatch⟩
  have hno := List.all_eq_true.mp hnone r hr
  rw [hmatch] at hno
  cases hno

theorem check_isSome_iff {defense : DefenseConfig}
    (hon : defense.dirTraversal = true) (ctx : InspectCtx) :
    (check defense ctx).isSome = true <-> Matched ctx.path ∨ Matched (urlDecode ctx.path) ∨
        Matched ctx.query ∨ Matched (urlDecode ctx.query) := by
  have hcandidate : forall s location : Text,
      (if s = [] then none
        else (PatternSet.firstMatch (traversalSet.map Regex.isMatch) s).map
          (fun idx => report.result idx location)).isSome = true <->
        Matched s := by
    intro s location
    split
    · rename_i hnil
      rw [hnil]
      exact iff_of_false Bool.false_ne_true not_matched_nil
    · rw [Option.isSome_map]
      exact firstMatch_isSome_iff
  unfold check
  rw [if_neg (by rw [hon]; decide), List.findSome?_isSome_iff]
  simp only [candidates, List.mem_cons, List.not_mem_nil, or_false,
    exists_eq_or_imp, exists_eq_left, hcandidate]

/-- One way up, with a separator of either kind. -/
def Traverses (s : Text) : Prop :=
  "../".toList <:+: s ∨ "..\\".toList <:+: s

def encodedDotForms : List Text :=
  ["%2e".toList, "%2E".toList]

def plainSeparators : List Text :=
  ["/".toList, "\\".toList]

def encodedSeparators : List Text :=
  ["%2f".toList, "%2F".toList, "%5c".toList, "%5C".toList]

def IsDot (d : Text) : Prop :=
  d = ".".toList ∨ d ∈ encodedDotForms

def IsSeparator (d : Text) : Prop :=
  d ∈ plainSeparators ∨ d ∈ encodedSeparators

variable {d y : Text}

theorem isDot_iff :
    IsDot d <-> d ∈ (formsOf 0x2E).map asciiWord := by
  have hforms : (formsOf 0x2E).map asciiWord =
      ".".toList :: encodedDotForms := by decide
  rw [hforms, List.mem_cons]
  rfl

theorem isSeparator_iff :
    IsSeparator d <-> d ∈ (formsOf 0x2F).map asciiWord ∨ d ∈ (formsOf 0x5C).map asciiWord := by
  have hslash : (formsOf 0x2F).map asciiWord =
      ["/".toList, "%2f".toList, "%2F".toList] := by decide
  have hback : (formsOf 0x5C).map asciiWord =
      ["\\".toList, "%5c".toList, "%5C".toList] := by decide
  unfold IsSeparator plainSeparators encodedSeparators
  rw [hslash, hback]
  simp only [List.mem_cons, List.not_mem_nil, or_false]
  tauto

theorem infix_dots_iff {sep : UInt8} (hascii : sep < 0x80)
    (hpercent : sep ≠ percent) (hplus : sep ≠ plus) (hspace : sep ≠ 0x20) (y : Text) :
    asciiWord [0x2E, 0x2E, sep] <:+: urlDecode y <->
      exists first second last, first ∈ (formsOf 0x2E).map asciiWord ∧
        second ∈ (formsOf 0x2E).map asciiWord ∧ last ∈ (formsOf sep).map asciiWord ∧
        first ++ (second ++ last) <:+: y := by
  have hword : forall c, c ∈ [0x2E, 0x2E, sep] -> c < 0x80 ∧ c ≠ percent ∧ c ≠ 0x20 := by
    intro c hc
    simp only [List.mem_cons, List.not_mem_nil, or_false] at hc
    rcases hc with rfl | rfl | rfl
    · decide
    · decide
    · exact ⟨hascii, hpercent, hspace⟩
  rw [infix_urlDecode_iff (by decide) hword]
  constructor
  · rintro ⟨t, ht, hplace⟩
    obtain ⟨first, _, rfl, hfirst, ht⟩ := (encodes_cons_iff (by decide) (by decide)).mp ht
    obtain ⟨second, _, rfl, hsecond, ht⟩ := (encodes_cons_iff (by decide) (by decide)).mp ht
    obtain ⟨last, _, rfl, hlast, ht⟩ := (encodes_cons_iff hpercent hplus).mp ht
    cases ht
    refine ⟨_, _, _, List.mem_map_of_mem hfirst, List.mem_map_of_mem hsecond,
      List.mem_map_of_mem hlast, ?_⟩
    unfold asciiWord at hplace ⊢
    rw [List.append_nil, List.map_append, List.map_append] at hplace
    exact hplace
  · rintro ⟨_, _, _, hfirst, hsecond, hlast, hplace⟩
    obtain ⟨first, hdot, rfl⟩ := List.mem_map.mp hfirst
    obtain ⟨second, hdot', rfl⟩ := List.mem_map.mp hsecond
    obtain ⟨last, hsep, rfl⟩ := List.mem_map.mp hlast
    refine ⟨first ++ (second ++ last), ?_, ?_⟩
    · refine (encodes_cons_iff (by decide) (by decide)).mpr ⟨_, _, rfl, hdot, ?_⟩
      refine (encodes_cons_iff (by decide) (by decide)).mpr ⟨_, _, rfl, hdot', ?_⟩
      exact (encodes_cons_iff hpercent hplus).mpr
        ⟨last, [], (List.append_nil last).symm, hsep, .nil⟩
    · unfold asciiWord at hplace ⊢
      rw [List.map_append, List.map_append]
      exact hplace

theorem traverses_urlDecode_iff :
    Traverses (urlDecode y) <->
      exists first second last, IsDot first ∧ IsDot second ∧
        IsSeparator last ∧ first ++ (second ++ last) <:+: y := by
  have hslash := @infix_dots_iff 0x2F (by decide) (by decide) (by decide) (by decide) y
  have hback := @infix_dots_iff 0x5C (by decide) (by decide) (by decide) (by decide) y
  change asciiWord [0x2E, 0x2E, 0x2F] <:+: urlDecode y ∨
    asciiWord [0x2E, 0x2E, 0x5C] <:+: urlDecode y <-> _
  rw [hslash, hback]
  simp only [← isDot_iff]
  constructor
  · rintro (⟨first, second, last, hfirst, hsecond, hlast, hplace⟩ |
      ⟨first, second, last, hfirst, hsecond, hlast, hplace⟩)
    · exact ⟨first, second, last, hfirst, hsecond, isSeparator_iff.mpr (Or.inl hlast), hplace⟩
    · exact ⟨first, second, last, hfirst, hsecond, isSeparator_iff.mpr (Or.inr hlast), hplace⟩
  · rintro ⟨first, second, last, hfirst, hsecond, hlast, hplace⟩
    rcases isSeparator_iff.mp hlast with hlast | hlast
    · exact Or.inl ⟨first, second, last, hfirst, hsecond, hlast, hplace⟩
    · exact Or.inr ⟨first, second, last, hfirst, hsecond, hlast, hplace⟩

theorem takes_exactly (w back : Text) : Regex.Takes (exactly w) w back := by
  refine Regex.takes_word ?_ back
  exact List.forall₂_same.mpr (fun c _ => decide_eq_true rfl)

theorem matched_of_traverses {s : Text} (h : Traverses s) : Matched s := by
  refine ⟨classic, List.mem_cons_self, ?_⟩
  rcases h with hslash | hback
  · exact Regex.isMatch_of_inside (fun back => .left (takes_exactly _ back)) hslash
  · exact Regex.isMatch_of_inside (fun back => .right (takes_exactly _ back)) hback

theorem folded_encodedDot (h : d ∈ encodedDotForms) :
    List.Forall₂ (fun c e => sameFold c e = true) "%2e".toList d := by
  simp only [encodedDotForms, List.mem_cons, List.not_mem_nil, or_false] at h
  rcases h with rfl | rfl
  · decide
  · decide

theorem folded_separator (h : IsSeparator d) :
    exists w, w ∈ ["%2f".toList, "%5c".toList, "/".toList, "\\".toList] ∧
      List.Forall₂ (fun c e => sameFold c e = true) w d := by
  simp only [IsSeparator, plainSeparators, encodedSeparators, List.mem_cons,
    List.not_mem_nil, or_false] at h
  rcases h with (rfl | rfl) | rfl | rfl | rfl | rfl
  · exact ⟨"/".toList, by decide, by decide⟩
  · exact ⟨"\\".toList, by decide, by decide⟩
  · exact ⟨"%2f".toList, by decide, by decide⟩
  · exact ⟨"%2f".toList, by decide, by decide⟩
  · exact ⟨"%5c".toList, by decide, by decide⟩
  · exact ⟨"%5c".toList, by decide, by decide⟩

theorem matched_of_encodedDots {first second last : Text}
    (hfirst : first ∈ encodedDotForms) (hsecond : second ∈ encodedDotForms)
    (hlast : IsSeparator last) (hplace : first ++ (second ++ last) <:+: y) :
    Matched y := by
  obtain ⟨w, hw, hsep⟩ := folded_separator hlast
  refine ⟨encodedDots, List.mem_cons_of_mem _ List.mem_cons_self, ?_⟩
  rw [← List.append_assoc] at hplace
  refine Regex.isMatch_of_inside (fun back => .seq ?_ ?_) hplace
  · exact Regex.takes_word (List.rel_append (folded_encodedDot hfirst)
      (folded_encodedDot hsecond)) (last ++ back)
  · refine Regex.takes_oneOf ?_ (Regex.takes_word hsep back)
    exact @List.mem_map_of_mem _ _ _ _ folded hw

/-- Some of the bytes of a traversal are encoded, but not both dots. -/
def PartlyEncoded (y : Text) : Prop :=
  exists first second last, IsDot first ∧ IsDot second ∧ IsSeparator last ∧
    (first = ".".toList ∨ second = ".".toList) ∧
    (first ∈ encodedDotForms ∨ second ∈ encodedDotForms ∨ last ∈ encodedSeparators) ∧
    first ++ (second ++ last) <:+: y

def HidesTraversal (x : Text) : Prop :=
  Traverses x ∨ Traverses (urlDecode x) ∨ Traverses (urlDecode (urlDecode x))

theorem matched_or_partlyEncoded (h : Traverses (urlDecode y)) :
    Matched y ∨ PartlyEncoded y := by
  obtain ⟨first, second, last, hfirst, hsecond, hlast, hplace⟩ := traverses_urlDecode_iff.mp h
  have hpartly : (first = ".".toList ∨ second = ".".toList) ->
      (first ∈ encodedDotForms ∨ second ∈ encodedDotForms ∨
        last ∈ encodedSeparators) -> PartlyEncoded y := fun hplain hcoded =>
    ⟨first, second, last, hfirst, hsecond, hlast, hplain, hcoded, hplace⟩
  rcases hfirst with rfl | hfirst
  · rcases hsecond with rfl | hsecond
    · rcases hlast with hlast | hlast
      · refine Or.inl (matched_of_traverses ?_)
        simp only [plainSeparators, List.mem_cons, List.not_mem_nil, or_false] at hlast
        rcases hlast with rfl | rfl
        · exact Or.inl hplace
        · exact Or.inr hplace
      · exact Or.inr (hpartly (Or.inl rfl) (Or.inr (Or.inr hlast)))
    · exact Or.inr (hpartly (Or.inl rfl) (Or.inr (Or.inl hsecond)))
  · rcases hsecond with rfl | hsecond
    · exact Or.inr (hpartly (Or.inr rfl) (Or.inl hfirst))
    · exact Or.inl (matched_of_encodedDots hfirst hsecond hlast hplace)

/-- A text is always found exactly when no traversal is partly encoded in it after
one decoding, unless the text matches for another reason. -/
theorem hidden_found_iff (x : Text) :
    (forall (defense : DefenseConfig) (ctx : InspectCtx),
      defense.dirTraversal = true -> (ctx.path = x ∨ ctx.query = x) ->
        HidesTraversal x -> (check defense ctx).isSome = true) <->
      (PartlyEncoded (urlDecode x) -> Matched x ∨ Matched (urlDecode x)) := by
  constructor
  · rintro h ⟨first, second, last, hfirst, hsecond, hlast, _, _, hplace⟩
    have hhidden : HidesTraversal x := Or.inr (Or.inr (traverses_urlDecode_iff.mpr
        ⟨first, second, last, hfirst, hsecond, hlast, hplace⟩))
    have hfound := h { sqli := true, dirTraversal := true }
      { plainCtx with path := x } rfl (Or.inl rfl) hhidden
    rcases (check_isSome_iff rfl _).mp hfound with hraw | hdecoded | hquery | hquery
    · exact Or.inl hraw
    · exact Or.inr hdecoded
    · exact absurd hquery not_matched_nil
    · exact absurd hquery not_matched_nil
  · intro h defense ctx hon hplace hhidden
    have hmatched : Matched x ∨ Matched (urlDecode x) := by
      rcases hhidden with hraw | hdecoded | htwice
      · exact Or.inl (matched_of_traverses hraw)
      · exact Or.inr (matched_of_traverses hdecoded)
      · rcases matched_or_partlyEncoded htwice with hmatched | hpartly
        · exact Or.inr hmatched
        · exact h hpartly
    rw [check_isSome_iff hon]
    rcases hplace with rfl | rfl
    · rcases hmatched with hraw | hdecoded
      · exact Or.inl hraw
      · exact Or.inr (Or.inl hdecoded)
    · rcases hmatched with hraw | hdecoded
      · exact Or.inr (Or.inr (Or.inl hraw))
      · exact Or.inr (Or.inr (Or.inr hdecoded))

/-- Only the separator is encoded twice. -/
theorem encoded_separator_missed :
    HidesTraversal "/..%252fx".toList ∧ check { sqli := true, dirTraversal := true }
        { plainCtx with path := "/..%252fx".toList } = none := by
  have htwice : urlDecode (urlDecode "/..%252fx".toList) = "/../x".toList := by
    decide +kernel
  refine ⟨Or.inr (Or.inr (Or.inl ?_)), by decide +kernel⟩
  rw [htwice]
  exact ⟨"/".toList, "x".toList, rfl⟩

end DirTraversal
end Engine
end PrxWaf
