import PrxWaf.Lib.Text

/-!
# UTF-8

A text is encoded character by character.  The lossy decoder reads one byte at a
time: it keeps what it has of a character that is not complete, and writes a
replacement character when the next byte cannot belong to it.  What was encoded is
decoded to itself.
-/

namespace PrxWaf
namespace Lib

def utf8 (s : Text) : List UInt8 :=
  s.flatMap String.utf8EncodeChar

variable (c : Char) (s : Text) (rest : List UInt8) {bytes : List UInt8} {code : Nat}
  {low high : UInt8}

theorem utf8_cons :
    utf8 (c :: s) = String.utf8EncodeChar c ++ utf8 s :=
  List.flatMap_cons

theorem utf8_append (t : Text) : utf8 (s ++ t) = utf8 s ++ utf8 t :=
  List.flatMap_append

theorem toByteArray_ofList :
    (String.ofList s).toByteArray.data.toList = utf8 s := by
  rw [String.toByteArray_ofList, List.utf8Encode, List.data_toByteArray, List.toList_toArray, utf8]

variable {n : Nat} {b : UInt8}

theorem toNat_val_ofNat (h : n.isValidChar) :
    (Char.ofNat n).val.toNat = n := by
  have htoNat := Char.toNat_ofNat n
  rw [if_pos h] at htoNat
  exact htoNat

theorem utf8EncodeChar_ascii (h : b < 128) :
    String.utf8EncodeChar (Char.ofNat b.toNat) = [b] := by
  have hlow : b.toNat < 128 := UInt8.lt_iff_toNat_lt.mp h
  have hval := toNat_val_ofNat (n := b.toNat) (Or.inl (by lia))
  unfold String.utf8EncodeChar
  dsimp only
  rw [hval, if_pos (by lia), UInt8.ofNat_toNat]

theorem utf8_ascii (h : forall b, b ∈ bytes -> b < 128) :
    utf8 (bytes.map (fun b => Char.ofNat b.toNat)) = bytes := by
  induction bytes with
  | nil => rfl
  | cons b rest ih =>
    rw [List.map_cons, utf8_cons, utf8EncodeChar_ascii (h b List.mem_cons_self),
      ih (fun c hc => h c (List.mem_cons_of_mem b hc))]
    rfl

def replacementChar : Char :=
  Char.ofNat 0xFFFD

/-- What is known of a character that is not complete: the bits so far, the bytes
that it still needs and the range of the next of them. -/
structure PartialChar where
  code : Nat
  owed : Nat
  low : UInt8
  high : UInt8
  deriving DecidableEq

/-- A byte between characters. -/
def beginChar (b : UInt8) : Text × Option PartialChar :=
  if b < 0x80 then ([Char.ofNat b.toNat], none)
  else if b < 0xC2 then ([replacementChar], none)
  else if b < 0xE0 then ([], some ⟨b.toNat % 32, 1, 0x80, 0xBF⟩)
  else if b = 0xE0 then ([], some ⟨0, 2, 0xA0, 0xBF⟩)
  else if b = 0xED then ([], some ⟨13, 2, 0x80, 0x9F⟩)
  else if b < 0xF0 then ([], some ⟨b.toNat % 16, 2, 0x80, 0xBF⟩)
  else if b = 0xF0 then ([], some ⟨0, 3, 0x90, 0xBF⟩)
  else if b < 0xF4 then ([], some ⟨b.toNat % 8, 3, 0x80, 0xBF⟩)
  else if b = 0xF4 then ([], some ⟨4, 3, 0x80, 0x8F⟩)
  else ([replacementChar], none)

/-- The next byte of a character.  A byte that cannot belong to it begins
another. -/
def continueChar (p : PartialChar) (b : UInt8) : Text × Option PartialChar :=
  if p.low ≤ b ∧ b ≤ p.high then
    let code := p.code * 64 + b.toNat % 64
    if p.owed = 1 then ([Char.ofNat code], none)
    else ([], some ⟨code, p.owed - 1, 0x80, 0xBF⟩)
  else
    let begun := beginChar b
    (replacementChar :: begun.1, begun.2)

def lossyFrom : Option PartialChar -> List UInt8 -> Text
  | none, [] => []
  | some _, [] => [replacementChar]
  | none, b :: rest =>
    let begun := beginChar b
    begun.1 ++ lossyFrom begun.2 rest
  | some p, b :: rest =>
    let continued := continueChar p b
    continued.1 ++ lossyFrom continued.2 rest

/-- `String::from_utf8_lossy`. -/
def fromUtf8Lossy (bytes : List UInt8) : Text :=
  lossyFrom none bytes

/-! ## What was encoded -/

theorem lossyFrom_begin {p : PartialChar} (h : beginChar b = ([], some p)) :
    lossyFrom none (b :: rest) = lossyFrom (some p) rest := by
  rw [lossyFrom, h]
  rfl

theorem lossyFrom_continue (owed : Nat)
    (rest : List UInt8) (hlow : low ≤ b) (hhigh : b ≤ high) (hcode : code * 64 + b.toNat % 64 = n) :
    lossyFrom (some ⟨code, owed + 2, low, high⟩) (b :: rest) =
      lossyFrom (some ⟨n, owed + 1, 0x80, 0xBF⟩) rest := by
  rw [lossyFrom, continueChar, if_pos ⟨hlow, hhigh⟩, hcode]
  rfl

theorem lossyFrom_last (hlow : low ≤ b) (hhigh : b ≤ high) (hcode : code * 64 + b.toNat % 64 = n) :
    lossyFrom (some ⟨code, 1, low, high⟩) (b :: rest) = Char.ofNat n :: lossyFrom none rest := by
  rw [lossyFrom, continueChar, if_pos ⟨hlow, hhigh⟩, hcode]
  rfl

theorem toNat_ofNat_byte (h : n < 256) : (UInt8.ofNat n).toNat = n := by
  rw [UInt8.toNat_ofNat']
  exact Nat.mod_eq_of_lt h

theorem beginChar_two (hlow : 2 ≤ n) (hhigh : n < 32) :
    beginChar (UInt8.ofNat (n + 192)) = ([], some ⟨n, 1, 0x80, 0xBF⟩) := by
  interval_cases n <;> rfl

theorem beginChar_three (h : n < 16) :
    beginChar (UInt8.ofNat (n + 224)) =
      ([], some ⟨n, 2, if n = 0 then 0xA0 else 0x80,
        if n = 13 then 0x9F else 0xBF⟩) := by
  interval_cases n <;> rfl

theorem beginChar_four (h : n < 5) :
    beginChar (UInt8.ofNat (n + 240)) =
      ([], some ⟨n, 3, if n = 0 then 0x90 else 0x80,
        if n = 4 then 0x8F else 0xBF⟩) := by
  interval_cases n <;> rfl

theorem continuation_toNat (h : n < 64) :
    (UInt8.ofNat (n + 128)).toNat = n + 128 ∧ (UInt8.ofNat (n + 128)).toNat % 64 = n := by
  rw [toNat_ofNat_byte (by lia)]
  exact ⟨rfl, by lia⟩

theorem continuation_range (h : n < 64) :
    0x80 ≤ UInt8.ofNat (n + 128) ∧ UInt8.ofNat (n + 128) ≤ 0xBF := by
  have hbyte := (continuation_toNat h).1
  have hlow : (0x80 : UInt8).toNat = 128 := rfl
  have hhigh : (0xBF : UInt8).toNat = 191 := rfl
  rw [UInt8.le_iff_toNat_le, UInt8.le_iff_toNat_le, hbyte, hlow, hhigh]
  lia

theorem lossyFrom_two (hlow : 128 ≤ n) (hhigh : n ≤ 2047) :
    lossyFrom none (UInt8.ofNat (n / 64 % 32 + 192) :: UInt8.ofNat (n % 64 + 128) :: rest) =
      Char.ofNat n :: lossyFrom none rest := by
  have hlast : n % 64 < 64 := Nat.mod_lt _ (by decide)
  have hrange := continuation_range hlast
  rw [lossyFrom_begin _ (beginChar_two (by lia) (by lia))]
  refine lossyFrom_last rest hrange.1 hrange.2 ?_
  rw [(continuation_toNat hlast).2]
  lia

theorem lossyFrom_three (hlow : 2048 ≤ n) (hhigh : n ≤ 65535) (hvalid : n < 0xD800 ∨ 0xDFFF < n) :
    lossyFrom none (UInt8.ofNat (n / 4096 % 16 + 224) ::
        UInt8.ofNat (n / 64 % 64 + 128) :: UInt8.ofNat (n % 64 + 128) :: rest) =
      Char.ofNat n :: lossyFrom none rest := by
  have hlast : n % 64 < 64 := Nat.mod_lt _ (by decide)
  have hmid : n / 64 % 64 < 64 := Nat.mod_lt _ (by decide)
  have hbyte := (continuation_toNat hmid).1
  have hsecondLow : (if n / 4096 % 16 = 0 then 0xA0 else 0x80) ≤
      UInt8.ofNat (n / 64 % 64 + 128) := by
    split
    · have hbound : (0xA0 : UInt8).toNat = 160 := rfl
      rw [UInt8.le_iff_toNat_le, hbyte, hbound]
      lia
    · exact (continuation_range hmid).1
  have hsecondHigh : UInt8.ofNat (n / 64 % 64 + 128) ≤
      (if n / 4096 % 16 = 13 then 0x9F else 0xBF) := by
    split
    · have hbound : (0x9F : UInt8).toNat = 159 := rfl
      rw [UInt8.le_iff_toNat_le, hbyte, hbound]
      lia
    · exact (continuation_range hmid).2
  have hsecond : n / 4096 % 16 * 64 + (UInt8.ofNat (n / 64 % 64 + 128)).toNat % 64 = n / 64 := by
    rw [(continuation_toNat hmid).2]
    lia
  have hthird : n / 64 * 64 + (UInt8.ofNat (n % 64 + 128)).toNat % 64 = n := by
    rw [(continuation_toNat hlast).2]
    lia
  have hrange := continuation_range hlast
  rw [lossyFrom_begin _ (beginChar_three (by lia))]
  refine (lossyFrom_continue 0 _ hsecondLow hsecondHigh hsecond).trans ?_
  exact lossyFrom_last rest hrange.1 hrange.2 hthird

theorem lossyFrom_four (hlow : 65536 ≤ n) (hhigh : n < 0x110000) :
    lossyFrom none (UInt8.ofNat (n / 262144 % 8 + 240) ::
        UInt8.ofNat (n / 4096 % 64 + 128) :: UInt8.ofNat (n / 64 % 64 + 128) ::
        UInt8.ofNat (n % 64 + 128) :: rest) = Char.ofNat n :: lossyFrom none rest := by
  have hlast : n % 64 < 64 := Nat.mod_lt _ (by decide)
  have hmid : n / 64 % 64 < 64 := Nat.mod_lt _ (by decide)
  have hfront : n / 4096 % 64 < 64 := Nat.mod_lt _ (by decide)
  have hbyte := (continuation_toNat hfront).1
  have hsecondLow : (if n / 262144 % 8 = 0 then 0x90 else 0x80) ≤
      UInt8.ofNat (n / 4096 % 64 + 128) := by
    split
    · have hbound : (0x90 : UInt8).toNat = 144 := rfl
      rw [UInt8.le_iff_toNat_le, hbyte, hbound]
      lia
    · exact (continuation_range hfront).1
  have hsecondHigh : UInt8.ofNat (n / 4096 % 64 + 128) ≤
      (if n / 262144 % 8 = 4 then 0x8F else 0xBF) := by
    split
    · have hbound : (0x8F : UInt8).toNat = 143 := rfl
      rw [UInt8.le_iff_toNat_le, hbyte, hbound]
      lia
    · exact (continuation_range hfront).2
  have hsecond : n / 262144 % 8 * 64 +
      (UInt8.ofNat (n / 4096 % 64 + 128)).toNat % 64 = n / 4096 := by
    rw [(continuation_toNat hfront).2]
    lia
  have hthird : n / 4096 * 64 + (UInt8.ofNat (n / 64 % 64 + 128)).toNat % 64 = n / 64 := by
    rw [(continuation_toNat hmid).2]
    lia
  have hfourth : n / 64 * 64 + (UInt8.ofNat (n % 64 + 128)).toNat % 64 = n := by
    rw [(continuation_toNat hlast).2]
    lia
  have hmidRange := continuation_range hmid
  have hrange := continuation_range hlast
  rw [lossyFrom_begin _ (beginChar_four (by lia))]
  refine (lossyFrom_continue 1 _ hsecondLow hsecondHigh hsecond).trans ?_
  refine (lossyFrom_continue 0 _ hmidRange.1 hmidRange.2 hthird).trans ?_
  exact lossyFrom_last rest hrange.1 hrange.2 hfourth

theorem lossyFrom_encodeChar :
    lossyFrom none (String.utf8EncodeChar c ++ rest) = c :: lossyFrom none rest := by
  have hchar : Char.ofNat c.val.toNat = c := Char.ofNat_toNat c
  have hvalid : c.val.toNat < 0xD800 ∨ 0xDFFF < c.val.toNat ∧ c.val.toNat < 0x110000 := c.valid
  unfold String.utf8EncodeChar
  dsimp only
  split
  · rename_i hone
    have hbyte := toNat_ofNat_byte (n := c.val.toNat) (by lia)
    have hbegin : beginChar (UInt8.ofNat c.val.toNat) = ([c], none) := by
      have hbound : (0x80 : UInt8).toNat = 128 := rfl
      unfold beginChar
      rw [if_pos (by rw [UInt8.lt_iff_toNat_lt, hbyte, hbound]; lia), hbyte, hchar]
    rw [List.singleton_append, lossyFrom, hbegin]
    rfl
  · split
    · rename_i hone htwo
      exact (lossyFrom_two rest (by lia) htwo).trans (by rw [hchar])
    · split
      · rename_i htwo hthree
        exact (lossyFrom_three rest (by lia) hthree (by lia)).trans (by rw [hchar])
      · exact (lossyFrom_four rest (by lia) (by lia)).trans (by rw [hchar])

/-- The bytes of a text are decoded to the text. -/
theorem fromUtf8Lossy_utf8 : fromUtf8Lossy (utf8 s) = s := by
  unfold fromUtf8Lossy
  induction s with
  | nil => rfl
  | cons c rest ih => rw [utf8_cons, lossyFrom_encodeChar, ih]

theorem utf8_injective {s t : Text} (h : utf8 s = utf8 t) : s = t := by
  rw [← fromUtf8Lossy_utf8 s, h, fromUtf8Lossy_utf8]

/-- A character that breaks off is replaced once, and the byte behind it is read
again. -/
example : fromUtf8Lossy [0xE2, 0x82, 0x41, 0xFF, 0x42] =
    [replacementChar, 'A', replacementChar, 'B'] := by decide

def replacementBytes : List UInt8 :=
  [0xEF, 0xBF, 0xBD]

/-- The places at which the bytes of a replacement character begin. -/
def replacements : List UInt8 -> Nat
  | [] => 0
  | b :: rest =>
    (if replacementBytes <+: b :: rest then 1 else 0) + replacements rest

theorem replacements_cons_of_ne (h : b ≠ 0xEF) : replacements (b :: rest) = replacements rest := by
  rw [replacements, if_neg, Nat.zero_add]
  intro hprefix
  exact h (List.cons_prefix_cons.mp hprefix).1.symm

theorem replacements_append :
    replacements (replacementBytes ++ rest) = replacements rest + 1 := by
  have hfirst : replacements (replacementBytes ++ rest) = 1 + replacements (0xBF :: 0xBD :: rest) :=
    congrArg (· + replacements (0xBF :: 0xBD :: rest))
      (if_pos (List.prefix_append replacementBytes rest))
  rw [hfirst, replacements_cons_of_ne _ (by decide), replacements_cons_of_ne _ (by decide)]
  exact Nat.add_comm 1 _

/-- The decoder waits for bytes that do not begin a character. -/
def Waits (state : Option PartialChar) : Prop :=
  forall p, state = some p -> p.high ≤ 0xBF

theorem waits_none : Waits none :=
  fun _ h => nomatch h

theorem waits_some (code owed : Nat) (low : UInt8) {high : UInt8}
    (h : high ≤ 0xBF) : Waits (some ⟨code, owed, low, high⟩) := by
  rintro _ ⟨rfl⟩
  exact h

theorem waits_beginChar (b : UInt8) : Waits (beginChar b).2 := by
  unfold beginChar
  split_ifs
  all_goals first | exact waits_none | exact waits_some _ _ _ (by decide)

theorem waits_continueChar (p : PartialChar) (b : UInt8) :
    Waits (continueChar p b).2 := by
  unfold continueChar
  dsimp only
  split_ifs
  · exact waits_none
  · exact waits_some _ _ _ (by decide)
  · exact waits_beginChar b

theorem lossyFrom_cons (state : Option PartialChar) (b : UInt8) :
    exists out next, Waits next ∧ forall rest,
      lossyFrom state (b :: rest) = out ++ lossyFrom next rest := by
  cases state with
  | none => exact ⟨_, _, waits_beginChar b, fun _ => rfl⟩
  | some p => exact ⟨_, _, waits_continueChar p b, fun _ => rfl⟩

theorem lossyFrom_replacementBytes {state : Option PartialChar}
    (h : Waits state) (rest : List UInt8) :
    exists out, lossyFrom state (replacementBytes ++ rest) =
      out ++ replacementChar :: lossyFrom none rest := by
  have hread : lossyFrom none (replacementBytes ++ rest) =
      replacementChar :: lossyFrom none rest := lossyFrom_encodeChar replacementChar rest
  cases state with
  | none => exact ⟨[], hread⟩
  | some p =>
    have hhigh := h p rfl
    have hbegin : lossyFrom (some p) (replacementBytes ++ rest) =
        replacementChar :: lossyFrom none (replacementBytes ++ rest) := by
      have hout : ¬ (p.low ≤ 0xEF ∧ 0xEF ≤ p.high) := by
        intro hboth
        exact absurd (UInt8.le_trans hboth.2 hhigh) (by decide)
      have hagain : continueChar p 0xEF =
          (replacementChar :: (beginChar 0xEF).1, (beginChar 0xEF).2) := if_neg hout
      have hstep : lossyFrom (some p) (replacementBytes ++ rest) = (continueChar p 0xEF).1 ++
            lossyFrom (continueChar p 0xEF).2 ([0xBF, 0xBD] ++ rest) := rfl
      rw [hstep, hagain]
      rfl
    exact ⟨[replacementChar], by rw [hbegin, hread]; rfl⟩

theorem replacements_le_count (bytes : List UInt8) {state : Option PartialChar} (h : Waits state) :
    replacements bytes ≤ (lossyFrom state bytes).count replacementChar := by
  induction hn : bytes.length using Nat.strong_induction_on generalizing bytes state with
  | _ n ih =>
    cases bytes with
    | nil => exact Nat.zero_le _
    | cons b rest =>
      rcases Decidable.em (replacementBytes <+: b :: rest) with ⟨later, hlater⟩ | hno
      · obtain ⟨out, hout⟩ := lossyFrom_replacementBytes h later
        have hle := ih later.length (by
          rw [← hn, ← hlater, List.length_append]
          exact Nat.lt_add_of_pos_left (by decide)) later waits_none rfl
        rw [← hlater, replacements_append, hout, List.count_append, List.count_cons_self]
        lia
      · obtain ⟨out, next, hnext, hout⟩ := lossyFrom_cons state b
        have hle := ih rest.length (by rw [← hn]; exact Nat.lt_succ_self _) rest hnext rfl
        rw [replacements, if_neg hno, hout, List.count_append]
        lia

theorem replacements_le_append (front rest : List UInt8) :
    replacements rest ≤ replacements (front ++ rest) := by
  induction front with
  | nil => exact Nat.le_refl _
  | cons b front ih => exact ih.trans (Nat.le_add_left _ _)

theorem count_le_replacements :
    s.count replacementChar ≤ replacements (utf8 s) := by
  induction s with
  | nil => exact Nat.zero_le _
  | cons c rest ih =>
    rw [utf8_cons]
    rcases Decidable.em (c = replacementChar) with rfl | hne
    · have hbytes : String.utf8EncodeChar replacementChar =
          replacementBytes := by decide
      rw [hbytes, replacements_append, List.count_cons_self]
      exact Nat.succ_le_succ ih
    · rw [List.count_cons_of_ne hne]
      exact ih.trans (replacements_le_append _ _)

/-! ## Stray bytes -/

/-- Every byte of the text is a character of its own. -/
def IsAscii (s : Text) : Prop :=
  forall b, b ∈ utf8 s -> b < 128

def isContinuation (b : UInt8) : Bool :=
  0x80 ≤ b && b < 0xC0

/-- A byte that does not begin a character of several bytes, by itself. -/
def strayChar (b : UInt8) : Char :=
  if b < 0x80 then Char.ofNat b.toNat else replacementChar

theorem fromUtf8Lossy_stray (h : forall b, b ∈ bytes -> b < 0xC2) :
    fromUtf8Lossy bytes = bytes.map strayChar := by
  unfold fromUtf8Lossy
  induction bytes with
  | nil => rfl
  | cons b rest ih =>
    have hbegin : beginChar b = ([strayChar b], none) := by
      unfold beginChar strayChar
      rcases Decidable.em (b < 0x80) with hlow | hhigh
      · rw [if_pos hlow, if_pos hlow]
      · rw [if_neg hhigh, if_neg hhigh, if_pos (h b List.mem_cons_self)]
    rw [lossyFrom, hbegin, ih (fun c hc => h c (List.mem_cons_of_mem b hc))]
    rfl

theorem ofNat_ne_replacementChar (h : b < 128) :
    Char.ofNat b.toNat ≠ replacementChar := by
  have hlow : b.toNat < 128 := UInt8.lt_iff_toNat_lt.mp h
  intro heq
  have hval := toNat_val_ofNat (n := b.toNat) (Or.inl (by lia))
  have hreplaced : replacementChar.val.toNat = 0xFFFD := by decide
  rw [heq, hreplaced] at hval
  lia

theorem count_map_strayChar (bytes : List UInt8) :
    (bytes.map strayChar).count replacementChar = bytes.countP (fun b => 0x80 ≤ b) := by
  induction bytes with
  | nil => rfl
  | cons b rest ih =>
    rw [List.map_cons]
    rcases Decidable.em (b < 0x80) with hlow | hhigh
    · have hchar : strayChar b ≠ replacementChar := by
        unfold strayChar
        rw [if_pos hlow]
        exact ofNat_ne_replacementChar hlow
      rw [List.count_cons_of_ne hchar, List.countP_cons_of_neg (by simpa using hlow), ih]
    · have hchar : strayChar b = replacementChar := if_neg hhigh
      rw [hchar, List.count_cons_self, List.countP_cons_of_pos (by simpa using hhigh), ih]

theorem isContinuation_last :
    isContinuation (UInt8.ofNat (c.val.toNat % 64 + 128)) = true := by
  have hrange := continuation_range (Nat.mod_lt c.val.toNat (by decide : 64 > 0))
  unfold isContinuation
  rw [Bool.and_eq_true, decide_eq_true_eq, decide_eq_true_eq]
  exact ⟨hrange.1, UInt8.lt_of_le_of_lt hrange.2 (by decide)⟩

/-- A character is one byte, or goes on for longer than it counts as a
replacement. -/
theorem utf8EncodeChar_cases :
    (exists b, String.utf8EncodeChar c = [b] ∧ b < 128 ∧ c ≠ replacementChar) ∨
      [c].count replacementChar < (String.utf8EncodeChar c).countP isContinuation := by
  rcases Decidable.em (c = replacementChar) with rfl | hne
  · exact Or.inr (by decide)
  · have hlast : isContinuation (UInt8.ofNat (c.val.toNat % 64 + 128)) =
        true := isContinuation_last c
    rw [List.count_cons_of_ne hne, List.count_nil, List.countP_pos_iff]
    unfold String.utf8EncodeChar
    dsimp only
    split
    · rename_i hone
      refine Or.inl ⟨_, rfl, ?_, hne⟩
      rw [UInt8.lt_iff_toNat_lt, toNat_ofNat_byte (by lia)]
      exact Nat.lt_succ_of_le hone
    · refine Or.inr ⟨_, ?_, hlast⟩
      split
      · simp
      · split
        · simp
        · simp

theorem count_le_continuations :
    s.count replacementChar ≤ (utf8 s).countP isContinuation := by
  induction s with
  | nil => exact Nat.le_refl 0
  | cons c rest ih =>
    rw [utf8_cons, List.countP_append, ← List.singleton_append, List.count_append]
    rcases utf8EncodeChar_cases c with ⟨_, _, _, hne⟩ | hmore
    · rw [List.count_cons_of_ne hne, List.count_nil]
      lia
    · lia

/-- In a text of more than single bytes, more bytes go on with a character than
there are replacement characters. -/
theorem count_lt_continuations {s : Text} (h : ¬ IsAscii s) :
    s.count replacementChar < (utf8 s).countP isContinuation := by
  induction s with
  | nil => exact absurd (fun b hb => absurd hb List.not_mem_nil) h
  | cons c rest ih =>
    have hrest := count_le_continuations rest
    rw [utf8_cons, List.countP_append, ← List.singleton_append, List.count_append]
    rcases utf8EncodeChar_cases c with ⟨b, hbyte, hlow, hne⟩ | hmore
    · have hlater : ¬ IsAscii rest := by
        intro hascii
        refine h (fun a ha => ?_)
        rw [utf8_cons, hbyte] at ha
        rcases List.mem_cons.mp ha with hfirst | hmem
        · rw [hfirst]
          exact hlow
        · exact hascii a hmem
      rw [List.count_cons_of_ne hne, List.count_nil]
      have hlt := ih hlater
      lia
    · lia

end Lib
end PrxWaf
