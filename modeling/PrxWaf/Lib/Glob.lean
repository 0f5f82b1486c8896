import PrxWaf.Lib.Text

/-!
# Glob patterns

The patterns of key scans.  They and the keys are byte strings: a star stands for
any bytes, a question mark for one byte, brackets for one of some bytes or ranges,
and a backslash takes the byte after it literally.
-/

namespace PrxWaf
namespace Lib

namespace Glob

structure ByteClass where
  negated : Bool
  ranges : List (UInt8 × UInt8)
  deriving DecidableEq

/-- The ends of a range may stand in either order.  They are compared as the signed
characters of C. -/
def ByteClass.contains (cls : ByteClass) (b : UInt8) : Bool :=
  cls.ranges.any (fun range =>
    (range.1.toInt8 ≤ b.toInt8 && b.toInt8 ≤ range.2.toInt8) ||
      (range.2.toInt8 ≤ b.toInt8 && b.toInt8 ≤ range.1.toInt8)) != cls.negated

inductive Token where
  | star
  | any
  | one (b : UInt8)
  | oneOf (cls : ByteClass)
  deriving DecidableEq

/-- Where the reading of a pattern stands. -/
inductive Mode where
  | outside
  | opened
  | inside (cls : ByteClass)

def ByteClass.add (cls : ByteClass) (first last : UInt8) : ByteClass :=
  { cls with ranges := cls.ranges ++ [(first, last)] }

/-- A bracket that is not closed ends with the pattern. -/
def parseFrom : Mode -> List UInt8 -> List Token
  | .outside, [] => []
  | .opened, [] => [.oneOf { negated := false, ranges := [] }]
  | .inside cls, [] => [.oneOf cls]
  -- 42, 63, 91 and 92 are the star, the question mark, the bracket and the backslash
  | .outside, 42 :: rest => .star :: parseFrom .outside rest
  | .outside, 63 :: rest => .any :: parseFrom .outside rest
  | .outside, 91 :: rest => parseFrom .opened rest
  | .outside, 92 :: b :: rest => .one b :: parseFrom .outside rest
  | .outside, b :: rest => .one b :: parseFrom .outside rest
  -- in brackets, 94 is the caret, 93 the closing bracket and 45 the hyphen
  | .opened, 94 :: rest =>
    parseFrom (.inside { negated := true, ranges := [] }) rest
  | .opened, 93 :: rest =>
    .oneOf { negated := false, ranges := [] } :: parseFrom .outside rest
  | .opened, 92 :: b :: rest =>
    parseFrom (.inside { negated := false, ranges := [(b, b)] }) rest
  | .opened, b :: 45 :: d :: rest =>
    parseFrom (.inside { negated := false, ranges := [(b, d)] }) rest
  | .opened, b :: rest =>
    parseFrom (.inside { negated := false, ranges := [(b, b)] }) rest
  | .inside cls, 93 :: rest => .oneOf cls :: parseFrom .outside rest
  | .inside cls, 92 :: b :: rest => parseFrom (.inside (cls.add b b)) rest
  | .inside cls, b :: 45 :: d :: rest =>
    parseFrom (.inside (cls.add b d)) rest
  | .inside cls, b :: rest => parseFrom (.inside (cls.add b b)) rest

def parse (pattern : List UInt8) : List Token :=
  parseFrom .outside pattern

def matchTokens : List Token -> List UInt8 -> Bool
  | [], s => s.isEmpty
  | .star :: rest, s => s.tails.any (matchTokens rest)
  | .any :: rest, s => !s.isEmpty && matchTokens rest s.tail
  | .one b :: rest, s => s.head? == some b && matchTokens rest s.tail
  | .oneOf cls :: rest, s =>
    s.head?.any cls.contains && matchTokens rest s.tail

def isMatch (pattern s : List UInt8) : Bool :=
  matchTokens (parse pattern) s

def isSpecial (b : UInt8) : Bool :=
  b == 42 || b == 63 || b == 91 || b == 92

/-- The bytes stand for themselves in a pattern. -/
def IsPlain (s : List UInt8) : Prop :=
  forall b, b ∈ s -> isSpecial b = false

instance (s : List UInt8) : Decidable (IsPlain s) :=
  List.decidableBAll _ s

theorem parseFrom_plain_cons {b : UInt8} (hb : isSpecial b = false) (rest : List UInt8) :
    parseFrom .outside (b :: rest) = .one b :: parseFrom .outside rest := by
  unfold isSpecial at hb
  simp only [Bool.or_eq_false_iff, beq_eq_false_iff_ne, ne_eq] at hb
  obtain ⟨⟨⟨hstar, hany⟩, hopen⟩, hescape⟩ := hb
  rw [parseFrom]
  · exact hstar
  · exact hany
  · exact hopen
  · intro d tail hd
    exact absurd hd hescape

theorem parse_plain_append {s : List UInt8} (hs : IsPlain s) (rest : List UInt8) :
    parse (s ++ rest) = s.map .one ++ parse rest := by
  unfold parse
  induction s with
  | nil => rfl
  | cons b tail ih =>
    rw [List.cons_append, parseFrom_plain_cons (hs b List.mem_cons_self),
      ih (fun d hd => hs d (List.mem_cons_of_mem b hd))]
    rfl

theorem matchTokens_one_append (s : List UInt8) (tokens : List Token) (t : List UInt8) :
    matchTokens (s.map .one ++ tokens) (s ++ t) = matchTokens tokens t := by
  induction s with
  | nil => rfl
  | cons b tail ih =>
    rw [List.map_cons, List.cons_append, List.cons_append, matchTokens,
      List.head?_cons, List.tail_cons, ih, beq_self_eq_true, Bool.true_and]

theorem matchTokens_star {tokens : List Token} {t : List UInt8}
    (h : matchTokens tokens t = true) (s : List UInt8) :
    matchTokens (.star :: tokens) (s ++ t) = true := by
  rw [matchTokens, List.any_eq_true]
  exact ⟨t, (List.mem_tails t (s ++ t)).mpr (List.suffix_append s t), h⟩

theorem parse_star_cons (rest : List UInt8) :
    parse (42 :: rest) = .star :: parse rest := by
  unfold parse
  rw [parseFrom]

theorem matchTokens_last_star (s : List UInt8) : matchTokens [.star] s = true := by
  have hend : matchTokens [] [] = true := rfl
  have hstar := matchTokens_star hend s
  rw [List.append_nil] at hstar
  exact hstar

end Glob

end Lib
end PrxWaf
