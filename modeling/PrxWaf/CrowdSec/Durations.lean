import PrxWaf.CrowdSec.Cache
import PrxWaf.Lib.Decimal

/-!
# Durations as CrowdSec writes them

CrowdSec prints durations in Go's format: hours, minutes and seconds with a
fraction, and below one second a single number with a small unit.  The reader takes
a number for each letter, so that a unit of two letters leaves the second one
without a number.  Durations count nanoseconds, and fractions are exact.
-/

namespace PrxWaf
namespace CrowdSec

open Lib

/-- The last `prec` digits of `v`, put before the ones that are printed already,
without zeros at the end, and what is left of `v`. -/
def fmtFracDigits : Nat -> Nat -> Text -> Text × Nat
  | 0, v, printed => (printed, v)
  | prec + 1, v, printed =>
    let digit := v % 10
    fmtFracDigits prec (v / 10)
      (if printed ≠ [] ∨ digit ≠ 0 then Nat.digitChar digit :: printed
        else printed)

def fmtFrac (prec v : Nat) : Text × Nat :=
  let digits := fmtFracDigits prec v []
  (if digits.1 = [] then [] else '.' :: digits.1, digits.2)

def goSubSecond (nanos prec : Nat) (small : Char) : Text :=
  let fraction := fmtFrac prec nanos
  decimal fraction.2 ++ fraction.1 ++ [small, 's']

def goHours (minutes : Nat) : Text :=
  if 0 < minutes / 60 then decimal (minutes / 60) ++ ['h'] else []

def goMinutes (secs : Nat) : Text :=
  if 0 < secs / 60 then
    goHours (secs / 60) ++ (decimal (secs / 60 % 60) ++ ['m'])
  else []

/-- `time.Duration.String` of a duration that is not negative. -/
def goDuration (nanos : Nat) : Text :=
  if nanos < nanosPerSec then
    if nanos = 0 then "0s".toList
    else if nanos < 1000 then goSubSecond nanos 0 'n'
    else if nanos < 1000000 then goSubSecond nanos 3 'µ'
    else goSubSecond nanos 6 'm'
  else
    let fraction := fmtFrac 9 nanos
    goMinutes fraction.2 ++ (decimal (fraction.2 % 60) ++ fraction.1 ++ ['s'])

/-- The libraries with fractions read exactly. -/
def Externals.exactNumbers (ext : Externals) : Externals :=
  { ext with scaled := scaledDecimal }

def IsFraction (s : Text) : Prop :=
  s = [] ∨ exists places, s = '.' :: places ∧ forall c, c ∈ places -> c.isDigit = true

theorem fmtFracDigits_rest (prec v : Nat) (printed : Text) :
    (fmtFracDigits prec v printed).2 = v / 10 ^ prec := by
  induction prec generalizing v printed with
  | zero => exact (Nat.div_one v).symm
  | succ prec ih =>
    rw [fmtFracDigits, ih, Nat.div_div_eq_div_mul, Nat.pow_succ, Nat.mul_comm]

theorem fmtFracDigits_isDigit {printed : Text}
    (h : forall c, c ∈ printed -> c.isDigit = true) (prec v : Nat) :
    forall c, c ∈ (fmtFracDigits prec v printed).1 -> c.isDigit = true := by
  induction prec generalizing v printed with
  | zero => exact h
  | succ prec ih =>
    have hdigit : (Nat.digitChar (v % 10)).isDigit = true := by
      rw [Nat.isDigit_digitChar]
      exact decide_eq_true (Nat.mod_lt v (by decide))
    rw [fmtFracDigits]
    refine ih ?_ (v / 10)
    intro c hc
    split at hc
    · rcases List.mem_cons.mp hc with hfirst | hlater
      · rw [hfirst]
        exact hdigit
      · exact h c hlater
    · exact h c hc

theorem isFraction_fmtFrac (prec v : Nat) : IsFraction (fmtFrac prec v).1 := by
  unfold fmtFrac
  dsimp only
  split
  · exact Or.inl rfl
  · refine Or.inr ⟨_, rfl, ?_⟩
    exact fmtFracDigits_isDigit (fun _ h => absurd h List.not_mem_nil) prec v

theorem fmtFrac_rest (prec v : Nat) : (fmtFrac prec v).2 = v / 10 ^ prec :=
  fmtFracDigits_rest prec v []

section Reading

variable {ext : Externals}

def isNumberChar (c : Char) : Bool :=
  c.isDigit || c = '.'

variable {number : Text}

theorem parseCsFrom_number
    (h : forall c, c ∈ number -> isNumberChar c = true) (total : Nat) (current rest : Text) :
    parseCsFrom ext total current (number ++ rest) =
      parseCsFrom ext total (current ++ number) rest := by
  induction number generalizing current with
  | nil => rw [List.append_nil, List.nil_append]
  | cons c more ih =>
    have hfirst : (c.isDigit || decide (c = '.')) = true := h c List.mem_cons_self
    rw [List.cons_append, parseCsFrom, if_pos hfirst,
      ih (fun d hd => h d (List.mem_cons_of_mem c hd)), List.append_assoc]
    rfl

theorem parseCsFrom_unit {c : Char} {secs n : Nat}
    (h : forall d, d ∈ number -> isNumberChar d = true)
    (hc : isNumberChar c = false) (hunit : unitSecs c = some secs)
    (hscaled : ext.scaled number secs = some n) (total : Nat) (rest : Text) :
    parseCsFrom ext total [] (number ++ c :: rest) = parseCsFrom ext (total + n) [] rest := by
  unfold isNumberChar at hc
  rw [parseCsFrom_number h, List.nil_append, parseCsFrom, hc, if_neg Bool.false_ne_true, hunit]
  dsimp only
  rw [hscaled]

theorem parseCsFrom_bare_second (hnone : ext.scaled [] 1 = none)
    (total : Nat) : parseCsFrom ext total [] ['s'] = none := by
  have hunit : unitSecs 's' = some 1 := rfl
  rw [parseCsFrom, if_neg (by decide), hunit]
  dsimp only
  rw [hnone]

theorem parseCsFrom_two_letters {c : Char} (h : forall d, d ∈ number -> isNumberChar d = true)
    (hc : isNumberChar c = false) (hnone : ext.scaled [] 1 = none) (total : Nat) :
    parseCsFrom ext total [] (number ++ [c, 's']) = none := by
  unfold isNumberChar at hc
  rw [parseCsFrom_number h, List.nil_append, parseCsFrom, hc, if_neg Bool.false_ne_true]
  split
  · split
    · rfl
    · exact parseCsFrom_bare_second hnone _
  · split
    · rfl
    · exact parseCsFrom_bare_second hnone _

end Reading

section Printed

variable (ext : Externals)

theorem isNumberChar_decimal {n : Nat} :
    forall c, c ∈ decimal n -> isNumberChar c = true := by
  intro c hc
  unfold isNumberChar
  rw [isDigit_decimal hc, Bool.true_or]

theorem isNumberChar_append_fraction {fraction : Text} (h : IsFraction fraction) (n : Nat) :
    forall c, c ∈ decimal n ++ fraction -> isNumberChar c = true := by
  intro c hc
  rcases List.mem_append.mp hc with hwhole | hfraction
  · exact isNumberChar_decimal c hwhole
  · rcases h with hnil | ⟨places, hplaces, hdigits⟩
    · rw [hnil] at hfraction
      cases hfraction
    · rw [hplaces] at hfraction
      rcases List.mem_cons.mp hfraction with hpoint | hdigit
      · rw [hpoint]
        rfl
      · unfold isNumberChar
        rw [hdigits c hdigit, Bool.true_or]

theorem scaledDecimal_append_fraction {fraction : Text} (h : IsFraction fraction) (n : Nat) :
    scaledDecimal (decimal n ++ fraction) 1 = some n := by
  rcases h with hnil | ⟨places, hplaces, hdigits⟩
  · rw [hnil, List.append_nil, scaledDecimal_decimal, Nat.mul_one]
  · rw [hplaces]
    exact scaledDecimal_append_places hdigits n

theorem parseCsFrom_goHours (total minutes : Nat) (rest : Text) :
    parseCsFrom ext.exactNumbers total [] (goHours minutes ++ rest) =
      parseCsFrom ext.exactNumbers (total + minutes / 60 * 3600) [] rest := by
  unfold goHours
  split
  · rw [List.append_assoc]
    exact parseCsFrom_unit isNumberChar_decimal (by decide) rfl
      (scaledDecimal_decimal _ 3600) total rest
  · rename_i hzero
    rw [Nat.eq_zero_of_not_pos hzero, Nat.zero_mul]
    rfl

theorem parseCsFrom_goMinutes (total secs : Nat) (rest : Text) :
    parseCsFrom ext.exactNumbers total [] (goMinutes secs ++ rest) =
      parseCsFrom ext.exactNumbers (total + secs / 60 * 60) [] rest := by
  unfold goMinutes
  split
  · rw [List.append_assoc, parseCsFrom_goHours, List.append_assoc]
    have hunit := @parseCsFrom_unit ext.exactNumbers (decimal (secs / 60 % 60))
      'm' 60 (secs / 60 % 60 * 60) isNumberChar_decimal (by decide) rfl
      (scaledDecimal_decimal _ 60) (total + secs / 60 / 60 * 3600) rest
    refine hunit.trans ?_
    have hsum : total + secs / 60 / 60 * 3600 + secs / 60 % 60 * 60 = total + secs / 60 * 60 := by
      lia
    rw [hsum]
  · rename_i hzero
    rw [Nat.eq_zero_of_not_pos hzero, Nat.zero_mul]
    rfl

theorem parseCsDuration_of_le {nanos : Nat} (h : nanosPerSec ≤ nanos) :
    parseCsDuration ext.exactNumbers (goDuration nanos) = some (nanos / nanosPerSec) := by
  have hfraction := isFraction_fmtFrac 9 nanos
  have hsecs := fmtFrac_rest 9 nanos
  unfold parseCsDuration goDuration
  rw [if_neg (Nat.not_lt.mpr h)]
  dsimp only
  rw [parseCsFrom_goMinutes]
  have hunit := @parseCsFrom_unit ext.exactNumbers
    (decimal ((fmtFrac 9 nanos).2 % 60) ++ (fmtFrac 9 nanos).1) 's' 1 ((fmtFrac 9 nanos).2 % 60)
    (isNumberChar_append_fraction hfraction _) (by decide) rfl
    (scaledDecimal_append_fraction hfraction _) (0 + (fmtFrac 9 nanos).2 / 60 * 60) []
  refine hunit.trans ?_
  rw [parseCsFrom, hsecs]
  have hsum : 0 + nanos / 10 ^ 9 / 60 * 60 + nanos / 10 ^ 9 % 60 = nanos / 10 ^ 9 := by
    lia
  rw [hsum]
  rfl

theorem parseCsDuration_goSubSecond (nanos prec : Nat) {small : Char}
    (hsmall : isNumberChar small = false) :
    parseCsDuration ext.exactNumbers (goSubSecond nanos prec small) = none :=
  parseCsFrom_two_letters
    (isNumberChar_append_fraction (isFraction_fmtFrac prec nanos) _) hsmall rfl 0

theorem parseCsDuration_of_lt {nanos : Nat} (hpos : nanos ≠ 0) (h : nanos < nanosPerSec) :
    parseCsDuration ext.exactNumbers (goDuration nanos) = none := by
  unfold goDuration
  rw [if_pos h, if_neg hpos]
  split
  · exact parseCsDuration_goSubSecond ext nanos 0 (by decide)
  split
  · exact parseCsDuration_goSubSecond ext nanos 3 (by decide)
  · exact parseCsDuration_goSubSecond ext nanos 6 (by decide)

theorem parseCsDuration_zero :
    parseCsDuration ext.exactNumbers (goDuration 0) = some 0 :=
  rfl

/-- The whole seconds of a printed duration are read, and the decision is kept no
longer than it lasts, exactly when it lasts a second at least or no time at
all. -/
theorem goDuration_understood_iff (cache : DecisionCache) (decision : Decision) (now nanos : Nat) :
    (parseCsDuration ext.exactNumbers (goDuration nanos) =
        some (nanos / nanosPerSec) <-> nanos = 0 ∨ nanosPerSec ≤ nanos) ∧
      ({ cache with cacheTtlSecs := 0 }.computeExpiry ext.exactNumbers now
          { decision with duration := some (goDuration nanos) } ≤ now + nanos <->
        nanos = 0 ∨ nanosPerSec ≤ nanos) := by
  have hread : nanos = 0 ∨ nanosPerSec ≤ nanos ->
      parseCsDuration ext.exactNumbers (goDuration nanos) = some (nanos / nanosPerSec) := by
    rintro (hzero | hle)
    · rw [hzero]
      exact parseCsDuration_zero ext
    · exact parseCsDuration_of_le ext hle
  have hunread : ¬ (nanos = 0 ∨ nanosPerSec ≤ nanos) -> nanos < nanosPerSec ∧
        parseCsDuration ext.exactNumbers (goDuration nanos) = none := by
    intro hnot
    rw [not_or, Nat.not_le] at hnot
    exact ⟨hnot.right, parseCsDuration_of_lt ext hnot.left hnot.right⟩
  unfold DecisionCache.computeExpiry
  rw [if_neg (Nat.lt_irrefl 0), Option.bind_some]
  rcases Decidable.em (nanos = 0 ∨ nanosPerSec ≤ nanos) with hcond | hcond
  · rw [hread hcond]
    refine ⟨iff_of_true rfl hcond, iff_of_true ?_ hcond⟩
    exact Nat.add_le_add_left (Nat.div_mul_le_self _ _) now
  · obtain ⟨hlt, hnone⟩ := hunread hcond
    rw [hnone]
    refine ⟨iff_of_false (fun h => by cases h) hcond, iff_of_false ?_ hcond⟩
    intro hle
    unfold defaultDecisionCacheFallbackSecs nanosPerSec at hle
    unfold nanosPerSec at hlt
    lia

end Printed

def exactLibraries : Externals where
  toLowercase := fun s => s.map Char.toLower
  parseIpNet := fun _ => none
  scaled := scaledDecimal

def lastingFor (duration : Text) : Decision where
  id := 1
  origin := "crowdsec".toList
  scope := "Ip".toList
  value := "192.0.2.1".toList
  type_ := "ban".toList
  scenario := []
  duration := some duration
  createdAt := none

/-- A decision for 1.5 ms is kept for four hours. -/
theorem milliseconds_kept_for_hours :
    goDuration 1500000 = "1.5ms".toList ∧ parseCsDuration exactLibraries "1.5ms".toList = none ∧
      (DecisionCache.new 0).computeExpiry exactLibraries 0
          (lastingFor "1.5ms".toList) = 4 * 3600 * 10 ^ 9 := by
  decide +kernel

end CrowdSec
end PrxWaf
