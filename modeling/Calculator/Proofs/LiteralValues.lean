import Calculator.Proofs.Quantities
import Mathlib.Algebra.Order.Field.Power

/-!
# The values of literals

A literal denotes a rational number, and its value is the double to which this
number is rounded. So the value grows with the number, does not depend on zeros
in front or at the end, and is never negative, whatever the number of digits.
-/

namespace Calculator

/-! ## The number that a decimal denotes -/

/-- The rational number that a literal denotes: its whole part, and its fraction
divided by a power of ten. -/
def Literal.quantity (literal : Literal) : ℚ :=
  Nat.ofDigitChars 10 literal.whole 0 +
    Nat.ofDigitChars 10 literal.fraction 0 / 10 ^ literal.fraction.length

namespace Decimal

/-- A decimal is not negative. -/
theorem quantity_nonneg (d : Decimal) : 0 ≤ d.quantity := by
  unfold quantity
  positivity

/-- The pattern of a decimal is the closest one, up to infinity. -/
theorem closest_magnitude (d : Decimal) :
    ∃ closest, Magnitude.Closest (d.quantity * Magnitude.quantaInOne) closest ∧
      d.magnitude = min Magnitude.infinity closest := by
  have hclosest := Magnitude.closest_unlimited d.numerator d.denominator_pos
  rw [d.numerator_div_denominator] at hclosest
  exact ⟨_, hclosest, Magnitude.nearest_eq_min _ _⟩

/-- The double of a decimal has no sign, and its pattern is that of the decimal. -/
theorem pattern_toFloat (d : Decimal) :
    d.toFloat.toBits.toNat < Number.signBit ∧ Number.pattern d.toFloat = d.magnitude := by
  have hmagnitude : d.magnitude ≤ Magnitude.infinity := Magnitude.nearest_le_infinity _ _
  have hbits : d.toFloat.toBits.toNat = d.magnitude := by
    rw [toFloat, Number.toBits_ofBits_pattern hmagnitude, Number.toNat_ofNat_pattern hmagnitude]
  have hunsigned : d.toFloat.toBits.toNat < Number.signBit := by
    rw [hbits]
    exact hmagnitude.trans_lt (by decide)
  exact ⟨hunsigned, by rw [Number.pattern, Nat.mod_eq_of_lt hunsigned, hbits]⟩

/-- A decimal is rounded to its double. -/
theorem rounded (d : Decimal) : Number.Rounded d.quantity d.toFloat := by
  obtain ⟨closest, hclosest, hmagnitude⟩ := d.closest_magnitude
  obtain ⟨hunsigned, hpattern⟩ := d.pattern_toFloat
  have hnonneg := d.quantity_nonneg
  refine .of_closest (by rwa [abs_of_nonneg hnonneg]) ?_ (by rw [hpattern, hmagnitude])
  exact ⟨fun h => absurd h (Nat.not_le.mpr hunsigned), fun h => absurd h (not_lt.mpr hnonneg)⟩

/-- Larger decimals have larger patterns. -/
theorem magnitude_mono {d d' : Decimal} (hle : d.quantity ≤ d'.quantity) :
    d.magnitude ≤ d'.magnitude := by
  obtain ⟨closest, hclosest, hmagnitude⟩ := d.closest_magnitude
  obtain ⟨closest', hclosest', hmagnitude'⟩ := d'.closest_magnitude
  have hmono := hclosest.mono hclosest'
    (mul_le_mul_of_nonneg_right hle Number.quantaInOne_pos.le)
  omega

end Decimal

/-! ## The number that a literal denotes -/

namespace Literal

/-- The digits of a literal, taken as a decimal, denote what the literal denotes. -/
theorem quantity_ofDigits (literal : Literal) :
    (Decimal.ofDigits literal.whole literal.fraction).quantity = literal.quantity := by
  have hdigits : Decimal.natOfDigits (literal.whole ++ literal.fraction) =
      10 ^ literal.fraction.length * Nat.ofDigitChars 10 literal.whole 0 +
        Nat.ofDigitChars 10 literal.fraction 0 := by
    calc Decimal.natOfDigits (literal.whole ++ literal.fraction)
        = Nat.ofDigitChars 10 literal.fraction (Nat.ofDigitChars 10 literal.whole 0) :=
          Nat.ofDigitChars_append 0
      _ = _ := Nat.ofDigitChars_eq_ofDigitChars_zero
  rw [Decimal.quantity, quantity, Decimal.ofDigits, hdigits, zpow_neg, zpow_natCast]
  push_cast
  field_simp

/-- A literal is rounded to its value. -/
theorem rounded_value (literal : Literal) : Number.Rounded literal.quantity literal.value := by
  rw [← literal.quantity_ofDigits]
  exact Decimal.rounded _

/-- Larger literals have larger values. -/
theorem value_le_value {literal other : Literal} (hle : literal.quantity ≤ other.quantity) :
    literal.value ≤ other.value := by
  rw [← literal.quantity_ofDigits, ← other.quantity_ofDigits] at hle
  obtain ⟨hunsigned, hpattern⟩ :=
    (Decimal.ofDigits literal.whole literal.fraction).pattern_toFloat
  obtain ⟨hunsigned', hpattern'⟩ := (Decimal.ofDigits other.whole other.fraction).pattern_toFloat
  apply Number.le_of_pattern_le hunsigned hunsigned'
  · rw [hpattern']
    exact Magnitude.nearest_le_infinity _ _
  · rw [hpattern, hpattern']
    exact Decimal.magnitude_mono hle

/-- A literal has the value of a number without a sign exactly if it has its
pattern. -/
theorem value_eq_iff (literal : Literal) {value : Float}
    (hunsigned : value.toBits.toNat < Number.signBit) :
    literal.value = value ↔
      (Decimal.ofDigits literal.whole literal.fraction).magnitude = Number.pattern value := by
  obtain ⟨hunsigned', hpattern⟩ :=
    (Decimal.ofDigits literal.whole literal.fraction).pattern_toFloat
  constructor
  · rintro rfl
    exact hpattern.symm
  · intro hsame
    refine Number.eq_of_pattern_eq ?_ (hpattern.trans hsame)
    exact ⟨fun h => absurd h (Nat.not_le.mpr hunsigned'),
      fun h => absurd h (Nat.not_le.mpr hunsigned)⟩

/-- The value of a literal is infinite from half a step beyond the largest finite
double on. -/
theorem value_eq_inf_iff (literal : Literal) :
    literal.value = Float.inf ↔ (2 ^ 1024 - 2 ^ 970 : ℚ) ≤ literal.quantity := by
  obtain ⟨closest, hclosest, hmagnitude⟩ :=
    (Decimal.ofDigits literal.whole literal.fraction).closest_magnitude
  have hnonneg := (Decimal.ofDigits literal.whole literal.fraction).quantity_nonneg
  rw [literal.quantity_ofDigits] at hclosest hnonneg
  have hinfinity : Number.pattern Float.inf = Magnitude.infinity := by decide
  rw [literal.value_eq_iff (by decide), hmagnitude, hinfinity, min_eq_left_iff]
  rw [← abs_of_nonneg hnonneg] at hclosest ⊢
  exact (Number.overflow_le_iff hclosest).symm

/-- The value of a literal is zero up to half the least positive double. -/
theorem value_eq_zero_iff (literal : Literal) :
    literal.value = 0 ↔ literal.quantity ≤ 1 / 2 ^ 1075 := by
  obtain ⟨closest, hclosest, hmagnitude⟩ :=
    (Decimal.ofDigits literal.whole literal.fraction).closest_magnitude
  rw [literal.quantity_ofDigits] at hclosest
  have hzero : Number.pattern 0 = 0 := by decide
  have hinfinity : 0 < Magnitude.infinity := by decide
  have hsmall : min Magnitude.infinity closest = 0 ↔ closest = 0 := by omega
  have hdouble : (2 : ℚ) ^ 1075 = 2 * Magnitude.quantaInOne := by
    rw [Magnitude.cast_quantaInOne, ← pow_succ']
  rw [literal.value_eq_iff (by decide), hmagnitude, hzero, hsmall, hclosest.eq_zero_iff, hdouble,
    le_div_iff₀ (mul_pos (by norm_num) Number.quantaInOne_pos), mul_left_comm]

/-- Zeros in front of a literal and at the end of its fraction do not change the
number that it denotes. -/
theorem quantity_zeros (literal : Literal) (leading trailing : ℕ) :
    quantity ⟨List.replicate leading '0' ++ literal.whole,
      literal.fraction ++ List.replicate trailing '0'⟩ = literal.quantity := by
  have hwhole : Nat.ofDigitChars 10 (List.replicate leading '0' ++ literal.whole) 0 =
      Nat.ofDigitChars 10 literal.whole 0 := Decimal.natOfDigits_zeros_append leading literal.whole
  have hfraction : Nat.ofDigitChars 10 (literal.fraction ++ List.replicate trailing '0') 0 =
      10 ^ trailing * Nat.ofDigitChars 10 literal.fraction 0 :=
    Decimal.natOfDigits_append_zeros literal.fraction trailing
  simp only [quantity, hwhole, hfraction, List.length_append, List.length_replicate, pow_add]
  push_cast
  field_simp

/-- Zeros in front of a literal and at the end of its fraction do not change its
value. -/
theorem value_zeros (literal : Literal) (leading trailing : ℕ) :
    value ⟨List.replicate leading '0' ++ literal.whole,
      literal.fraction ++ List.replicate trailing '0'⟩ = literal.value := by
  have hrounded := rounded_value ⟨List.replicate leading '0' ++ literal.whole,
    literal.fraction ++ List.replicate trailing '0'⟩
  rw [literal.quantity_zeros leading trailing] at hrounded
  exact hrounded.unique literal.rounded_value

/-! ## Reading a literal -/

/-- The text of a literal. -/
def text (literal : Literal) : String := String.ofList literal.chars

/-- The text of a literal scans into one number. -/
theorem Proper.scan_text {literal : Literal} (hproper : literal.Proper) :
    scan literal.text = ⟨[⟨.number literal.value, 0, literal.text.utf8ByteSize⟩], none,
      literal.text.utf8ByteSize⟩ := by
  have htext : literal.text.toList = literal.chars := String.toList_ofList
  have htiled := hproper.tiled 0
  rw [← htext, byteSize_toList, Nat.zero_add] at htiled
  exact scan_eq_of_tiled htiled

/-- The text of a literal is parsed into a leaf and evaluated to its value. -/
theorem Proper.parse_text {literal : Literal} (hproper : literal.Proper) (settings : Settings) :
    settings.parse literal.text = .ok (.leaf literal.value) ∧
      settings.evaluate literal.text = .ok literal.value := by
  have hparse : settings.parse literal.text = .ok (.leaf literal.value) :=
    Settings.parse_of_derives hproper.scan_text (.of_factor (.number literal.value))
      (Nat.zero_le _)
  refine ⟨hparse, ?_⟩
  rw [Settings.evaluate, hparse, Except.map, Tree.evaluate, Interpretation.result_eq_fold]
  rfl

/-- The value of a literal is a number, and it has no sign. -/
theorem value_unsigned (literal : Literal) :
    literal.value.isNaN = false ∧ literal.value.toBits.toNat < Number.signBit := by
  have hmagnitude := literal.isMagnitude_value
  have hinfinity : Magnitude.infinity < Number.signBit := by decide
  have hunsigned : literal.value.toBits.toNat < Number.signBit := hmagnitude.trans_lt hinfinity
  refine ⟨?_, hunsigned⟩
  rw [Float.isNaN_eq_decide_eq_nan, decide_eq_false_iff_not, Number.eq_nan_iff_pattern,
    Number.pattern, Nat.mod_eq_of_lt hunsigned]
  exact Nat.not_lt.mpr hmagnitude

/-- A literal is found in its text as one number, the double to which its exact
number is rounded. -/
structure ReadExactly (literal : Literal) : Prop where
  /-- Scanning the text finds one number, from its first byte to its last. -/
  scanned : (scan literal.text).items =
    [.ok ⟨.number literal.value, 0, literal.text.utf8ByteSize⟩,
      .ok (Lexeme.atEnd literal.text.utf8ByteSize)]
  /-- The text is parsed into a leaf, and evaluated to the number. -/
  parsed : ∀ settings : Settings, settings.parse literal.text = .ok (.leaf literal.value) ∧
    settings.evaluate literal.text = .ok literal.value
  /-- The number is the only double to which the exact number is rounded. -/
  rounded : ∀ value : Float, Number.Rounded literal.quantity value ↔ value = literal.value
  /-- The number is infinite from half a step beyond the largest double on. -/
  infinite : literal.value = Float.inf ↔ (2 ^ 1024 - 2 ^ 970 : ℚ) ≤ literal.quantity
  /-- The number is zero up to half the least positive double. -/
  zero : literal.value = 0 ↔ literal.quantity ≤ 1 / 2 ^ 1075
  /-- The number is one, and it has no sign: it is neither negative nor negative
  zero. -/
  unsigned : literal.value.isNaN = false ∧ literal.value.toBits.toNat < Number.signBit
  /-- Larger literals are read as larger numbers. -/
  monotone : ∀ other : Literal, literal.quantity ≤ other.quantity → literal.value ≤ other.value
  /-- Zeros in front of the literal and at the end of its fraction do not count. -/
  zeros : ∀ leading trailing : ℕ,
    value ⟨List.replicate leading '0' ++ literal.whole,
      literal.fraction ++ List.replicate trailing '0'⟩ = literal.value

end Literal

/-- Every literal is read as the double to which its exact number is rounded. The
numbers that a scan finds in a text are those of literals that stand there, and a
scan never stops at a digit. -/
theorem Literal.Proper.readExactly {literal : Literal} (hproper : literal.Proper) :
    literal.ReadExactly ∧ ∀ source : String,
      (∀ lexeme ∈ (scan source).lexemes, ∀ value, lexeme.token = .number value →
        ∃ (found : Literal) (behind : List Char), found.Proper ∧ found.value = value ∧
          Stands 0 source.toList found.chars behind lexeme.start lexeme.stop) ∧
      ∀ unrecognized, (scan source).fault = some unrecognized →
        unrecognized.character.isDigit = false := by
  refine ⟨⟨?_, hproper.parse_text, ?_, literal.value_eq_inf_iff, literal.value_eq_zero_iff,
    literal.value_unsigned, fun _ => value_le_value, literal.value_zeros⟩, ?_⟩
  · rw [hproper.scan_text]
    rfl
  · intro value
    constructor
    · intro hrounded
      exact hrounded.unique literal.rounded_value
    · rintro rfl
      exact literal.rounded_value
  · intro source
    constructor
    · intro lexeme hlexeme value hnumber
      obtain ⟨part, behind, hstands, hspelled, _⟩ := (scan_tiled source).spelled lexeme hlexeme
      rw [hnumber] at hspelled
      cases hspelled with
      | number hfound => exact ⟨_, behind, hfound, rfl, hstands⟩
    · intro unrecognized hfault
      obtain ⟨behind, _, _, hno⟩ := (scan_tiled source).stopped_at hfault
      exact (not_digit_or_symbol hno).1

/-- A literal halfway between two doubles is read as the one with the even
significand. -/
theorem Literal.Proper.readExactly_halfway :
    Literal.Proper ⟨"4503599627370497".toList, ['5']⟩ ∧
      Literal.quantity ⟨"4503599627370497".toList, ['5']⟩ = 9007199254740995 / 2 ∧
      Literal.value ⟨"4503599627370497".toList, ['5']⟩ = 4503599627370498 ∧
      Literal.ReadExactly ⟨"4503599627370497".toList, ['5']⟩ := by
  have hproper : Literal.Proper ⟨"4503599627370497".toList, ['5']⟩ :=
    ⟨by simp, by simp, by simp⟩
  exact ⟨hproper, by decide +kernel, by decide +kernel, hproper.readExactly.1⟩

end Calculator
