import Calculator.Proofs.Rounding
import Calculator.Proofs.Spelling

/-!
# Positional texts are literals

The pointed text of a decimal has digits on both sides of the point. It is the
text of a literal, and the literal has the value of the decimal.
-/

namespace Calculator

namespace Decimal

/-! ## Digits -/

/-- The digits of a number stand for it. -/
theorem natOfDigits_toDigits (n : Nat) : natOfDigits (Nat.toDigits 10 n) = n :=
  Nat.ofDigitChars_ten_toDigits

/-- Zeros behind digits multiply their number by powers of ten. -/
theorem natOfDigits_append_zeros (digits : List Char) (count : Nat) :
    natOfDigits (digits ++ List.replicate count '0') = 10 ^ count * natOfDigits digits :=
  (Nat.ofDigitChars_append 0).trans Nat.ofDigitChars_replicate_zero

/-- Zeros in front of digits do not count. -/
theorem natOfDigits_zeros_append (count : Nat) (digits : List Char) :
    natOfDigits (List.replicate count '0' ++ digits) = natOfDigits digits := by
  have hzeros : Nat.ofDigitChars 10 (List.replicate count '0') 0 = 0 :=
    Nat.ofDigitChars_replicate_zero
  calc natOfDigits (List.replicate count '0' ++ digits)
      = Nat.ofDigitChars 10 digits (Nat.ofDigitChars 10 (List.replicate count '0') 0) :=
        Nat.ofDigitChars_append 0
    _ = natOfDigits digits := by rw [hzeros]; rfl

/-- The characters of a number are digits. -/
theorem isDigit_of_mem_toDigits {n : Nat} {c : Char} (hc : c ∈ Nat.toDigits 10 n) :
    c.isDigit = true :=
  Nat.isDigit_of_mem_toDigits (by decide) (by decide) hc

/-- Zeros are digits. -/
theorem isDigit_of_mem_zeros {count : Nat} {c : Char} (hc : c ∈ List.replicate count '0') :
    c.isDigit = true := by
  rw [List.eq_of_mem_replicate hc]
  decide

/-! ## The literal of a decimal -/

/-- The literal has a fraction, spells the pointed text of the decimal and has
its value. -/
structure WrittenAs (d : Decimal) (literal : Literal) : Prop where
  /-- The literal has digits only. -/
  proper : literal.Proper
  /-- There is a digit behind the point. -/
  fraction_ne_nil : literal.fraction ≠ []
  /-- The literal has the text of the decimal. -/
  chars_eq : literal.chars = d.pointed
  /-- The literal has the value of the decimal. -/
  value_eq : literal.value = d.toFloat

/-- The digits of a number, behind as many zeros as it takes to reach the place
in front of the point. -/
def padded (coefficient places : Nat) : List Char :=
  List.replicate (places + 1 - (Nat.toDigits 10 coefficient).length) '0' ++
    Nat.toDigits 10 coefficient

/-- The literal that the pointed text of a decimal spells. A whole number has a
fraction of one zero. -/
def literal (d : Decimal) : Literal :=
  if 0 ≤ d.exponent then
    ⟨Nat.toDigits 10 d.coefficient ++ List.replicate d.exponent.toNat '0', ['0']⟩
  else
    let digits := padded d.coefficient (-d.exponent).toNat
    let point := digits.length - (-d.exponent).toNat
    ⟨digits.take point, digits.drop point⟩

/-- The literal of a whole number. -/
theorem literal_whole (coefficient places : Nat) :
    literal ⟨coefficient, places⟩ =
      ⟨Nat.toDigits 10 coefficient ++ List.replicate places '0', ['0']⟩ := by
  simp [literal]

/-- The literal of a number with digits behind the point. -/
theorem literal_fraction (coefficient places : Nat) :
    literal ⟨coefficient, -(places + 1 : Nat)⟩ =
      let digits := padded coefficient (places + 1)
      ⟨digits.take (digits.length - (places + 1)), digits.drop (digits.length - (places + 1))⟩ := by
  have hneg : ¬ (0 : Int) ≤ -(places + 1 : Nat) := by omega
  simp only [literal, if_neg hneg, neg_neg, Int.toNat_natCast]

/-- A decimal is a whole number, or it has places behind the point. -/
theorem whole_or_fraction (d : Decimal) :
    (∃ coefficient places : Nat, d = ⟨coefficient, places⟩) ∨
      ∃ coefficient places : Nat, d = ⟨coefficient, -(places + 1 : Nat)⟩ := by
  obtain ⟨coefficient, places | places⟩ := d
  · exact Or.inl ⟨coefficient, places, rfl⟩
  · exact Or.inr ⟨coefficient, places, rfl⟩

/-- The padded digits reach beyond the point. -/
theorem lt_length_padded (coefficient places : Nat) :
    places < (padded coefficient places).length := by
  rw [padded, List.length_append, List.length_replicate]
  omega

/-- The literal of a decimal has digits on both sides of the point. -/
theorem literal_ne_nil (d : Decimal) : d.literal.whole ≠ [] ∧ d.literal.fraction ≠ [] := by
  rcases d.whole_or_fraction with ⟨coefficient, places, rfl⟩ | ⟨coefficient, places, rfl⟩
  · rw [literal_whole]
    exact ⟨by simp [Nat.toDigits_ne_nil], by simp⟩
  · have hlength := lt_length_padded coefficient (places + 1)
    rw [literal_fraction]
    simp only [ne_eq, ← List.length_eq_zero_iff, List.length_take, List.length_drop]
    omega

/-- The digits of the literal are those of the coefficient, between zeros. The
exponent counts the zeros at the end and the places behind the point. -/
theorem digits_literal (d : Decimal) :
    ∃ leading trailing : Nat,
      d.literal.whole ++ d.literal.fraction =
        List.replicate leading '0' ++
          (Nat.toDigits 10 d.coefficient ++ List.replicate trailing '0') ∧
      d.exponent = trailing - d.literal.fraction.length := by
  rcases d.whole_or_fraction with ⟨coefficient, places, rfl⟩ | ⟨coefficient, places, rfl⟩
  · rw [literal_whole]
    refine ⟨0, places + 1, ?_, by simp⟩
    simp only [List.replicate_zero, List.nil_append, List.replicate_succ', List.append_assoc]
  · have hlength := lt_length_padded coefficient (places + 1)
    rw [literal_fraction]
    refine ⟨places + 1 + 1 - (Nat.toDigits 10 coefficient).length, 0, ?_, ?_⟩
    · simp only [List.take_append_drop, List.replicate_zero, List.append_nil, padded]
    · simp only [List.length_drop]
      omega

/-- The literal of a decimal is made of digits. -/
theorem proper_literal (d : Decimal) : d.literal.Proper := by
  obtain ⟨leading, trailing, hdigits, _⟩ := d.digits_literal
  have hdigit (c : Char) (hc : c ∈ d.literal.whole ++ d.literal.fraction) : c.isDigit = true := by
    rw [hdigits, List.mem_append, List.mem_append] at hc
    rcases hc with hzero | hdigit | hzero
    · exact isDigit_of_mem_zeros hzero
    · exact isDigit_of_mem_toDigits hdigit
    · exact isDigit_of_mem_zeros hzero
  exact ⟨d.literal_ne_nil.1, fun c hc => hdigit c (List.mem_append_left _ hc),
    fun c hc => hdigit c (List.mem_append_right _ hc)⟩

/-- The literal of a decimal denotes the decimal. -/
theorem quantity_ofDigits_literal (d : Decimal) :
    (ofDigits d.literal.whole d.literal.fraction).quantity = d.quantity := by
  obtain ⟨leading, trailing, hdigits, hexponent⟩ := d.digits_literal
  rw [ofDigits, quantity, quantity, hdigits, natOfDigits_zeros_append, natOfDigits_append_zeros,
    natOfDigits_toDigits, hexponent, sub_eq_add_neg, zpow_add₀ (by norm_num), zpow_natCast]
  push_cast
  ring

/-- The text of the literal of a decimal is the pointed text of the decimal. -/
theorem chars_literal (d : Decimal) : d.literal.chars = d.pointed := by
  have hne := d.literal_ne_nil.2
  rcases d.whole_or_fraction with ⟨coefficient, places, rfl⟩ | ⟨coefficient, places, rfl⟩
  · rw [literal_whole] at hne ⊢
    rw [Literal.chars_pointed _ hne]
    simp [pointed, positional]
  · have hneg : ¬ (0 : Int) ≤ -(places + 1 : Nat) := by omega
    rw [literal_fraction] at hne ⊢
    rw [Literal.chars_pointed _ hne]
    simp only [pointed, positional, padded, if_neg hneg, neg_neg, Int.toNat_natCast]

/-- The pointed text of every decimal is that of a literal with its value. -/
theorem writtenAs_literal (d : Decimal) : d.WrittenAs d.literal where
  proper := d.proper_literal
  fraction_ne_nil := d.literal_ne_nil.2
  chars_eq := d.chars_literal
  value_eq := by
    rw [Literal.value, toFloat, toFloat, magnitude_eq_of_quantity d.quantity_ofDigits_literal]

end Decimal

end Calculator
