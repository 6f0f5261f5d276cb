import Calculator.Decimal.Shortest
import Mathlib.Data.Nat.Log
import Mathlib.Tactic.Positivity
import Mathlib.Tactic.Ring

/-!
# Decimals that read back

Rounding to the nearest magnitude depends on the value of a fraction only, and a
value that is itself a magnitude is rounded to it. So a decimal may be rewritten
as long as its value stays, and the exact decimal of a magnitude reads back. The
search for the shortest decimal accepts only decimals that read back, and starts
from the exact one, so what it finds reads back as well.
-/

namespace Calculator

/-! ## Rounding depends on the value only -/

/-- Rounding a quotient is not changed by a common factor. -/
theorem roundHalfEven_mul_left {k : Nat} (hk : 0 < k) (num den : Nat) :
    roundHalfEven (k * num) (k * den) = roundHalfEven num den := by
  have hquotient : k * num / (k * den) = num / den := Nat.mul_div_mul_left num den hk
  have hremainder : 2 * (k * num % (k * den)) = k * (2 * (num % den)) := by
    rw [Nat.mul_mod_mul_left]
    ring
  unfold roundHalfEven
  simp only [hquotient, hremainder, Nat.mul_lt_mul_left hk]

/-- A whole quotient is not changed by rounding. -/
theorem roundHalfEven_mul_right {den : Nat} (hden : 0 < den) (quotient : Nat) :
    roundHalfEven (quotient * den) den = quotient := by
  unfold roundHalfEven
  rw [Nat.mul_div_cancel quotient hden, Nat.mul_mod_left, if_pos (by omega)]

namespace Magnitude

/-- The nearest magnitude is not changed by a common factor of the fraction. -/
theorem nearest_mul_left {k : Nat} (hk : 0 < k) (num den : Nat) :
    nearest (k * num) (k * den) = nearest num den := by
  unfold nearest
  simp only [Nat.mul_assoc, Nat.mul_div_mul_left _ _ hk, roundHalfEven_mul_left hk]

/-- Two fractions of the same value have the same nearest magnitude. -/
theorem nearest_eq_of_cross {num den num' den' : Nat} (hden : 0 < den) (hden' : 0 < den')
    (hcross : num * den' = num' * den) : nearest num den = nearest num' den' := by
  calc nearest num den
      = nearest (den' * num) (den' * den) := (nearest_mul_left hden' num den).symm
    _ = nearest (den * num') (den * den') := by
        rw [Nat.mul_comm den' num, hcross, Nat.mul_comm num' den, Nat.mul_comm den' den]
    _ = nearest num' den' := nearest_mul_left hden num' den'

/-- The nearest magnitude is infinity at most. -/
theorem nearest_le_infinity (num den : Nat) : nearest num den ≤ infinity := Nat.min_le_left _ _

/-! ## Magnitudes are their own nearest -/

/-- A pattern is its binade and its place in it. -/
theorem scale_mul_add_significand (pattern : Nat) :
    scale pattern * binade + significand pattern = pattern := by
  have hdivided := Nat.div_add_mod pattern binade
  unfold scale significand
  by_cases hsubnormal : pattern < binade
  · rw [if_pos hsubnormal, Nat.div_eq_of_lt hsubnormal]
    omega
  · have hpos : 1 ≤ pattern / binade := (Nat.one_le_div_iff (by decide)).mpr (by omega)
    rw [if_neg hsubnormal, Nat.sub_mul, Nat.mul_comm (pattern / binade)]
    have hle : 1 * binade ≤ binade * (pattern / binade) := by
      rw [Nat.mul_comm]
      exact Nat.mul_le_mul_left binade hpos
    omega

/-- The leading 53 bits of a magnitude are its significand. -/
theorem log2_quanta (pattern : Nat) : Nat.log2 (quanta pattern) + 1 - 53 = scale pattern := by
  have hbinade : binade = 2 ^ 52 := by decide
  unfold quanta scale significand
  by_cases hsubnormal : pattern < binade
  · have hlog : Nat.log2 pattern < 53 := by
      rw [Nat.log2_eq_log_two]
      exact Nat.log_lt_of_lt_pow' (by decide) (by omega)
    rw [if_pos hsubnormal, Nat.div_eq_of_lt hsubnormal]
    simp only [Nat.pow_eq, Nat.zero_sub, Nat.pow_zero, Nat.mul_one]
    omega
  · rw [if_neg hsubnormal]
    generalize pattern / binade - 1 = shift
    have hplace : pattern % binade < binade := Nat.mod_lt _ (by decide)
    have hlog : Nat.log2 ((binade + pattern % binade) * Nat.pow 2 shift) = 52 + shift := by
      rw [Nat.log2_eq_log_two, Nat.pow_eq, Nat.log_eq_iff (by omega)]
      rw [hbinade] at hplace ⊢
      constructor
      · rw [Nat.pow_add]
        exact Nat.mul_le_mul_right _ (by omega)
      · rw [show 52 + shift + 1 = 53 + shift by omega, Nat.pow_add]
        exact Nat.mul_lt_mul_of_pos_right (by omega) (by positivity)
    omega

/-- A fraction whose value is a finite magnitude is rounded to it. -/
theorem nearest_eq_of_quanta {pattern num den : Nat} (hfinite : pattern < infinity)
    (hden : 0 < den) (hvalue : num * Nat.pow 2 1074 = quanta pattern * den) :
    nearest num den = pattern := by
  have hscaled : num * Nat.pow 2 1074 / den = quanta pattern := by
    rw [hvalue, Nat.mul_div_cancel _ hden]
  have hround : roundHalfEven (num * Nat.pow 2 1074) (den * Nat.pow 2 (scale pattern)) =
      significand pattern := by
    have hpos : 0 < den * Nat.pow 2 (scale pattern) := by
      simp only [Nat.pow_eq]
      positivity
    rw [hvalue, quanta, Nat.mul_assoc, Nat.mul_comm (Nat.pow 2 _)]
    exact roundHalfEven_mul_right hpos _
  unfold nearest
  simp only [hscaled, log2_quanta, hround, scale_mul_add_significand]
  omega

end Magnitude

/-! ## Decimals of one value -/

/-- The rational number that a decimal denotes. -/
def Decimal.quantity (d : Decimal) : ℚ := d.coefficient * 10 ^ d.exponent

namespace Decimal

/-- The denominator of a decimal is not zero. -/
theorem denominator_pos (d : Decimal) : 0 < d.denominator := by
  unfold denominator
  simp only [Nat.pow_eq]
  positivity

/-- A decimal is a fraction of its numerator and its denominator. -/
theorem numerator_div_denominator (d : Decimal) :
    (d.numerator / d.denominator : ℚ) = d.quantity := by
  obtain ⟨coefficient, exponent⟩ := d
  simp only [numerator, denominator, quantity, Nat.pow_eq, Nat.cast_mul, Nat.cast_pow,
    Nat.cast_ofNat]
  rcases Int.le_total 0 exponent with hwhole | hfraction
  · obtain ⟨places, rfl⟩ := Int.eq_ofNat_of_zero_le hwhole
    simp
  · obtain ⟨places, hplaces⟩ := Int.eq_ofNat_of_zero_le (show 0 ≤ -exponent by omega)
    obtain rfl : exponent = -places := by omega
    simp [div_eq_mul_inv]

/-- Decimals of the same value have the same nearest magnitude. -/
theorem magnitude_eq_of_quantity {d d' : Decimal} (hsame : d.quantity = d'.quantity) :
    d.magnitude = d'.magnitude := by
  apply Magnitude.nearest_eq_of_cross d.denominator_pos d'.denominator_pos
  have hden : (d.denominator : ℚ) ≠ 0 := by exact_mod_cast d.denominator_pos.ne'
  have hden' : (d'.denominator : ℚ) ≠ 0 := by exact_mod_cast d'.denominator_pos.ne'
  rw [← d.numerator_div_denominator, ← d'.numerator_div_denominator,
    div_eq_div_iff hden hden'] at hsame
  exact_mod_cast hsame

/-- Zeros at the end of the coefficient can be moved to the exponent. -/
theorem quantity_shift (coefficient more : ℕ) (exponent : ℤ) :
    quantity ⟨coefficient, exponent + more⟩ = quantity ⟨coefficient * 10 ^ more, exponent⟩ := by
  rw [quantity, quantity, zpow_add₀ (by norm_num), zpow_natCast]
  push_cast
  ring

/-- Trimming keeps the value. -/
theorem quantity_trim (d : Decimal) : d.trim.quantity = d.quantity := by
  fun_induction trim d with
  | case1 d h ih =>
    have hcoefficient : d.coefficient / 10 * 10 ^ 1 = d.coefficient := by omega
    have hshift := quantity_shift (d.coefficient / 10) 1 d.exponent
    rw [hcoefficient] at hshift
    rw [ih]
    exact hshift
  | case2 d h => rfl

end Decimal

/-! ## The shortest decimal -/

namespace Magnitude

/-- The exact decimal of a magnitude is its number of quanta. -/
theorem numerator_exact (pattern : Nat) :
    (exact pattern).numerator * Nat.pow 2 1074 = quanta pattern * (exact pattern).denominator := by
  simp only [exact, quanta]
  generalize scale pattern = shift
  by_cases hlarge : 1074 ≤ shift
  · obtain ⟨more, rfl⟩ := Nat.exists_eq_add_of_le hlarge
    rw [if_pos hlarge]
    simp only [Decimal.numerator, Decimal.denominator, Nat.pow_eq, Nat.add_sub_cancel_left,
      Int.toNat_zero, neg_zero, Nat.pow_zero, Nat.mul_one, Nat.mul_assoc, ← Nat.pow_add,
      Nat.add_comm more]
  · rw [if_neg hlarge]
    obtain ⟨places, hplaces⟩ := Nat.exists_eq_add_of_le (show shift ≤ 1074 by omega)
    have hsub : 1074 - shift = places := by omega
    -- A power of ten is one of five and one of two, and the latter completes the scale.
    have hten : 10 ^ places = 5 ^ places * 2 ^ places := by rw [← Nat.mul_pow]
    have htwo : (2 : Nat) ^ 1074 = 2 ^ shift * 2 ^ places := by rw [hplaces, Nat.pow_add]
    simp only [Decimal.numerator, Decimal.denominator, Nat.pow_eq, hsub, neg_neg, Int.toNat_natCast,
      Int.toNat_neg_natCast, hten, htwo]
    ring

/-- The exact decimal of a finite magnitude reads back. -/
theorem magnitude_exact {pattern : Nat} (hfinite : pattern < infinity) :
    (exact pattern).magnitude = pattern :=
  nearest_eq_of_quanta hfinite (Decimal.denominator_pos _) (numerator_exact pattern)

/-- The neighbours that are accepted read back. -/
theorem magnitude_neighbour {pattern dropped : Nat} {value found : Decimal}
    (hfound : neighbour? pattern value dropped = some found) : found.magnitude = pattern := by
  unfold neighbour? at hfound
  simp only at hfound
  split_ifs at hfound with hbelow hboth habove
  · cases hfound
    exact hboth.1
  · cases hfound
    exact hbelow
  · cases hfound
    exact habove

/-- The search finds a decimal that reads back, if it starts from one. -/
theorem magnitude_firstHit {pattern : Nat} {value : Decimal} (hvalue : value.magnitude = pattern)
    (dropped : Nat) : (firstHit pattern value dropped).magnitude = pattern := by
  induction dropped with
  | zero => exact hvalue
  | succ dropped ih =>
    unfold firstHit
    cases hfound : neighbour? pattern value (dropped + 1) with
    | none => exact ih
    | some found => exact magnitude_neighbour hfound

/-- The shortest decimal of a finite magnitude reads back. -/
theorem magnitude_shortest {pattern : Nat} (hfinite : pattern < infinity) :
    (shortest pattern).magnitude = pattern := by
  unfold shortest
  by_cases hzero : pattern = 0
  · rw [if_pos hzero, hzero]
    apply nearest_eq_of_quanta (by decide) (Decimal.denominator_pos _)
    rw [Decimal.numerator, quanta, significand, if_pos (by decide)]
    simp only [Nat.zero_mul]
  · rw [if_neg hzero, Decimal.magnitude_eq_of_quantity (Decimal.quantity_trim _)]
    exact magnitude_firstHit (magnitude_exact hfinite) _

end Magnitude

end Calculator
