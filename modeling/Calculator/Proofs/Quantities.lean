import Calculator.Proofs.Nearest
import Calculator.Proofs.WrittenNumbers

/-!
# Numbers as quantities

A finite double stands for a rational number: its significand, scaled by a power
of two, with its sign. This file says what it means that a number is rounded to a
double, with regard to all finite doubles and not to how rounding is done, and
reduces this to the closest pattern of a magnitude.
-/

namespace Calculator

namespace Number

open Float.Model Float.Model.UnpackedFloat

/-! ## Significand, exponent and sign -/

/-- The sign of a number. -/
def sign (value : Float) : Sign := if signBit ≤ value.toBits.toNat then .negative else .positive

/-- The rational number that a finite double stands for. -/
def quantity (value : Float) : ℚ :=
  match value.toModel.unpack with
  | .finite sign significand exponent _ => sign.apply significand * 2 ^ exponent
  | _ => 0

/-- The significand of a finite double. -/
def significand (value : Float) : ℕ :=
  match value.toModel.unpack with
  | .finite _ significand _ _ => significand
  | _ => 0

/-- The fields of the bits of a number are those of its pattern and its sign. -/
theorem fields (value : Float) :
    (@unpackExponent Format.binary64 value.toBits.toBitVec).toNat =
        pattern value / Magnitude.binade ∧
      (@unpackMantissa Format.binary64 value.toBits.toBitVec).toNat =
        pattern value % Magnitude.binade ∧
      Sign.ofBitVec (@unpackSign Format.binary64 value.toBits.toBitVec) = sign value := by
  have hbits : value.toBits.toBitVec.toNat = value.toBits.toNat := rfl
  have hbound : value.toBits.toNat < 2 ^ 64 := value.toBits.toNat_lt
  refine ⟨?_, ?_, ?_⟩
  · rw [toNat_unpackExponent, hbits, pattern, signBit, Magnitude.binade]
    omega
  · rw [toNat_unpackMantissa, hbits, pattern, signBit, Magnitude.binade]
    omega
  · have hsign := toNat_unpackSign value.toBits.toBitVec
    rw [hbits] at hsign
    have hclear : @unpackSign Format.binary64 value.toBits.toBitVec = 0#1 ↔
        ¬ signBit ≤ value.toBits.toNat := by
      rw [← BitVec.toNat_inj, hsign, signBit, BitVec.toNat_ofNat]
      omega
    unfold Sign.ofBitVec sign
    by_cases hnegative : signBit ≤ value.toBits.toNat
    · rw [if_neg (by rw [hclear]; exact not_not.mpr hnegative), if_pos hnegative]
    · rw [if_pos (hclear.mpr hnegative), if_neg hnegative]

/-- Which fields of a number have all their bits clear. -/
theorem fields_eq_zero_iff (value : Float) :
    (@unpackExponent Format.binary64 value.toBits.toBitVec = 0#11 ↔
        pattern value < Magnitude.binade) ∧
      (@unpackMantissa Format.binary64 value.toBits.toBitVec = 0#52 ↔
        pattern value % Magnitude.binade = 0) := by
  obtain ⟨hexponent, hmantissa, _⟩ := fields value
  rw [← BitVec.toNat_inj, ← BitVec.toNat_inj, hexponent, hmantissa]
  refine ⟨?_, Iff.rfl⟩
  exact Nat.div_eq_zero_iff_lt (by decide)

/-- The two zeros have the pattern zero. -/
theorem unpack_of_zero {value : Float} (hzero : pattern value = 0) :
    value.toModel.unpack = .zero (sign value) := by
  obtain ⟨hexponent, hmantissa⟩ := fields_eq_zero_iff value
  have hclear : @unpackExponent Format.binary64 value.toBits.toBitVec = 0#11 :=
    hexponent.mpr (by rw [hzero]; decide)
  have hplain : @unpackMantissa Format.binary64 value.toBits.toBitVec = 0#52 :=
    hmantissa.mpr (by rw [hzero]; decide)
  calc value.toModel.unpack
      = UnpackedFloat.unpack Format.binary64 value.toBits.toBitVec := rfl
    _ = .zero (sign value) := by
        simp only [UnpackedFloat.unpack, hclear, hplain, (fields value).2.2]
        rfl

/-- The two infinities have the pattern of infinity. -/
theorem unpack_of_infinity {value : Float} (hinfinite : pattern value = Magnitude.infinity) :
    value.toModel.unpack = .infinity (sign value) := by
  have hexponent : @unpackExponent Format.binary64 value.toBits.toBitVec = -1#11 :=
    (unpackExponent_eq_max_iff _).mpr hinfinite.ge
  have hplain : @unpackMantissa Format.binary64 value.toBits.toBitVec = 0#52 :=
    (fields_eq_zero_iff value).2.mpr (by rw [hinfinite]; decide)
  calc value.toModel.unpack
      = UnpackedFloat.unpack Format.binary64 value.toBits.toBitVec := rfl
    _ = .infinity (sign value) := by
        simp only [UnpackedFloat.unpack, hexponent, hplain, (fields value).2.2]
        rfl

/-- All patterns between those of zero and infinity have a significand and an
exponent. -/
theorem unpack_of_finite {value : Float} (hpos : 0 < pattern value)
    (hfinite : pattern value < Magnitude.infinity) :
    ∃ hsignificand, value.toModel.unpack = .finite (sign value)
      (Magnitude.significand (pattern value)) (Magnitude.scale (pattern value) - 1074)
      hsignificand := by
  obtain ⟨hexponent, hmantissa, hsign⟩ := fields value
  obtain ⟨hsubnormal, hplain⟩ := fields_eq_zero_iff value
  have hmax : ¬ @unpackExponent Format.binary64 value.toBits.toBitVec = -1#11 := by
    rw [unpackExponent_eq_max_iff]
    exact Nat.not_le.mpr hfinite
  have hbias : (Format.binary64.exponentBias : ℤ) = 1023 := by decide
  have hunpack :
      value.toModel.unpack = UnpackedFloat.unpack Format.binary64 value.toBits.toBitVec := rfl
  rw [hunpack, UnpackedFloat.unpack, if_neg hmax]
  unfold Magnitude.significand Magnitude.scale
  by_cases hsmall : pattern value < Magnitude.binade
  · -- The lowest binade has no leading bit, and the exponent of the one above it.
    have hplace : ¬ @unpackMantissa Format.binary64 value.toBits.toBitVec = 0#52 := by
      rw [hplain, Nat.mod_eq_of_lt hsmall]
      omega
    rw [if_pos (hsubnormal.mpr hsmall), dif_neg hplace]
    simp only [if_pos hsmall, UnpackedFloat.finite.injEq, hsign, hmantissa, hexponent, hbias,
      Nat.mod_eq_of_lt hsmall, Nat.div_eq_of_lt hsmall]
    exact ⟨hpos, trivial, trivial, by norm_num⟩
  · have hlarge : 1 ≤ pattern value / Magnitude.binade :=
      (Nat.one_le_div_iff (by decide)).mpr (Nat.not_lt.mp hsmall)
    have hsignificand : (1#1 ++ @unpackMantissa Format.binary64 value.toBits.toBitVec).toNat =
        Magnitude.binade + pattern value % Magnitude.binade := by
      have hplace : pattern value % Magnitude.binade < Magnitude.binade := Nat.mod_lt _ (by decide)
      rw [BitVec.toNat_append, hmantissa, ← Nat.shiftLeft_add_eq_or_of_lt hplace]
      rfl
    have hbinade : 0 < Magnitude.binade := by decide
    have hnormal : ¬ @unpackExponent Format.binary64 value.toBits.toBitVec = 0#11 := by
      rwa [hsubnormal]
    rw [if_neg hnormal]
    simp only [if_neg hsmall, UnpackedFloat.finite.injEq, hsign, hsignificand, hexponent, hbias]
    refine ⟨by omega, trivial, trivial, ?_⟩
    push_cast
    omega

/-- A number is zero, finite or infinite, as its pattern says. -/
theorem unpack_cases {value : Float} (hnumber : pattern value ≤ Magnitude.infinity) :
    (pattern value = 0 ∧ value.toModel.unpack = .zero (sign value)) ∨
    (pattern value < Magnitude.infinity ∧
      ∃ hsignificand, value.toModel.unpack = .finite (sign value)
        (Magnitude.significand (pattern value)) (Magnitude.scale (pattern value) - 1074)
        hsignificand) ∨
    (pattern value = Magnitude.infinity ∧ value.toModel.unpack = .infinity (sign value)) := by
  rcases Nat.eq_zero_or_pos (pattern value) with hzero | hpos
  · exact Or.inl ⟨hzero, unpack_of_zero hzero⟩
  · rcases Nat.lt_or_eq_of_le hnumber with hfinite | hinfinite
    · exact Or.inr (Or.inl ⟨hfinite, unpack_of_finite hpos hfinite⟩)
    · exact Or.inr (Or.inr ⟨hinfinite, unpack_of_infinity hinfinite⟩)

/-- The numbers with the pattern of infinity are the infinite ones. -/
theorem isInf_iff_pattern {value : Float} :
    value.isInf = true ↔ pattern value = Magnitude.infinity := by
  have hisInf : value.isInf = value.toModel.unpack.isInf := rfl
  constructor
  · intro hinfinite
    by_cases hnumber : pattern value ≤ Magnitude.infinity
    · rw [hisInf] at hinfinite
      rcases unpack_cases hnumber with ⟨_, hunpack⟩ | ⟨_, _, hunpack⟩ | ⟨heq, _⟩
      · rw [hunpack] at hinfinite
        cases hinfinite
      · rw [hunpack] at hinfinite
        cases hinfinite
      · exact heq
    · have hnan : value = Float.nan := eq_nan_iff_pattern.mpr (Nat.not_le.mp hnumber)
      subst hnan
      exact absurd hinfinite (by decide)
  · intro hinfinite
    rw [hisInf, unpack_of_infinity hinfinite]
    rfl

/-- In quanta, a finite number is the quanta of its pattern with its sign. -/
theorem quantity_mul_quantaInOne {value : Float} (hfinite : pattern value < Magnitude.infinity) :
    quantity value * Magnitude.quantaInOne =
      (sign value).apply (Magnitude.quanta (pattern value)) := by
  have htwo : (Magnitude.quantaInOne : ℚ) = 2 ^ (1074 : ℤ) := by
    rw [Magnitude.cast_quantaInOne, ← zpow_natCast, Nat.cast_ofNat]
  unfold quantity
  rcases Nat.eq_zero_or_pos (pattern value) with hzero | hpos
  · have hquanta : Magnitude.quanta 0 = 0 := by decide
    rw [unpack_of_zero hzero, hzero, hquanta, zero_mul]
    cases sign value <;> rfl
  · obtain ⟨_, hunpack⟩ := unpack_of_finite hpos hfinite
    rw [hunpack]
    simp only
    rw [htwo, mul_assoc, ← zpow_add₀ (by norm_num), sub_add_cancel, zpow_natCast,
      Magnitude.quanta, Nat.pow_eq]
    cases sign value <;> simp [Sign.apply]

/-- The significand of a finite number is that of its pattern. -/
theorem significand_eq {value : Float} (hfinite : pattern value < Magnitude.infinity) :
    significand value = Magnitude.significand (pattern value) := by
  unfold significand
  rcases Nat.eq_zero_or_pos (pattern value) with hzero | hpos
  · rw [unpack_of_zero hzero, hzero]
    rfl
  · obtain ⟨_, hunpack⟩ := unpack_of_finite hpos hfinite
    rw [hunpack]

/-! ## Rounding to a double -/

/-- The least number that is too large to be rounded to a finite double: half a
step beyond the largest one. -/
def overflow : ℚ := 2 ^ 1024 - 2 ^ 970

/-- A number is rounded to a double with its sign: to infinity if it is too large,
and otherwise to the nearest finite double. If two of them are equally near, it
is rounded to the one with the even significand. -/
structure Rounded (exact : ℚ) (value : Float) : Prop where
  /-- The double has the sign of the number. -/
  signed : signBit ≤ value.toBits.toNat ↔ exact < 0
  /-- Too large numbers become infinite. -/
  infinite : overflow ≤ |exact| → value.isInf = true
  /-- All others stay finite. -/
  finite : |exact| < overflow → value.isFinite = true
  /-- No finite double is nearer. -/
  nearest : |exact| < overflow → ∀ other : Float, other.isFinite = true →
    |exact - quantity value| ≤ |exact - quantity other|
  /-- If another finite double is as near, the significand is even. -/
  even : |exact| < overflow → ∀ other : Float, other.isFinite = true →
    quantity other ≠ quantity value → |exact - quantity value| = |exact - quantity other| →
    significand value % 2 = 0

/-- Too large numbers begin half a step below the pattern of infinity. -/
theorem two_mul_overflow :
    2 * (overflow * Magnitude.quantaInOne) =
      Magnitude.quanta (Magnitude.infinity - 1) + Magnitude.quanta Magnitude.infinity := by
  have hbinade : Magnitude.binade = 2 ^ 52 := by decide
  have hscale : (2 : ℚ) ^ 2045 = 2 ^ 971 * Magnitude.quantaInOne := by
    rw [Magnitude.cast_quantaInOne, ← pow_add]
  have hlarge : (2 : ℚ) ^ 1024 = 2 ^ 970 * 2 ^ 54 := by rw [← pow_add]
  have hstep : (2 : ℚ) ^ 971 = 2 ^ 970 * 2 := by rw [← pow_succ]
  rw [Magnitude.quanta_infinity.1, Magnitude.quanta_infinity.2, overflow, hlarge, hbinade,
    Nat.cast_mul, Nat.cast_mul, Nat.cast_pow, Nat.cast_ofNat, hscale, hstep]
  generalize (2 : ℚ) ^ 970 = step
  generalize (Magnitude.quantaInOne : ℚ) = one
  norm_num
  ring

/-- Every pattern up to infinity is that of a number with a given sign. -/
theorem exists_pattern_eq (negative : Prop) {magnitude : ℕ}
    (hmagnitude : magnitude ≤ Magnitude.infinity) :
    ∃ value : Float, pattern value = magnitude ∧ (signBit ≤ value.toBits.toNat ↔ negative) := by
  have hinfinity : Magnitude.infinity < signBit := by decide
  have hsize : 2 * signBit = 2 ^ 64 := by decide
  have hbits {bits : ℕ} (hfits : bits < 2 ^ 64) (hpattern : bits % signBit = magnitude) :
      (Float.ofBits (UInt64.ofNat bits)).toBits.toNat = bits := by
    have hnat : (UInt64.ofNat bits).toNat = bits := UInt64.toNat_ofNat_of_lt' hfits
    rw [toBits_ofBits (by rwa [hnat, hpattern]), hnat]
  by_cases hnegative : negative
  · have hpattern : (signBit + magnitude) % signBit = magnitude := by
      rw [Nat.add_mod_left, Nat.mod_eq_of_lt (by omega)]
    have hsame := hbits (by omega) hpattern
    refine ⟨Float.ofBits (UInt64.ofNat (signBit + magnitude)), ?_, ?_⟩
    · rw [pattern, hsame, hpattern]
    · rw [hsame]
      exact ⟨fun _ => hnegative, fun _ => by omega⟩
  · have hpattern : magnitude % signBit = magnitude := Nat.mod_eq_of_lt (by omega)
    have hsame := hbits (by omega) hpattern
    refine ⟨Float.ofBits (UInt64.ofNat magnitude), ?_, ?_⟩
    · rw [pattern, hsame, hpattern]
    · rw [hsame]
      exact ⟨fun _ => by omega, fun h => absurd h hnegative⟩

/-- There are quanta in one. -/
theorem quantaInOne_pos : (0 : ℚ) < Magnitude.quantaInOne := by
  rw [Magnitude.cast_quantaInOne]
  positivity

/-- Without its sign, a finite number is the quanta of its pattern. -/
theorem abs_quantity {value : Float} (hfinite : pattern value < Magnitude.infinity) :
    |quantity value| * Magnitude.quantaInOne = Magnitude.quanta (pattern value) := by
  rw [← abs_of_pos quantaInOne_pos, ← abs_mul, quantity_mul_quantaInOne hfinite]
  cases sign value <;> simp [Sign.apply]

/-- A finite number is zero exactly if its pattern is. -/
theorem quantity_eq_zero_iff {value : Float} (hfinite : pattern value < Magnitude.infinity) :
    quantity value = 0 ↔ pattern value = 0 := by
  have hzero : Magnitude.quanta 0 = 0 := by decide
  rw [← abs_eq_zero, ← mul_eq_zero_iff_right quantaInOne_pos.ne', abs_quantity hfinite,
    Nat.cast_eq_zero]
  constructor
  · intro hquanta
    exact Magnitude.quanta_strictMono.injective (hquanta.trans hzero.symm)
  · intro hpattern
    rw [hpattern, hzero]

/-- A finite number has the sign that its sign bit says. -/
theorem quantity_signed {value : Float} (hfinite : pattern value < Magnitude.infinity) :
    if signBit ≤ value.toBits.toNat then quantity value ≤ 0 else 0 ≤ quantity value := by
  have hquantity := quantity_mul_quantaInOne hfinite
  unfold sign at hquantity
  split_ifs at hquantity ⊢ with hnegative
  · refine nonpos_of_mul_nonpos_left ?_ quantaInOne_pos
    rw [hquantity]
    simp [Sign.apply]
  · refine nonneg_of_mul_nonneg_left ?_ quantaInOne_pos
    rw [hquantity]
    simp [Sign.apply]

/-- The distance to a finite number of the same sign is that without the signs. -/
theorem abs_sub_quantity {exact : ℚ} {value : Float}
    (hfinite : pattern value < Magnitude.infinity)
    (hsigned : signBit ≤ value.toBits.toNat ↔ exact < 0) :
    |exact - quantity value| = |(|exact| - |quantity value|)| := by
  have hquantity := quantity_signed hfinite
  split_ifs at hquantity with hnegative
  · rw [abs_of_neg (hsigned.mp hnegative), abs_of_nonpos hquantity, ← abs_neg]
    congr 1
    ring
  · have hnonneg : 0 ≤ exact := not_lt.mp fun h => hnegative (hsigned.mpr h)
    rw [abs_of_nonneg hnonneg, abs_of_nonneg hquantity]

/-- In quanta, the distance to a finite number of the same sign is that of the
magnitudes. -/
theorem distance_of_signed {exact : ℚ} {value : Float}
    (hfinite : pattern value < Magnitude.infinity)
    (hsigned : signBit ≤ value.toBits.toNat ↔ exact < 0) :
    |exact - quantity value| * Magnitude.quantaInOne =
      |(|exact| * Magnitude.quantaInOne) - Magnitude.quanta (pattern value)| := by
  rw [abs_sub_quantity hfinite hsigned, ← abs_quantity hfinite, ← sub_mul, abs_mul,
    abs_of_pos quantaInOne_pos]

/-- The distance to a finite number is not less than that of the magnitudes. -/
theorem le_distance (exact : ℚ) {value : Float} (hfinite : pattern value < Magnitude.infinity) :
    |(|exact| * Magnitude.quantaInOne) - Magnitude.quanta (pattern value)| ≤
      |exact - quantity value| * Magnitude.quantaInOne := by
  rw [← abs_quantity hfinite, ← sub_mul, abs_mul, abs_of_pos quantaInOne_pos]
  exact mul_le_mul_of_nonneg_right (abs_abs_sub_abs_le_abs_sub _ _) quantaInOne_pos.le

/-- Numbers are too large if their closest pattern is not finite. -/
theorem overflow_le_iff {exact : ℚ} {closest : ℕ}
    (h : Magnitude.Closest (|exact| * Magnitude.quantaInOne) closest) :
    overflow ≤ |exact| ↔ Magnitude.infinity ≤ closest := by
  rw [h.infinity_le_iff, ← two_mul_overflow, mul_le_mul_iff_right₀ (by norm_num),
    mul_le_mul_iff_left₀ quantaInOne_pos]

/-- Only to zero, two opposite finite numbers are equally near. -/
theorem eq_zero_of_opposite {exact : ℚ} {value other : Float}
    (hvalue : pattern value < Magnitude.infinity) (hpattern : pattern other = pattern value)
    (hne : quantity other ≠ quantity value)
    (htie : |exact - quantity value| = |exact - quantity other|) : exact = 0 := by
  have hmagnitude : |quantity other| = |quantity value| := by
    have hother : pattern other < Magnitude.infinity := by omega
    apply mul_right_cancel₀ quantaInOne_pos.ne'
    rw [abs_quantity hvalue, abs_quantity hother, hpattern]
  have hopposite : quantity other = -quantity value :=
    (abs_eq_abs.mp hmagnitude).resolve_left hne
  have hmiddle := (Magnitude.abs_sub_eq_abs_sub_iff hne.symm).mp htie
  rw [hopposite] at hmiddle
  linarith

/-- A double with the closest pattern is what a number of this sign is rounded to. -/
theorem Rounded.of_closest {exact : ℚ} {closest : ℕ} {value : Float}
    (h : Magnitude.Closest (|exact| * Magnitude.quantaInOne) closest)
    (hsigned : signBit ≤ value.toBits.toNat ↔ exact < 0)
    (hpattern : pattern value = min Magnitude.infinity closest) : Rounded exact value := by
  have hbound := overflow_le_iff h
  have hexactly (hsmall : |exact| < overflow) :
      pattern value = closest ∧ pattern value < Magnitude.infinity := by
    have hfinite : ¬ Magnitude.infinity ≤ closest := by
      rw [← hbound]
      exact not_le.mpr hsmall
    omega
  refine ⟨hsigned, ?_, ?_, ?_, ?_⟩
  · intro hlarge
    rw [isInf_iff_pattern, hpattern, min_eq_left (hbound.mp hlarge)]
  · intro hsmall
    exact isFinite_iff_pattern.mpr (hexactly hsmall).2
  · intro hsmall other hother
    obtain ⟨rfl, hfinite⟩ := hexactly hsmall
    rw [← mul_le_mul_iff_left₀ quantaInOne_pos, distance_of_signed hfinite hsigned]
    exact (h.le _).trans (le_distance exact (pattern_lt_of_isFinite hother))
  · intro hsmall other hother hne htie
    obtain ⟨rfl, hfinite⟩ := hexactly hsmall
    have hle := le_distance exact (pattern_lt_of_isFinite hother)
    rw [← htie, distance_of_signed hfinite hsigned] at hle
    rw [significand_eq hfinite]
    refine h.even (pattern other) ?_ (le_antisymm (h.le _) hle)
    intro hsame
    -- Opposite numbers are equally near to zero only, and zero is rounded to itself.
    have hexact := eq_zero_of_opposite hfinite hsame hne htie
    have hzero : pattern value = 0 := by
      rw [h.eq_zero_iff, hexact]
      norm_num
    have hfiniteOther := pattern_lt_of_isFinite hother
    exact hne (by rw [(quantity_eq_zero_iff hfiniteOther).mpr (hsame.trans hzero),
      (quantity_eq_zero_iff hfinite).mpr hzero])

/-- What a number is rounded to has the closest pattern. -/
theorem Rounded.pattern_eq {exact : ℚ} {closest : ℕ} {value : Float}
    (hrounded : Rounded exact value)
    (h : Magnitude.Closest (|exact| * Magnitude.quantaInOne) closest) :
    pattern value = min Magnitude.infinity closest := by
  rcases le_or_gt overflow |exact| with hlarge | hsmall
  · rw [min_eq_left ((overflow_le_iff h).mp hlarge)]
    exact isInf_iff_pattern.mp (hrounded.infinite hlarge)
  · have hfinite := pattern_lt_of_isFinite (hrounded.finite hsmall)
    have hclosest : Magnitude.Closest (|exact| * Magnitude.quantaInOne) (pattern value) := by
      apply Magnitude.closest_of_finite
      · rw [← two_mul_overflow]
        have hpos := quantaInOne_pos
        gcongr
      · intro magnitude hmagnitude
        obtain ⟨other, rfl, hsigned⟩ := exists_pattern_eq (exact < 0) hmagnitude.le
        rw [← distance_of_signed hfinite hrounded.signed, ← distance_of_signed hmagnitude hsigned]
        exact mul_le_mul_of_nonneg_right
          (hrounded.nearest hsmall other (isFinite_iff_pattern.mpr hmagnitude)) quantaInOne_pos.le
      · intro magnitude hmagnitude hne htie
        obtain ⟨other, rfl, hsigned⟩ := exists_pattern_eq (exact < 0) hmagnitude.le
        rw [← distance_of_signed hfinite hrounded.signed, ← distance_of_signed hmagnitude hsigned]
          at htie
        rw [← significand_eq hfinite]
        refine hrounded.even hsmall other (isFinite_iff_pattern.mpr hmagnitude) ?_
          (mul_right_cancel₀ quantaInOne_pos.ne' htie)
        intro hsame
        apply hne
        apply Magnitude.quanta_strictMono.injective
        have hquanta := abs_quantity hmagnitude
        rw [hsame, abs_quantity hfinite] at hquanta
        exact_mod_cast hquanta.symm
    have hunique := hclosest.unique h
    omega

/-- Sign and pattern are all that a number has. -/
theorem eq_of_pattern_eq {value value' : Float}
    (hsigned : signBit ≤ value.toBits.toNat ↔ signBit ≤ value'.toBits.toNat)
    (hpattern : pattern value = pattern value') : value = value' := by
  apply Float.toBits_inj.mp
  apply UInt64.toNat_inj.mp
  by_cases hnegative : signBit ≤ value.toBits.toNat
  · rw [← signBit_add_pattern hnegative, ← signBit_add_pattern (hsigned.mp hnegative), hpattern]
  · have hpositive : ¬ signBit ≤ value'.toBits.toNat := by rwa [← hsigned]
    rw [pattern, pattern, Nat.mod_eq_of_lt (Nat.lt_of_not_le hnegative),
      Nat.mod_eq_of_lt (Nat.lt_of_not_le hpositive)] at hpattern
    exact hpattern

/-- A number is rounded to one double only. -/
theorem Rounded.unique {exact : ℚ} {value value' : Float} (h : Rounded exact value)
    (h' : Rounded exact value') : value = value' := by
  obtain ⟨closest, hclosest⟩ := Magnitude.exists_closest (abs_nonneg exact)
  apply eq_of_pattern_eq
  · rw [h.signed, h'.signed]
  · rw [h.pattern_eq hclosest, h'.pattern_eq hclosest]

/-! ## Order -/

/-- A larger pattern has a larger exponent, or the same one and a larger
significand. -/
theorem scale_lt_or_significand_le {magnitude magnitude' : ℕ} (hle : magnitude ≤ magnitude') :
    Magnitude.scale magnitude < Magnitude.scale magnitude' ∨
      Magnitude.scale magnitude = Magnitude.scale magnitude' ∧
        Magnitude.significand magnitude ≤ Magnitude.significand magnitude' := by
  have hscale : Magnitude.scale magnitude ≤ Magnitude.scale magnitude' :=
    Nat.sub_le_sub_right (Nat.div_le_div_right hle) 1
  rcases Nat.lt_or_eq_of_le hscale with hlt | heq
  · exact Or.inl hlt
  · have hsplit := Magnitude.scale_mul_add_significand magnitude
    have hsplit' := Magnitude.scale_mul_add_significand magnitude'
    rw [heq] at hsplit
    exact Or.inr ⟨heq, by omega⟩

/-- Without a sign, the order of two numbers is that of their patterns. -/
theorem le_of_pattern_le {value value' : Float} (hsign : value.toBits.toNat < signBit)
    (hsign' : value'.toBits.toNat < signBit) (hnumber : pattern value' ≤ Magnitude.infinity)
    (hle : pattern value ≤ pattern value') : value ≤ value' := by
  have hpositive : sign value = .positive := if_neg (Nat.not_le.mpr hsign)
  have hpositive' : sign value' = .positive := if_neg (Nat.not_le.mpr hsign')
  have hcases := unpack_cases (hle.trans hnumber)
  have hcompare : value.toModel.unpack.le value'.toModel.unpack = true := by
    rcases unpack_cases hnumber with ⟨hzero', hunpack'⟩ | ⟨hfinite', _, hunpack'⟩ | ⟨_, hunpack'⟩
    · rw [hunpack', unpack_of_zero (by omega)]
      rfl
    · rcases hcases with ⟨_, hunpack⟩ | ⟨_, _, hunpack⟩ | ⟨hinfinite, _⟩
      · rw [hunpack, hunpack', hpositive']
        rfl
      · rw [hunpack, hunpack', hpositive, hpositive']
        simp only [UnpackedFloat.le, UnpackedFloat.compare, Option.any_some]
        -- The exponents decide, and if they are the same the significands do.
        rcases scale_lt_or_significand_le hle with hlt | ⟨heq, hsignificand⟩
        · have hexponent : (Magnitude.scale (pattern value) : ℤ) - 1074 <
              Magnitude.scale (pattern value') - 1074 := by omega
          rw [Int.compare_eq_lt.mpr hexponent]
          rfl
        · rw [heq, Std.compare_self, Ordering.eq_then, Nat.isLE_compare]
          exact hsignificand
      · omega
    · rcases hcases with ⟨_, hunpack⟩ | ⟨_, _, hunpack⟩ | ⟨_, hunpack⟩
      · rw [hunpack, hunpack', hpositive']
        rfl
      · rw [hunpack, hunpack', hpositive']
        rfl
      · rw [hunpack, hunpack', hpositive, hpositive']
        rfl
  exact decide_eq_true hcompare

end Number

end Calculator
