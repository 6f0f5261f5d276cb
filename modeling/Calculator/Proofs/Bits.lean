import Calculator.Number
import Mathlib

/-!
# The bits of numbers

A number is determined by its bits, and every pattern up to infinity, with or
without the sign bit, is that of a number. All other patterns belong to the one
value that is not a number. Negation sets or clears the sign bit.

The facts on packing and unpacking that this rests on are those of the libraries.
Only the import of all of Mathlib brings them in; no single module of it does.
-/

namespace Calculator

open Float.Model Float.Model.UnpackedFloat

namespace Number

/-! ## Fields -/

/-- The exponent field stands above the lowest 52 bits. -/
theorem toNat_unpackExponent (bits : BitVec 64) :
    (@unpackExponent Format.binary64 bits).toNat = bits.toNat / 2 ^ 52 % 2 ^ 11 := by
  rw [unpackExponent_def]
  simp [BitVec.extractLsb'_toNat, Nat.shiftRight_eq_div_pow]

/-- The fraction field is the lowest 52 bits. -/
theorem toNat_unpackMantissa (bits : BitVec 64) :
    (@unpackMantissa Format.binary64 bits).toNat = bits.toNat % 2 ^ 52 := by
  rw [unpackMantissa_def]
  simp

/-- The sign field is the highest bit. -/
theorem toNat_unpackSign (bits : BitVec 64) :
    (@unpackSign Format.binary64 bits).toNat = bits.toNat / 2 ^ 63 := by
  have hbits := bits.isLt
  rw [unpackSign_def]
  simp only [BitVec.extractLsb'_toNat, Nat.shiftRight_eq_div_pow]
  omega

/-- The exponent field of infinities and of what is not a number has all its bits
set. -/
theorem unpackExponent_eq_max_iff (bits : BitVec 64) :
    @unpackExponent Format.binary64 bits = -1#11 ↔
      Magnitude.infinity ≤ bits.toNat % signBit := by
  rw [← BitVec.toNat_inj, toNat_unpackExponent]
  simp only [Magnitude.infinity, Magnitude.binade, signBit]
  have hmax : (-1#11).toNat = 2047 := by decide
  rw [hmax]
  omega

/-- Only patterns beyond infinity are not those of a number. -/
theorem isNaNBits_iff (bits : BitVec 64) :
    @isNaNBits Format.binary64 bits = true ↔ Magnitude.infinity < bits.toNat % signBit := by
  unfold isNaNBits
  rw [decide_eq_true_iff, unpackExponent_eq_max_iff, ne_eq, ← BitVec.toNat_inj,
    toNat_unpackMantissa]
  simp only [Magnitude.infinity, Magnitude.binade, signBit, BitVec.toNat_ofNat]
  omega

/-! ## Numbers and their patterns -/

/-- The bits of a number are those that it is made from. -/
theorem toBits_ofBits {bits : UInt64} (hnumber : bits.toNat % signBit ≤ Magnitude.infinity) :
    (Float.ofBits bits).toBits = bits := by
  have hbits : ¬ @isNaNBits Format.binary64 bits.toBitVec = true := by
    rw [isNaNBits_iff]
    exact Nat.not_lt.mpr hnumber
  have hpack := @pack_unpack Format.binary64 bits.toBitVec (by decide)
  rw [if_neg hbits] at hpack
  exact UInt64.toBitVec_inj.mp hpack

/-- A pattern up to infinity fits into the bits of a number. -/
theorem toNat_ofNat_pattern {pattern : Nat} (hnumber : pattern ≤ Magnitude.infinity) :
    (UInt64.ofNat pattern).toNat = pattern := by
  have hfits : Magnitude.infinity < UInt64.size := by decide
  exact UInt64.toNat_ofNat_of_lt' (Nat.lt_of_le_of_lt hnumber hfits)

/-- The number that is made from a pattern up to infinity has this pattern. -/
theorem toBits_ofBits_pattern {pattern : Nat} (hnumber : pattern ≤ Magnitude.infinity) :
    (Float.ofBits (UInt64.ofNat pattern)).toBits = UInt64.ofNat pattern := by
  apply toBits_ofBits
  rw [toNat_ofNat_pattern hnumber]
  exact Nat.le_trans (Nat.mod_le _ _) hnumber

/-- Patterns beyond infinity belong to the value that is not a number. -/
theorem eq_nan_iff_pattern {value : Float} :
    value = Float.nan ↔ Magnitude.infinity < pattern value := by
  have hvalid := value.toModel.valid
  have hpattern := isNaNBits_iff value.toBits.toBitVec
  constructor
  · rintro rfl
    decide
  · intro hnan
    have hpacked : @isNaNBits Format.binary64 value.toBits.toBitVec = true := hpattern.mpr hnan
    unfold isNaNBits at hpacked
    rw [decide_eq_true_iff] at hpacked
    have hbits := hvalid.eq_packedNaN hpacked.1 hpacked.2
    have hisNaN : value.isNaN = true := (isNaN_unpack_iff_of_valid hvalid).mpr hbits
    rwa [Float.isNaN_eq_decide_eq_nan, decide_eq_true_iff] at hisNaN

/-- A finite number has a pattern below infinity. -/
theorem pattern_lt_of_isFinite {value : Float} (hfinite : value.isFinite = true) :
    pattern value < Magnitude.infinity := by
  by_contra hlarge
  have hexponent : @unpackExponent Format.binary64 value.toBits.toBitVec = -1#11 :=
    (unpackExponent_eq_max_iff _).mpr (Nat.not_lt.mp hlarge)
  have hunpack : (UnpackedFloat.unpack Format.binary64 value.toBits.toBitVec).isFinite = true :=
    hfinite
  rw [UnpackedFloat.unpack, if_pos hexponent] at hunpack
  split_ifs at hunpack <;> cases hunpack

/-- A number without its sign bit is its pattern. -/
theorem ofBits_pattern {value : Float} (hsign : value.toBits.toNat < signBit) :
    Float.ofBits (UInt64.ofNat (pattern value)) = value := by
  rw [pattern, Nat.mod_eq_of_lt hsign, UInt64.ofNat_toNat, Float.ofBits_toBits]

/-- Bits that differ in the sign only unpack to opposite numbers. -/
theorem unpack_signed {bits : BitVec 64} (hmagnitude : bits.toNat ≤ Magnitude.infinity)
    {signed : BitVec 64} (hsigned : signed.toNat = signBit + bits.toNat) :
    UnpackedFloat.unpack Format.binary64 signed =
      (UnpackedFloat.unpack Format.binary64 bits).neg := by
  simp only [Magnitude.infinity, Magnitude.binade, signBit] at hmagnitude hsigned
  have hexponent : @unpackExponent Format.binary64 signed =
      @unpackExponent Format.binary64 bits := by
    rw [← BitVec.toNat_inj, toNat_unpackExponent, toNat_unpackExponent]
    omega
  have hmantissa : @unpackMantissa Format.binary64 signed =
      @unpackMantissa Format.binary64 bits := by
    rw [← BitVec.toNat_inj, toNat_unpackMantissa, toNat_unpackMantissa]
    omega
  have hnegative : @unpackSign Format.binary64 signed = 1#1 := by
    rw [← BitVec.toNat_inj, toNat_unpackSign]
    simp only [BitVec.toNat_ofNat]
    omega
  have hpositive : @unpackSign Format.binary64 bits = 0#1 := by
    rw [← BitVec.toNat_inj, toNat_unpackSign]
    simp only [BitVec.toNat_ofNat]
    omega
  simp only [UnpackedFloat.unpack, hexponent, hmantissa, hnegative, hpositive]
  split_ifs <;> rfl

/-- Negation sets the sign bit. -/
theorem neg_ofBits {magnitude : Nat} (hmagnitude : magnitude ≤ Magnitude.infinity) :
    -Float.ofBits (UInt64.ofNat magnitude) =
      Float.ofBits (UInt64.ofNat (signBit + magnitude)) := by
  have hbound : signBit + magnitude < 2 ^ 64 := by
    simp only [Magnitude.infinity, Magnitude.binade, signBit] at hmagnitude ⊢
    omega
  have hplain := toNat_ofNat_pattern hmagnitude
  have hsigned : (UInt64.ofNat (signBit + magnitude)).toNat = signBit + magnitude :=
    UInt64.toNat_ofNat_of_lt' hbound
  -- The bits come back unchanged before they are negated, and are packed only once.
  have hunpack : (Float.ofBits (UInt64.ofNat magnitude)).toModel.unpack =
      UnpackedFloat.unpack Format.binary64 (UInt64.ofNat magnitude).toBitVec :=
    congrArg (fun bits : UInt64 => UnpackedFloat.unpack Format.binary64 bits.toBitVec)
      (toBits_ofBits_pattern hmagnitude)
  have hopposite : UnpackedFloat.unpack Format.binary64
      (UInt64.ofNat (signBit + magnitude)).toBitVec =
        (UnpackedFloat.unpack Format.binary64 (UInt64.ofNat magnitude).toBitVec).neg :=
    unpack_signed (hplain.trans_le hmagnitude) (by
      rw [UInt64.toNat_toBitVec, UInt64.toNat_toBitVec, hplain, hsigned])
  calc -Float.ofBits (UInt64.ofNat magnitude)
      = .ofModel (Float.Model.pack (Float.ofBits (UInt64.ofNat magnitude)).toModel.unpack.neg) :=
        rfl
    _ = .ofModel (Float.Model.pack (UnpackedFloat.unpack Format.binary64
          (UInt64.ofNat (signBit + magnitude)).toBitVec)) := by rw [hunpack, hopposite]
    _ = Float.ofBits (UInt64.ofNat (signBit + magnitude)) := rfl

/-- The bits of a number with a sign are the sign bit and its pattern. -/
theorem signBit_add_pattern {value : Float} (hsign : signBit ≤ value.toBits.toNat) :
    signBit + pattern value = value.toBits.toNat := by
  have hbound : value.toBits.toNat < 2 ^ 64 := value.toBits.toNat_lt
  simp only [pattern, signBit] at hsign ⊢
  omega

/-- A number with its sign bit is its pattern negated. -/
theorem neg_ofBits_pattern {value : Float} (hsign : signBit ≤ value.toBits.toNat)
    (hnumber : pattern value ≤ Magnitude.infinity) :
    -Float.ofBits (UInt64.ofNat (pattern value)) = value := by
  rw [neg_ofBits hnumber, signBit_add_pattern hsign, UInt64.ofNat_toNat, Float.ofBits_toBits]

end Number

end Calculator
