import Calculator.Proofs.LiteralValues

/-!
# The shortest decimal

The decimals that read as one magnitude lie together: between two of them there is
no other number. So if a point of a decimal grid reads as a magnitude, one of the
two neighbours of its exact value does, and it is at least as near. A decimal of
few digits is a point of a coarse grid, or it can be replaced by a power of ten.
This is why the search, which goes from coarse grids to fine ones, finds a decimal
with the fewest digits, and the nearest of those.
-/

namespace Calculator

/-- The number can be written with this many significant digits, or with fewer. -/
def HasDigits (count : ℕ) (x : ℚ) : Prop :=
  ∃ coefficient exponent : ℤ, |coefficient| < 10 ^ count ∧ x = coefficient * 10 ^ exponent

/-- Without its sign, a number has the same digits. -/
theorem HasDigits.abs {count : ℕ} {x : ℚ} (h : HasDigits count x) :
    ∃ (coefficient : ℕ) (exponent : ℤ), coefficient < 10 ^ count ∧
      |x| = coefficient * 10 ^ exponent := by
  obtain ⟨coefficient, exponent, hfew, rfl⟩ := h
  refine ⟨coefficient.natAbs, exponent, ?_, ?_⟩
  · rw [Int.abs_eq_natAbs] at hfew
    exact_mod_cast hfew
  · rw [abs_mul, abs_of_pos (show (0 : ℚ) < 10 ^ exponent by positivity), Nat.cast_natAbs,
      Int.cast_abs]

namespace Magnitude

/-- A number reads as a pattern if no other one is closer to it. -/
def Reads (x : ℚ) (pattern : ℕ) : Prop := Closest (x * quantaInOne) pattern

/-- What lies between two numbers that read as a pattern reads as it too. -/
theorem Reads.between {x y z : ℚ} {pattern : ℕ} (hx : Reads x pattern) (hz : Reads z pattern)
    (hxy : x ≤ y) (hyz : y ≤ z) : Reads y pattern :=
  Closest.between hx hz (mul_le_mul_of_nonneg_right hxy Number.quantaInOne_pos.le)
    (mul_le_mul_of_nonneg_right hyz Number.quantaInOne_pos.le)

/-- A decimal has a finite pattern exactly if it reads as it. -/
theorem magnitude_eq_iff_reads {d : Decimal} {pattern : ℕ} (hfinite : pattern < infinity) :
    d.magnitude = pattern ↔ Reads d.quantity pattern := by
  obtain ⟨closest, hclosest, hmagnitude⟩ := d.closest_magnitude
  constructor
  · intro heq
    have hsame : closest = pattern := by omega
    rwa [hsame] at hclosest
  · intro hreads
    have hsame := hclosest.unique hreads
    omega

/-- The exact decimal of a magnitude, in quanta. -/
theorem quantity_exact (pattern : ℕ) :
    (exact pattern).quantity * quantaInOne = quanta pattern := by
  have hcross : (exact pattern).numerator * quantaInOne =
      quanta pattern * (exact pattern).denominator := by
    unfold quantaInOne
    exact numerator_exact pattern
  have hden : ((exact pattern).denominator : ℚ) ≠ 0 := by
    exact_mod_cast (exact pattern).denominator_pos.ne'
  rw [← Decimal.numerator_div_denominator, div_mul_eq_mul_div, div_eq_iff hden]
  exact_mod_cast hcross

/-! ## The neighbours on a grid -/

/-- The point of a grid that drops digits of a decimal. -/
def gridPoint (value : Decimal) (dropped coefficient : ℕ) : Decimal :=
  ⟨coefficient, value.exponent + dropped⟩

/-- The neighbour of a decimal on a grid that is not above it. -/
def lower (value : Decimal) (dropped : ℕ) : Decimal :=
  gridPoint value dropped (value.coefficient / 10 ^ dropped)

/-- The neighbour of a decimal on a grid that is above it. -/
def upper (value : Decimal) (dropped : ℕ) : Decimal :=
  gridPoint value dropped (value.coefficient / 10 ^ dropped + 1)

/-- A decimal lies between its two neighbours on a grid, and its distances to them
are those of its dropped digits. -/
theorem quantity_sub_neighbours (value : Decimal) (dropped : ℕ) :
    value.quantity - (lower value dropped).quantity =
        (value.coefficient % 10 ^ dropped : ℕ) * 10 ^ value.exponent ∧
      (upper value dropped).quantity - value.quantity =
        (10 ^ dropped - (value.coefficient % 10 ^ dropped : ℕ)) * 10 ^ value.exponent := by
  have hsplit : (value.coefficient : ℚ) =
      10 ^ dropped * (value.coefficient / 10 ^ dropped : ℕ) +
        (value.coefficient % 10 ^ dropped : ℕ) := by
    exact_mod_cast (Nat.div_add_mod value.coefficient (10 ^ dropped)).symm
  rw [lower, upper, gridPoint, gridPoint, Decimal.quantity_shift, Decimal.quantity_shift]
  simp only [Decimal.quantity]
  push_cast
  rw [hsplit]
  constructor <;> ring

/-- A larger point of a grid denotes a larger number. -/
theorem quantity_gridPoint_le (value : Decimal) (dropped : ℕ) {coefficient coefficient' : ℕ}
    (hle : coefficient ≤ coefficient') :
    (gridPoint value dropped coefficient).quantity ≤
      (gridPoint value dropped coefficient').quantity := by
  unfold gridPoint Decimal.quantity
  gcongr

/-- A decimal is not below its lower neighbour, and below its upper one. -/
theorem neighbours_around (value : Decimal) (dropped : ℕ) :
    (lower value dropped).quantity ≤ value.quantity ∧
      value.quantity < (upper value dropped).quantity := by
  obtain ⟨hbelow, habove⟩ := quantity_sub_neighbours value dropped
  have hscale : (0 : ℚ) < 10 ^ value.exponent := by positivity
  have hrest : ((value.coefficient % 10 ^ dropped : ℕ) : ℚ) < 10 ^ dropped := by
    exact_mod_cast Nat.mod_lt value.coefficient (show 0 < 10 ^ dropped by positivity)
  have hbelow' : (0 : ℚ) ≤ (value.coefficient % 10 ^ dropped : ℕ) * 10 ^ value.exponent := by
    positivity
  have habove' := mul_pos (sub_pos.mpr hrest) hscale
  constructor <;> linarith

variable {pattern dropped : ℕ} {value : Decimal}

/-- If a point of a grid reads as the pattern of a decimal, so does the neighbour
on its side, which is at least as near. -/
theorem neighbour_of_gridPoint (hvalue : Reads value.quantity pattern) {coefficient : ℕ}
    (hreads : Reads (gridPoint value dropped coefficient).quantity pattern) :
    (Reads (lower value dropped).quantity pattern ∧
      value.quantity - (lower value dropped).quantity ≤
        |value.quantity - (gridPoint value dropped coefficient).quantity|) ∨
    Reads (upper value dropped).quantity pattern ∧
      (upper value dropped).quantity - value.quantity ≤
        |value.quantity - (gridPoint value dropped coefficient).quantity| := by
  obtain ⟨hbelow, habove⟩ := neighbours_around value dropped
  rcases Nat.lt_or_ge (value.coefficient / 10 ^ dropped) coefficient with hlt | hge
  · right
    have hle := quantity_gridPoint_le value dropped (Nat.succ_le_of_lt hlt)
    refine ⟨hvalue.between hreads habove.le hle, ?_⟩
    rw [abs_sub_comm]
    exact (sub_le_sub_right hle _).trans (le_abs_self _)
  · left
    have hle := quantity_gridPoint_le value dropped hge
    refine ⟨hreads.between hvalue hle hbelow, ?_⟩
    exact (sub_le_sub_left hle _).trans (le_abs_self _)

/-- The better neighbour is the upper one, the lower one or none. If both read as
the pattern, the dropped digits decide. -/
theorem neighbour?_cases (pattern : ℕ) (value : Decimal) (dropped : ℕ) :
    (neighbour? pattern value dropped = some (upper value dropped) ∧
      (upper value dropped).magnitude = pattern ∧
      ((lower value dropped).magnitude = pattern →
        10 ^ dropped ≤ 2 * (value.coefficient % 10 ^ dropped))) ∨
    (neighbour? pattern value dropped = some (lower value dropped) ∧
      (lower value dropped).magnitude = pattern ∧
      ((upper value dropped).magnitude = pattern →
        2 * (value.coefficient % 10 ^ dropped) < 10 ^ dropped)) ∨
    (neighbour? pattern value dropped = none ∧
      (lower value dropped).magnitude ≠ pattern ∧
      (upper value dropped).magnitude ≠ pattern) := by
  unfold neighbour? lower upper gridPoint
  simp only [Nat.pow_eq]
  split_ifs with hbelow hboth habove
  · exact Or.inl ⟨rfl, hboth.1, fun _ => hboth.2⟩
  · exact Or.inr (Or.inl ⟨rfl, hbelow, fun h => Nat.lt_of_not_le fun hle => hboth ⟨h, hle⟩⟩)
  · exact Or.inl ⟨rfl, habove, fun h => absurd h hbelow⟩
  · exact Or.inr (Or.inr ⟨rfl, hbelow, habove⟩)

/-- There is a better neighbour if a point of the grid reads as the pattern of the
decimal. -/
theorem neighbour?_ne_none (hfinite : pattern < infinity) (hvalue : Reads value.quantity pattern)
    {coefficient : ℕ} (hreads : Reads (gridPoint value dropped coefficient).quantity pattern) :
    neighbour? pattern value dropped ≠ none := by
  rcases neighbour?_cases pattern value dropped with ⟨hfound, _⟩ | ⟨hfound, _⟩ | ⟨_, hbelow, habove⟩
  · exact hfound ▸ Option.some_ne_none _
  · exact hfound ▸ Option.some_ne_none _
  · rw [ne_eq, magnitude_eq_iff_reads hfinite] at hbelow habove
    rcases neighbour_of_gridPoint hvalue hreads with ⟨h, _⟩ | ⟨h, _⟩
    · exact absurd h hbelow
    · exact absurd h habove

/-- Of all points of the grid that read as the pattern of the decimal, none is
nearer to it than the better neighbour. -/
theorem neighbour?_nearest (hfinite : pattern < infinity) (hvalue : Reads value.quantity pattern)
    {found : Decimal} (hfound : neighbour? pattern value dropped = some found) {coefficient : ℕ}
    (hreads : Reads (gridPoint value dropped coefficient).quantity pattern) :
    |value.quantity - found.quantity| ≤
      |value.quantity - (gridPoint value dropped coefficient).quantity| := by
  obtain ⟨hbelow, habove⟩ := neighbours_around value dropped
  obtain ⟨hdown, hup⟩ := quantity_sub_neighbours value dropped
  have hscale : (0 : ℚ) < 10 ^ value.exponent := by positivity
  have hside := neighbour_of_gridPoint hvalue hreads
  rw [← magnitude_eq_iff_reads hfinite, ← magnitude_eq_iff_reads hfinite] at hside
  rcases neighbour?_cases pattern value dropped with
    ⟨hupper, _, hhalf⟩ | ⟨hlower, _, hhalf⟩ | ⟨hnone, _⟩
  · obtain rfl := Option.some.inj (hfound.symm.trans hupper)
    rw [abs_sub_comm value.quantity, abs_of_pos (sub_pos.mpr habove)]
    rcases hside with ⟨hreadsBelow, hle⟩ | ⟨_, hle⟩
    · -- Both neighbours read as the pattern, and the upper one is not farther.
      have hhalf' : (10 : ℚ) ^ dropped ≤ 2 * (value.coefficient % 10 ^ dropped : ℕ) := by
        exact_mod_cast hhalf hreadsBelow
      rw [hdown] at hle
      rw [hup]
      exact (mul_le_mul_of_nonneg_right (by linarith) hscale.le).trans hle
    · exact hle
  · obtain rfl := Option.some.inj (hfound.symm.trans hlower)
    rw [abs_of_nonneg (sub_nonneg.mpr hbelow)]
    rcases hside with ⟨_, hle⟩ | ⟨hreadsAbove, hle⟩
    · exact hle
    · have hhalf' : 2 * ((value.coefficient % 10 ^ dropped : ℕ) : ℚ) < 10 ^ dropped := by
        exact_mod_cast hhalf hreadsAbove
      rw [hup] at hle
      rw [hdown]
      exact (mul_le_mul_of_nonneg_right (by linarith) hscale.le).trans hle
  · rw [hnone] at hfound
    cases hfound

/-! ## The search -/

/-- The search takes the better neighbour on a grid, and the coarser grids that
were tried before have none. -/
theorem firstHit_spec (hfinite : pattern < infinity) (hvalue : Reads value.quantity pattern)
    (coarsest : ℕ) :
    ∃ dropped, dropped ≤ coarsest ∧
      neighbour? pattern value dropped = some (firstHit pattern value coarsest) ∧
      ∀ coarser, dropped < coarser → coarser ≤ coarsest →
        neighbour? pattern value coarser = none := by
  induction coarsest with
  | zero =>
    refine ⟨0, le_rfl, ?_, by omega⟩
    have hself : lower value 0 = value := by
      simp [lower, gridPoint]
    rcases neighbour?_cases pattern value 0 with ⟨_, _, hhalf⟩ | ⟨hfound, _⟩ | ⟨_, hbelow, _⟩
    · rw [hself, magnitude_eq_iff_reads hfinite] at hhalf
      have := hhalf hvalue
      rw [Nat.pow_zero, Nat.mod_one] at this
      omega
    · rw [hfound, hself]
      rfl
    · rw [hself, ne_eq, magnitude_eq_iff_reads hfinite] at hbelow
      exact absurd hvalue hbelow
  | succ coarsest ih =>
    cases hfound : neighbour? pattern value (coarsest + 1) with
    | some found =>
      refine ⟨coarsest + 1, le_rfl, ?_, by omega⟩
      rw [firstHit, hfound, Option.getD_some]
    | none =>
      obtain ⟨dropped, hle, hhit, hcoarser⟩ := ih
      refine ⟨dropped, by omega, ?_, ?_⟩
      · rw [firstHit, hfound, Option.getD_none, hhit]
      · intro coarser hlt hle'
        rcases Nat.lt_or_eq_of_le hle' with hinside | rfl
        · exact hcoarser coarser hlt (by omega)
        · exact hfound

/-! ## Counting digits -/

/-- A number has this many digits if it is below the power of ten, and not below
the one before. -/
theorem digitCount_bounds {n : ℕ} (hpos : 0 < n) :
    10 ^ (digitCount n - 1) ≤ n ∧ n < 10 ^ digitCount n ∧ 0 < digitCount n := by
  fun_induction digitCount n with
  | case1 n hsmall =>
    rw [Nat.sub_self, Nat.pow_zero, Nat.pow_one]
    omega
  | case2 n hlarge ih =>
    obtain ⟨hlower, hupper, hcount⟩ := ih (by omega)
    obtain ⟨count, hcount'⟩ := Nat.exists_eq_succ_of_ne_zero hcount.ne'
    rw [hcount'] at hlower hupper ⊢
    simp only [Nat.succ_eq_add_one, Nat.add_sub_cancel, Nat.pow_succ] at hlower hupper ⊢
    omega

/-- A number has at most this many digits if it is below the power of ten. -/
theorem digitCount_le_iff {n : ℕ} (hpos : 0 < n) (count : ℕ) :
    digitCount n ≤ count ↔ n < 10 ^ count := by
  obtain ⟨hlower, hupper, _⟩ := digitCount_bounds hpos
  constructor
  · intro hle
    exact hupper.trans_le (Nat.pow_le_pow_right (by decide) hle)
  · intro hlt
    by_contra hmore
    have hpow : 10 ^ count ≤ 10 ^ (digitCount n - 1) := Nat.pow_le_pow_right (by decide) (by omega)
    omega

/-- A decimal that is no finer than a grid is one of its points. -/
theorem exists_gridPoint_eq (value : Decimal) (dropped coefficient : ℕ) {exponent : ℤ}
    (hcoarse : value.exponent + dropped ≤ exponent) :
    ∃ point, (gridPoint value dropped point).quantity = coefficient * 10 ^ exponent := by
  obtain ⟨more, hmore⟩ := Int.eq_ofNat_of_zero_le (sub_nonneg.mpr hcoarse)
  refine ⟨coefficient * 10 ^ more, ?_⟩
  rw [gridPoint, ← Decimal.quantity_shift, ← hmore, add_sub_cancel]
  rfl

/-- A decimal with few digits that is finer than the grid which leaves a value this
many digits is below the first power of ten with as many digits as the value. -/
theorem power_between (hpos : 0 < value.coefficient) {count : ℕ} (hcount : 0 < count)
    (hle : count ≤ digitCount value.coefficient) {coefficient : ℕ} {exponent : ℤ}
    (hfew : coefficient < 10 ^ count)
    (hfine : exponent < value.exponent + (digitCount value.coefficient - count : ℕ)) :
    coefficient * 10 ^ exponent ≤
        (gridPoint value (digitCount value.coefficient - count) (10 ^ (count - 1))).quantity ∧
      (gridPoint value (digitCount value.coefficient - count) (10 ^ (count - 1))).quantity ≤
        value.quantity := by
  obtain ⟨less, rfl⟩ := Nat.exists_eq_succ_of_ne_zero hcount.ne'
  set dropped := digitCount value.coefficient - less.succ with hdropped
  rw [Nat.succ_sub_one, gridPoint]
  constructor
  · have hfew' : (coefficient : ℚ) ≤ (10 ^ (less + 1) : ℕ) := by exact_mod_cast hfew.le
    calc (coefficient * 10 ^ exponent : ℚ)
        ≤ (10 ^ (less + 1) : ℕ) * 10 ^ (value.exponent + dropped - 1) := by
          gcongr
          · norm_num
          · omega
      _ = Decimal.quantity ⟨10 ^ less, value.exponent + dropped - 1 + (1 : ℕ)⟩ := by
          rw [Decimal.quantity_shift, ← Nat.pow_add]
          rfl
      _ = Decimal.quantity ⟨10 ^ less, value.exponent + dropped⟩ := by
          rw [Nat.cast_one, sub_add_cancel]
  · have hlower : 10 ^ less * 10 ^ dropped ≤ value.coefficient := by
      rw [← Nat.pow_add, show less + dropped = digitCount value.coefficient - 1 by omega]
      exact (digitCount_bounds hpos).1
    rw [Decimal.quantity_shift, Decimal.quantity, Decimal.quantity]
    gcongr

/-- A decimal with few digits that reads as the pattern of a value can be replaced
by a point of the grid that leaves the value this many digits, and this point is
not farther from the value. -/
theorem exists_gridPoint_of_digits (hvalue : Reads value.quantity pattern)
    (hpos : 0 < value.coefficient) {count : ℕ} (hcount : 0 < count)
    (hle : count ≤ digitCount value.coefficient) {coefficient : ℕ} {exponent : ℤ}
    (hfew : coefficient < 10 ^ count) (hreads : Reads (coefficient * 10 ^ exponent) pattern) :
    ∃ point : ℕ,
      Reads (gridPoint value (digitCount value.coefficient - count) point).quantity pattern ∧
      |value.quantity - (gridPoint value (digitCount value.coefficient - count) point).quantity| ≤
        |value.quantity - coefficient * 10 ^ exponent| := by
  rcases le_or_gt (value.exponent + (digitCount value.coefficient - count : ℕ)) exponent with
    hcoarse | hfine
  · obtain ⟨point, hpoint⟩ := exists_gridPoint_eq value _ coefficient hcoarse
    exact ⟨point, by rwa [hpoint], by rw [hpoint]⟩
  · -- A power of ten lies between the decimal and the value.
    obtain ⟨hsmall, hlarge⟩ := power_between hpos hcount hle hfew hfine
    refine ⟨10 ^ (count - 1), hreads.between hvalue hsmall hlarge, ?_⟩
    rw [abs_of_nonneg (sub_nonneg.mpr hlarge)]
    exact (sub_le_sub_left hsmall _).trans (le_abs_self _)

end Magnitude

/-! ## Trimmed decimals -/

namespace Decimal

/-- Trimming leaves no zero at the end. -/
theorem coefficient_trim (d : Decimal) (hpos : 0 < d.coefficient) :
    0 < d.trim.coefficient ∧ d.trim.coefficient % 10 ≠ 0 := by
  fun_induction trim d with
  | case1 d h ih => exact ih (by simp only; omega)
  | case2 d h => exact ⟨hpos, by omega⟩

/-- With the same exponent, only the same coefficient gives the same number. -/
theorem coefficient_eq_of_quantity {coefficient coefficient' : ℕ} {exponent : ℤ}
    (hsame : quantity ⟨coefficient, exponent⟩ = quantity ⟨coefficient', exponent⟩) :
    coefficient = coefficient' := by
  exact_mod_cast mul_right_cancel₀ (show (10 : ℚ) ^ exponent ≠ 0 by positivity) hsame

/-- Without a zero at the end, a number is written with the least coefficient. -/
theorem coefficient_le_of_quantity_eq {d : Decimal} (hlast : d.coefficient % 10 ≠ 0)
    {coefficient : ℕ} {exponent : ℤ} (hsame : d.quantity = quantity ⟨coefficient, exponent⟩) :
    d.coefficient ≤ coefficient := by
  obtain ⟨trimmed, finest⟩ := d
  rcases le_or_gt exponent finest with hle | hgt
  · obtain ⟨more, hmore⟩ := Int.eq_ofNat_of_zero_le (sub_nonneg.mpr hle)
    rw [show finest = exponent + more by omega, quantity_shift] at hsame
    rw [← coefficient_eq_of_quantity hsame]
    exact Nat.le_mul_of_pos_right _ (by positivity)
  · -- A larger exponent makes the coefficient a multiple of ten.
    obtain ⟨more, hmore⟩ := Int.eq_ofNat_of_zero_le (show 0 ≤ exponent - finest - 1 by omega)
    rw [show exponent = finest + (more + 1 : ℕ) by push_cast; omega, quantity_shift] at hsame
    have hproduct := coefficient_eq_of_quantity hsame
    rw [hproduct, Nat.pow_succ, ← Nat.mul_assoc, Nat.mul_mod_left] at hlast
    exact absurd rfl hlast

end Decimal

/-! ## The decimal that is found -/

namespace Magnitude

variable {pattern dropped : ℕ} {value : Decimal}

/-- Only positive numbers read as a pattern other than that of zero. -/
theorem Reads.pos {x : ℚ} (hreads : Reads x pattern) (hne : pattern ≠ 0) : 0 < x := by
  by_contra hneg
  apply hne
  have hle : x * quantaInOne ≤ 0 :=
    mul_nonpos_of_nonpos_of_nonneg (not_lt.mp hneg) Number.quantaInOne_pos.le
  exact hreads.eq_zero_iff.mpr (by linarith)

/-- The coefficient of a decimal that reads as such a pattern is not zero. -/
theorem Reads.coefficient_pos {coefficient : ℕ} {exponent : ℤ}
    (hreads : Reads (coefficient * 10 ^ exponent) pattern) (hne : pattern ≠ 0) :
    0 < coefficient := by
  have hpos := pos_of_mul_pos_left (hreads.pos hne) (by positivity)
  exact_mod_cast hpos

/-- If the coarser grids have no neighbour that reads as the pattern, no decimal
does that has fewer digits than the grid leaves. -/
theorem le_digits_of_reads (hfinite : pattern < infinity) (hne : pattern ≠ 0)
    (hvalue : Reads value.quantity pattern) (hpos : 0 < value.coefficient)
    (hcoarser : ∀ coarser, dropped < coarser → coarser ≤ digitCount value.coefficient - 1 →
      neighbour? pattern value coarser = none)
    {count coefficient : ℕ} {exponent : ℤ} (hfew : coefficient < 10 ^ count)
    (hreads : Reads (coefficient * 10 ^ exponent) pattern) :
    digitCount value.coefficient - dropped ≤ count := by
  by_contra hless
  have hcount : 0 < count := by
    rcases Nat.eq_zero_or_pos count with rfl | hcount
    · have := hreads.coefficient_pos hne
      omega
    · exact hcount
  obtain ⟨point, hpoint, _⟩ :=
    exists_gridPoint_of_digits hvalue hpos hcount (by omega) hfew hreads
  exact neighbour?_ne_none hfinite hvalue hpoint (hcoarser _ (by omega) (by omega))

/-- The better neighbour on a grid can be written with the digits that the grid
leaves. -/
theorem exists_digits_of_neighbour? {found : Decimal} (hpos : 0 < value.coefficient)
    (hdropped : dropped ≤ digitCount value.coefficient - 1)
    (hfound : neighbour? pattern value dropped = some found) :
    ∃ (coefficient : ℕ) (exponent : ℤ),
      coefficient < 10 ^ (digitCount value.coefficient - dropped) ∧
      found.quantity = coefficient * 10 ^ exponent := by
  obtain ⟨_, hupper, hcount⟩ := digitCount_bounds hpos
  have hquotient :
      value.coefficient / 10 ^ dropped < 10 ^ (digitCount value.coefficient - dropped) := by
    rw [Nat.div_lt_iff_lt_mul (by positivity), ← Nat.pow_add,
      Nat.sub_add_cancel (by omega : dropped ≤ digitCount value.coefficient)]
    exact hupper
  have hpoint : ∃ point ≤ 10 ^ (digitCount value.coefficient - dropped),
      found = gridPoint value dropped point := by
    rcases neighbour?_cases pattern value dropped with ⟨h, _⟩ | ⟨h, _⟩ | ⟨h, _⟩
    · exact ⟨_, hquotient, Option.some.inj (hfound.symm.trans h)⟩
    · exact ⟨_, hquotient.le, Option.some.inj (hfound.symm.trans h)⟩
    · rw [h] at hfound
      cases hfound
  obtain ⟨point, hle, rfl⟩ := hpoint
  rcases Nat.lt_or_eq_of_le hle with hlt | rfl
  · exact ⟨point, value.exponent + dropped, hlt, rfl⟩
  · -- A carry through all digits leaves a power of ten.
    refine ⟨1, value.exponent + dropped + (digitCount value.coefficient - dropped : ℕ),
      Nat.one_lt_pow (by omega) (by decide), ?_⟩
    rw [gridPoint, ← Nat.one_mul (10 ^ _), ← Decimal.quantity_shift]
    rfl

/-- A decimal is the shortest one for a pattern: it reads as the pattern, no
decimal with fewer digits does, and of those with as many digits it is a nearest
one to the exact value. -/
structure IsShortest (pattern : ℕ) (d : Decimal) : Prop where
  /-- The decimal reads as the pattern. -/
  reads : Reads d.quantity pattern
  /-- The decimal is not zero. -/
  pos : 0 < d.coefficient
  /-- The last digit is not zero. -/
  trimmed : d.coefficient % 10 ≠ 0
  /-- No decimal with fewer digits reads as the pattern. -/
  fewest : ∀ (count coefficient : ℕ) (exponent : ℤ), coefficient < 10 ^ count →
    Reads (coefficient * 10 ^ exponent) pattern → digitCount d.coefficient ≤ count
  /-- No decimal with as many digits that reads as the pattern is nearer. -/
  nearest : ∀ (coefficient : ℕ) (exponent : ℤ), coefficient < 10 ^ digitCount d.coefficient →
    Reads (coefficient * 10 ^ exponent) pattern →
    |(exact pattern).quantity - d.quantity| ≤
      |(exact pattern).quantity - coefficient * 10 ^ exponent|

/-- The search finds the shortest decimal. -/
theorem isShortest_shortest (hne : pattern ≠ 0) (hfinite : pattern < infinity) :
    IsShortest pattern (shortest pattern) := by
  have hvalue : Reads (exact pattern).quantity pattern :=
    (magnitude_eq_iff_reads hfinite).mp (magnitude_exact hfinite)
  have hpos : 0 < (exact pattern).coefficient := Reads.coefficient_pos hvalue hne
  obtain ⟨dropped, hdropped, hhit, hcoarser⟩ :=
    firstHit_spec hfinite hvalue (digitCount (exact pattern).coefficient - 1)
  have hshortest : shortest pattern =
      (firstHit pattern (exact pattern) (digitCount (exact pattern).coefficient - 1)).trim := by
    rw [shortest, if_neg hne]
  generalize firstHit pattern (exact pattern) (digitCount (exact pattern).coefficient - 1) = found
    at hhit hshortest
  have hfound : Reads found.quantity pattern :=
    (magnitude_eq_iff_reads hfinite).mp (magnitude_neighbour hhit)
  have hquantity := found.quantity_trim
  obtain ⟨htrimPos, htrimmed⟩ := found.coefficient_trim (Reads.coefficient_pos hfound hne)
  rw [← hshortest] at hquantity htrimPos htrimmed
  have hless {count coefficient : ℕ} {exponent : ℤ} (hfew : coefficient < 10 ^ count)
      (hreads : Reads (coefficient * 10 ^ exponent) pattern) :=
    le_digits_of_reads hfinite hne hvalue hpos hcoarser hfew hreads
  have hcount : digitCount (shortest pattern).coefficient =
      digitCount (exact pattern).coefficient - dropped := by
    apply le_antisymm
    · obtain ⟨coefficient, exponent, hfew, hsame⟩ :=
        exists_digits_of_neighbour? hpos hdropped hhit
      rw [← hquantity] at hsame
      have hle := Decimal.coefficient_le_of_quantity_eq htrimmed hsame
      rw [digitCount_le_iff htrimPos]
      omega
    · rw [← hquantity] at hfound
      exact hless (digitCount_bounds htrimPos).2.1 hfound
  refine ⟨by rwa [hquantity], htrimPos, htrimmed, ?_, ?_⟩
  · intro count coefficient exponent hfew hreads
    rw [hcount]
    exact hless hfew hreads
  · intro coefficient exponent hfew hreads
    obtain ⟨hlower, _, hsome⟩ := digitCount_bounds htrimPos
    obtain ⟨point, hpoint, hnear⟩ :=
      exists_gridPoint_of_digits hvalue hpos hsome (by omega) hfew hreads
    have hgrid : digitCount (exact pattern).coefficient -
        digitCount (shortest pattern).coefficient = dropped := by omega
    rw [hgrid] at hpoint hnear
    rw [hquantity]
    exact (neighbour?_nearest hfinite hvalue hhit hpoint).trans hnear

end Magnitude

end Calculator
