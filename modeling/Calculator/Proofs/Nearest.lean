import Calculator.Proofs.Rounding
import Mathlib.Tactic.FieldSimp
import Mathlib.Tactic.Linarith

/-!
# Nearest magnitudes

Patterns follow the values: the quanta grow strictly with the pattern, also
beyond infinity if the patterns there are read like finite ones. So it makes
sense to say which pattern is closest to an exact number of quanta, a tie going
to the even significand. There is at most one such pattern, it grows with the
number, and rounding to the nearest magnitude finds it. Infinity is what is
closest from half a step below it on.
-/

namespace Calculator

/-! ## Rounding a quotient -/

/-- Rounding takes the quotient or the number above it. -/
theorem roundHalfEven_bounds (num den : ℕ) :
    num / den ≤ roundHalfEven num den ∧ roundHalfEven num den ≤ num / den + 1 := by
  unfold roundHalfEven
  simp only
  split_ifs <;> omega

/-- A rounded quotient is off by half a unit at most. If it is off by exactly
that much, it is even. -/
theorem roundHalfEven_error {den : ℕ} (hden : 0 < den) (num : ℕ) :
    2 * |(num / den : ℚ) - roundHalfEven num den| ≤ 1 ∧
      (2 * |(num / den : ℚ) - roundHalfEven num den| = 1 → roundHalfEven num den % 2 = 0) := by
  have hden' : (0 : ℚ) < den := by exact_mod_cast hden
  have hsplit : (num : ℚ) / den = (num / den : ℕ) + (num % den : ℕ) / den := by
    field_simp
    exact_mod_cast (Nat.div_add_mod num den).symm
  have hpos : (0 : ℚ) ≤ (num % den : ℕ) / den := by positivity
  unfold roundHalfEven
  simp only [hsplit]
  split_ifs with hlow hhigh
  · have hless : 2 * ((num % den : ℕ) / den : ℚ) < 1 := by
      rw [← mul_div_assoc, div_lt_one hden']
      exact_mod_cast hlow
    rw [add_sub_cancel_left, abs_of_nonneg hpos]
    exact ⟨hless.le, fun heq => absurd heq hless.ne⟩
  · have hmore : 1 < 2 * ((num % den : ℕ) / den : ℚ) := by
      rw [← mul_div_assoc, one_lt_div hden']
      exact_mod_cast hhigh
    have hwhole : ((num % den : ℕ) / den : ℚ) < 1 := by
      rw [div_lt_one hden']
      exact_mod_cast Nat.mod_lt num hden
    push_cast
    rw [add_sub_add_left_eq_sub, abs_of_nonpos (by linarith)]
    exact ⟨by linarith, fun heq => absurd heq (by linarith)⟩
  · have hhalf : 2 * ((num % den : ℕ) / den : ℚ) = 1 := by
      rw [← mul_div_assoc, div_eq_one_iff_eq hden'.ne']
      exact_mod_cast (show 2 * (num % den) = den by omega)
    refine ⟨?_, fun _ => by omega⟩
    rcases Nat.mod_two_eq_zero_or_one (num / den) with heven | hodd
    · rw [heven, Nat.add_zero, add_sub_cancel_left, abs_of_nonneg hpos, hhalf]
    · rw [hodd]
      push_cast
      rw [add_sub_add_left_eq_sub, abs_of_nonpos (by linarith)]
      linarith

/-- No whole number is closer to a quotient than the rounded one, and only an
even one is as close as another. -/
theorem roundHalfEven_closest {den : ℕ} (hden : 0 < den) (num other : ℕ) :
    |(num / den : ℚ) - roundHalfEven num den| ≤ |(num / den : ℚ) - other| ∧
      (other ≠ roundHalfEven num den →
        |(num / den : ℚ) - roundHalfEven num den| = |(num / den : ℚ) - other| →
        roundHalfEven num den % 2 = 0) := by
  obtain ⟨hbound, heven⟩ := roundHalfEven_error hden num
  by_cases hsame : other = roundHalfEven num den
  · rw [← hsame]
    exact ⟨le_rfl, fun hne => absurd rfl hne⟩
  have happart : (1 : ℚ) ≤ |(roundHalfEven num den : ℚ) - other| := by
    have hint : (1 : ℤ) ≤ |(roundHalfEven num den : ℤ) - other| := Int.one_le_abs (by omega)
    exact_mod_cast hint
  have htriangle := abs_sub_le (roundHalfEven num den : ℚ) (num / den) other
  rw [abs_sub_comm (roundHalfEven num den : ℚ) (num / den)] at htriangle
  exact ⟨by linarith, fun _ htie => heven (by linarith)⟩

/-- The same holds for multiples of a step. -/
theorem roundHalfEven_closest_multiple {den step : ℕ} (hden : 0 < den) (hstep : 0 < step)
    (num other : ℕ) :
    |(num / den : ℚ) - roundHalfEven num (den * step) * step| ≤ |(num / den : ℚ) - other * step| ∧
      (other ≠ roundHalfEven num (den * step) →
        |(num / den : ℚ) - roundHalfEven num (den * step) * step| =
          |(num / den : ℚ) - other * step| →
        roundHalfEven num (den * step) % 2 = 0) := by
  have hstep' : (0 : ℚ) < step := by exact_mod_cast hstep
  have hscaled (multiple : ℕ) : |(num / den : ℚ) - multiple * step| =
      |(num / (den * step : ℕ) : ℚ) - multiple| * step := by
    have hden' : (den : ℚ) ≠ 0 := by exact_mod_cast hden.ne'
    rw [← abs_of_pos hstep', ← abs_mul, abs_of_pos hstep']
    congr 1
    push_cast
    field_simp
  obtain ⟨hle, htie⟩ := roundHalfEven_closest (Nat.mul_pos hden hstep) num other
  rw [hscaled, hscaled]
  refine ⟨mul_le_mul_of_nonneg_right hle hstep'.le, ?_⟩
  intro hne hequal
  exact htie hne (mul_right_cancel₀ hstep'.ne' hequal)

namespace Magnitude

/-! ## Patterns follow the values -/

/-- The significand has the last bit of the pattern. -/
theorem significand_mod_two (pattern : ℕ) : significand pattern % 2 = pattern % 2 := by
  have hpattern := scale_mul_add_significand pattern
  have hbinade : scale pattern * binade % 2 = 0 := by
    rw [Nat.mul_mod, show binade % 2 = 0 by decide, Nat.mul_zero, Nat.zero_mod]
  omega

/-- A significand has at most 53 bits, and all 53 of them unless the magnitude is
in the first binade. -/
theorem significand_bounds (pattern : ℕ) :
    significand pattern < 2 * binade ∧ (scale pattern = 0 ∨ binade ≤ significand pattern) := by
  have hplace : pattern % binade < binade := Nat.mod_lt _ (by decide)
  unfold significand scale
  by_cases hsubnormal : pattern < binade
  · rw [if_pos hsubnormal, Nat.div_eq_of_lt hsubnormal]
    omega
  · rw [if_neg hsubnormal]
    omega

/-- A place in a binade, or the first place behind it, counted in quanta. -/
theorem quanta_add (shift : ℕ) {place : ℕ} (hplace : place ≤ 2 * binade)
    (hleading : shift = 0 ∨ binade ≤ place) :
    quanta (shift * binade + place) = place * 2 ^ shift := by
  have hbinade : 0 < binade := by decide
  unfold quanta significand scale
  rw [Nat.pow_eq]
  rcases Nat.lt_or_ge place binade with hlow | hhigh
  · obtain rfl : shift = 0 := by omega
    rw [Nat.zero_mul, Nat.zero_add, if_pos hlow, Nat.div_eq_of_lt hlow]
  · have hlarge : ¬ shift * binade + place < binade := by omega
    obtain ⟨more, rfl⟩ := Nat.exists_eq_add_of_le hhigh
    rw [if_neg hlarge, ← Nat.add_assoc, ← Nat.succ_mul]
    rcases Nat.lt_or_ge more binade with hinside | hbehind
    · rw [Nat.add_comm (shift.succ * binade), Nat.add_mul_mod_self_right, Nat.mod_eq_of_lt hinside,
        Nat.add_mul_div_right _ _ hbinade, Nat.div_eq_of_lt hinside]
      congr 2
      omega
    · -- The first place behind a binade is the first one of the next.
      obtain rfl : more = binade := by omega
      rw [← Nat.succ_mul, Nat.mul_mod_left, Nat.mul_div_cancel _ hbinade, Nat.add_zero,
        show shift.succ.succ - 1 = shift + 1 by omega, Nat.pow_succ]
      ring

/-- The next pattern is larger by the spacing. -/
theorem quanta_succ (pattern : ℕ) :
    quanta (pattern + 1) = quanta pattern + 2 ^ scale pattern := by
  obtain ⟨hbound, hleading⟩ := significand_bounds pattern
  have hplace : significand pattern + 1 ≤ 2 * binade := by omega
  have hnext := quanta_add (scale pattern) hplace (by omega)
  rw [← Nat.add_assoc, scale_mul_add_significand] at hnext
  rw [hnext, quanta, Nat.pow_eq]
  ring

/-- The quanta grow with the pattern. -/
theorem quanta_strictMono : StrictMono quanta := by
  apply strictMono_nat_of_lt_succ
  intro pattern
  rw [quanta_succ]
  have hspacing : 0 < 2 ^ scale pattern := by positivity
  omega

/-- Seen from a binade, a magnitude is a multiple of the spacing there, or it is
in a lower binade. -/
theorem quanta_multiple_or_lt (pattern shift : ℕ) :
    (∃ multiple, quanta pattern = multiple * 2 ^ shift) ∨
      shift ≠ 0 ∧ quanta pattern < binade * 2 ^ shift := by
  unfold quanta
  rw [Nat.pow_eq]
  rcases Nat.lt_or_ge (scale pattern) shift with hlow | hhigh
  · refine Or.inr ⟨by omega, ?_⟩
    obtain ⟨more, rfl⟩ := Nat.exists_eq_add_of_lt hlow
    calc significand pattern * 2 ^ scale pattern
        < 2 * binade * 2 ^ scale pattern :=
          Nat.mul_lt_mul_of_pos_right (significand_bounds pattern).1 (by positivity)
      _ = binade * 2 ^ (scale pattern + 1) := by ring
      _ ≤ binade * 2 ^ (scale pattern + more + 1) :=
          Nat.mul_le_mul_left _ (Nat.pow_le_pow_right (by decide) (by omega))
  · left
    obtain ⟨more, hmore⟩ := Nat.exists_eq_add_of_le hhigh
    exact ⟨significand pattern * 2 ^ more, by rw [hmore]; ring⟩

/-! ## The closest pattern -/

/-- Of all patterns, none is closer to the exact number of quanta, and if another
one is as close, this one has an even significand. -/
structure Closest (exact : ℚ) (pattern : ℕ) : Prop where
  /-- No other magnitude is closer. -/
  le : ∀ other, |exact - quanta pattern| ≤ |exact - quanta other|
  /-- A tie goes to the even significand. -/
  even : ∀ other, other ≠ pattern → |exact - quanta pattern| = |exact - quanta other| →
    significand pattern % 2 = 0

/-- Of two numbers, the smaller one is at least as close exactly up to their
middle. -/
theorem abs_sub_le_abs_sub_iff {exact low high : ℚ} (hlt : low < high) :
    |exact - low| ≤ |exact - high| ↔ 2 * exact ≤ low + high := by
  constructor
  · intro h
    rcases abs_cases (exact - low) with ⟨hlow, _⟩ | ⟨hlow, _⟩ <;>
      rcases abs_cases (exact - high) with ⟨hhigh, _⟩ | ⟨hhigh, _⟩ <;>
      rw [hlow, hhigh] at h <;> linarith
  · intro h
    rw [abs_le]
    rw [abs_of_nonpos (show exact - high ≤ 0 by linarith)]
    constructor <;> linarith

/-- Two different numbers are equally close to their middle and to nothing else. -/
theorem abs_sub_eq_abs_sub_iff {exact a b : ℚ} (hne : a ≠ b) :
    |exact - a| = |exact - b| ↔ 2 * exact = a + b := by
  rw [abs_eq_abs]
  constructor
  · rintro (hsame | hopposite)
    · exact absurd (by linarith) hne
    · linarith
  · intro h
    right
    linarith

namespace Closest

variable {exact exact' : ℚ} {pattern pattern' : ℕ}

/-- A number with a closest pattern is at most in the middle between it and a
larger one. -/
theorem two_mul_le (h : Closest exact pattern) {other : ℕ} (hlt : pattern < other) :
    2 * exact ≤ quanta pattern + quanta other :=
  (abs_sub_le_abs_sub_iff (by exact_mod_cast quanta_strictMono hlt)).mp (h.le other)

/-- A number with a closest pattern is at least in the middle between it and a
smaller one. -/
theorem le_two_mul (h : Closest exact pattern) {other : ℕ} (hlt : other < pattern) :
    (quanta other + quanta pattern : ℚ) ≤ 2 * exact := by
  by_contra hless
  have hlt' : (quanta other : ℚ) < quanta pattern := by exact_mod_cast quanta_strictMono hlt
  have hcloser : |exact - quanta other| ≤ |exact - quanta pattern| :=
    (abs_sub_le_abs_sub_iff hlt').mpr (by linarith)
  have htie := (abs_sub_eq_abs_sub_iff hlt'.ne).mp (le_antisymm hcloser (h.le other))
  linarith

/-- In the middle between its closest pattern and another one, a number goes to
the even significand. -/
theorem even_of_middle (h : Closest exact pattern) {other : ℕ} (hne : other ≠ pattern)
    (hmiddle : 2 * exact = quanta pattern + quanta other) : significand pattern % 2 = 0 := by
  apply h.even other hne
  rw [abs_sub_eq_abs_sub_iff]
  · exact hmiddle
  · exact_mod_cast quanta_strictMono.injective.ne hne.symm

/-- A pattern is closest if the number is on its side of the middle to every other
pattern, and in the middle only if the significand is even. -/
theorem of_middles
    (habove : ∀ other, pattern < other → 2 * exact ≤ quanta pattern + quanta other)
    (hbelow : ∀ other, other < pattern → (quanta other + quanta pattern : ℚ) ≤ 2 * exact)
    (heven : ∀ other, other ≠ pattern → 2 * exact = quanta pattern + quanta other →
      significand pattern % 2 = 0) : Closest exact pattern where
  le other := by
    rcases Nat.lt_trichotomy pattern other with hlt | rfl | hlt
    · have hlt' : (quanta pattern : ℚ) < quanta other := by exact_mod_cast quanta_strictMono hlt
      exact (abs_sub_le_abs_sub_iff hlt').mpr (habove other hlt)
    · exact le_rfl
    · by_contra hcloser
      have hlt' : (quanta other : ℚ) < quanta pattern := by exact_mod_cast quanta_strictMono hlt
      have hlow := (abs_sub_le_abs_sub_iff hlt').mp (not_le.mp hcloser).le
      have htie := (abs_sub_eq_abs_sub_iff hlt'.ne).mpr (le_antisymm hlow (hbelow other hlt))
      exact hcloser htie.ge
  even other hne htie := by
    apply heven other hne
    rwa [abs_sub_eq_abs_sub_iff] at htie
    exact_mod_cast quanta_strictMono.injective.ne hne.symm

/-- The closest pattern grows with the number. -/
theorem mono (h : Closest exact pattern) (h' : Closest exact' pattern') (hle : exact ≤ exact') :
    pattern ≤ pattern' := by
  by_contra hgreater
  have hlt : pattern' < pattern := Nat.lt_of_not_le hgreater
  have hlow := h.le_two_mul hlt
  have hhigh := h'.two_mul_le hlt
  have hmiddle : 2 * exact = quanta pattern + quanta pattern' := by linarith
  have hmiddle' : 2 * exact' = quanta pattern' + quanta pattern := by linarith
  have heven := h.even_of_middle hlt.ne hmiddle
  have heven' := h'.even_of_middle hlt.ne' hmiddle'
  rw [significand_mod_two] at heven heven'
  -- Two even patterns are not neighbours, and what is between them is closer to their middle.
  have hbetween := h.le_two_mul (show pattern - 1 < pattern by omega)
  have hlarger : (quanta pattern' : ℚ) < quanta (pattern - 1) := by
    exact_mod_cast quanta_strictMono (show pattern' < pattern - 1 by omega)
  linarith

/-- A number has one closest pattern at most. -/
theorem unique (h : Closest exact pattern) (h' : Closest exact pattern') : pattern = pattern' :=
  Nat.le_antisymm (h.mono h' le_rfl) (h'.mono h le_rfl)

/-- What is closest to two numbers is closest to everything between them. -/
theorem between (h : Closest exact pattern) (h' : Closest exact' pattern) {x : ℚ}
    (hle : exact ≤ x) (hle' : x ≤ exact') : Closest x pattern := by
  refine of_middles ?_ ?_ ?_
  · intro other hlt
    linarith [h'.two_mul_le hlt]
  · intro other hlt
    linarith [h.le_two_mul hlt]
  · intro other hne hmiddle
    rcases Nat.lt_or_gt_of_ne hne with hlt | hlt
    · exact h.even_of_middle hne (by linarith [h.le_two_mul hlt])
    · exact h'.even_of_middle hne (by linarith [h'.two_mul_le hlt])

end Closest

/-! ## Rounding finds the closest pattern -/

/-- The number of quanta in one. -/
@[irreducible] def quantaInOne : ℕ := Nat.pow 2 1074

/-- The number of quanta in one is a power of two. -/
theorem cast_quantaInOne : (quantaInOne : ℚ) = 2 ^ 1074 := by
  unfold quantaInOne
  generalize 1074 = n
  rw [Nat.pow_eq, Nat.cast_pow, Nat.cast_ofNat]

/-- The spacing at a pattern divides one, or it is a multiple of one. -/
theorem spacing_dvd_or (shift : ℕ) : 2 ^ shift ∣ quantaInOne ∨ quantaInOne ∣ 2 ^ shift := by
  unfold quantaInOne
  generalize 1074 = n
  rw [Nat.pow_eq]
  rcases Nat.le_total shift n with hfine | hcoarse
  · exact Or.inl (Nat.pow_dvd_pow 2 hfine)
  · exact Or.inr (Nat.pow_dvd_pow 2 hcoarse)

/-- The pattern nearest to `num / den`, if those beyond infinity are read like
finite ones. -/
def unlimited (num den : ℕ) : ℕ :=
  let scaled := num * quantaInOne
  let shift := Nat.log2 (scaled / den) + 1 - 53
  shift * binade + roundHalfEven scaled (den * Nat.pow 2 shift)

/-- All patterns beyond infinity stand for infinity. -/
theorem nearest_eq_min (num den : ℕ) : nearest num den = min infinity (unlimited num den) := by
  unfold nearest unlimited quantaInOne
  simp only

/-- Without the bits that are rounded off, 53 bits are left, and the first of them
is set unless none is rounded off. -/
theorem leading_bits (n : ℕ) :
    n / 2 ^ (Nat.log2 n + 1 - 53) < 2 * binade ∧
      (Nat.log2 n + 1 - 53 = 0 ∨ binade ≤ n / 2 ^ (Nat.log2 n + 1 - 53)) := by
  have hbinade : binade = 2 ^ 52 := by decide
  have hupper : n < 2 ^ (Nat.log2 n + 1) := Nat.lt_log2_self
  constructor
  · rw [Nat.div_lt_iff_lt_mul (by positivity), hbinade, ← Nat.pow_succ', ← Nat.pow_add]
    exact hupper.trans_le (Nat.pow_le_pow_right (by decide) (by omega))
  · rcases Nat.eq_zero_or_pos (Nat.log2 n + 1 - 53) with hzero | hpos
    · exact Or.inl hzero
    · right
      have hne : n ≠ 0 := by
        rintro rfl
        rw [Nat.log2_zero] at hpos
        omega
      rw [Nat.le_div_iff_mul_le (by positivity), hbinade, ← Nat.pow_add,
        show 52 + (Nat.log2 n + 1 - 53) = Nat.log2 n by omega]
      exact Nat.log2_self_le hne

/-- In the binade of its leading bits, the bottom included, a quotient is farther
from every lower binade than from the place to which it is rounded. -/
theorem abs_sub_lt_of_lower {scaled den shift : ℕ} (hden : 0 < den)
    (hbinade : binade ≤ scaled / (den * 2 ^ shift)) {other : ℕ}
    (hlow : quanta other < binade * 2 ^ shift) :
    |(scaled / den : ℚ) - roundHalfEven scaled (den * 2 ^ shift) * (2 ^ shift : ℕ)| <
      |(scaled / den : ℚ) - quanta other| := by
  have hreach : (binade * 2 ^ shift : ℕ) ≤ (scaled / den : ℚ) := by
    rw [le_div_iff₀ (by exact_mod_cast hden)]
    rw [Nat.le_div_iff_mul_le (by positivity), Nat.mul_comm den, ← Nat.mul_assoc] at hbinade
    exact_mod_cast hbinade
  have hlow' : (quanta other : ℚ) < (binade * 2 ^ shift : ℕ) := by exact_mod_cast hlow
  have hle := (roundHalfEven_closest_multiple hden (show 0 < 2 ^ shift by positivity) scaled
    binade).1
  rw [← Nat.cast_mul binade, abs_of_nonneg (sub_nonneg.mpr hreach)] at hle
  rw [abs_of_nonneg (show 0 ≤ (scaled / den : ℚ) - quanta other by linarith)]
  linarith

/-- Rounding the leading bits of a quotient finds the closest pattern. -/
theorem closest_place (scaled : ℕ) {den shift : ℕ} (hden : 0 < den)
    (hshift : shift = Nat.log2 (scaled / den) + 1 - 53) :
    Closest (scaled / den) (shift * binade + roundHalfEven scaled (den * 2 ^ shift)) := by
  obtain ⟨hfew, hleading⟩ := leading_bits (scaled / den)
  rw [← hshift, Nat.div_div_eq_div_mul] at hfew hleading
  have hbounds := roundHalfEven_bounds scaled (den * 2 ^ shift)
  have hmultiple (multiple : ℕ) := roundHalfEven_closest_multiple hden
    (show 0 < 2 ^ shift by positivity) scaled multiple
  have hlower {other : ℕ} (h : shift ≠ 0 ∧ quanta other < binade * 2 ^ shift) :=
    abs_sub_lt_of_lower hden (hleading.resolve_left h.1) h.2
  generalize roundHalfEven scaled (den * 2 ^ shift) = place at hbounds hmultiple hlower ⊢
  have hquanta : quanta (shift * binade + place) = place * 2 ^ shift :=
    quanta_add shift (by omega) (by omega)
  refine ⟨?_, ?_⟩
  · intro other
    rw [hquanta, Nat.cast_mul]
    rcases quanta_multiple_or_lt other shift with ⟨multiple, hother⟩ | hlow
    · rw [hother, Nat.cast_mul multiple]
      exact (hmultiple multiple).1
    · exact (hlower hlow).le
  · intro other hne htie
    rw [hquanta, Nat.cast_mul] at htie
    rcases quanta_multiple_or_lt other shift with ⟨multiple, hother⟩ | hlow
    · rw [hother, Nat.cast_mul multiple] at htie
      have hplace : multiple ≠ place := by
        rintro rfl
        exact hne (quanta_strictMono.injective (by rw [hother, hquanta]))
      have heven := (hmultiple multiple).2 hplace htie
      have hbinade : shift * binade % 2 = 0 := by
        rw [Nat.mul_mod, show binade % 2 = 0 by decide, Nat.mul_zero, Nat.zero_mod]
      rw [significand_mod_two]
      omega
    · exact absurd htie (hlower hlow).ne

/-- Rounding finds the closest pattern. -/
theorem closest_unlimited (num : ℕ) {den : ℕ} (hden : 0 < den) :
    Closest (num / den * quantaInOne) (unlimited num den) := by
  rw [div_mul_eq_mul_div, ← Nat.cast_mul]
  exact closest_place (num * quantaInOne) hden rfl

/-- Every number that is not negative has a closest pattern. -/
theorem exists_closest {exact : ℚ} (hexact : 0 ≤ exact) :
    ∃ pattern, Closest (exact * quantaInOne) pattern := by
  have hfraction : (exact.num.toNat / exact.den : ℚ) = exact := by
    have hnum : (exact.num.toNat : ℤ) = exact.num :=
      Int.toNat_of_nonneg (Rat.num_nonneg.mpr hexact)
    rw [← Int.cast_natCast, hnum]
    exact Rat.num_div_den exact
  have hclosest := closest_unlimited exact.num.toNat exact.den_pos
  rw [hfraction] at hclosest
  exact ⟨_, hclosest⟩

/-! ## Infinity and zero -/

/-- The two patterns around the largest numbers that are rounded to a finite
magnitude. -/
theorem quanta_infinity :
    quanta (infinity - 1) = (2 * binade - 1) * 2 ^ 2045 ∧
      quanta infinity = 2 * binade * 2 ^ 2045 := by
  have hlast : infinity - 1 = 2045 * binade + (2 * binade - 1) := by decide
  have hnext : infinity = 2045 * binade + 2 * binade := by decide
  constructor
  · rw [hlast]
    exact quanta_add 2045 (by decide) (by decide)
  · rw [hnext]
    exact quanta_add 2045 (by decide) (by decide)

/-- From half a step below infinity on, the closest pattern is not finite. -/
theorem Closest.infinity_le_iff {exact : ℚ} {pattern : ℕ} (h : Closest exact pattern) :
    infinity ≤ pattern ↔ (quanta (infinity - 1) + quanta infinity : ℚ) ≤ 2 * exact := by
  have hpos : 0 < infinity := by decide
  constructor
  · intro hle
    have hmiddle := h.le_two_mul (show infinity - 1 < pattern by omega)
    have hlarger : (quanta infinity : ℚ) ≤ quanta pattern := by
      exact_mod_cast quanta_strictMono.monotone hle
    linarith
  · intro hreach
    by_contra hfinite
    have hmiddle := h.two_mul_le (Nat.lt_of_not_le hfinite)
    have hsmaller : quanta pattern ≤ quanta (infinity - 1) :=
      quanta_strictMono.monotone (by omega)
    have hsmaller' : (quanta pattern : ℚ) ≤ quanta (infinity - 1) := by exact_mod_cast hsmaller
    have hlast : quanta pattern = quanta (infinity - 1) :=
      le_antisymm hsmaller (by exact_mod_cast (show (quanta (infinity - 1) : ℚ) ≤ quanta pattern by
        linarith))
    -- Half a step below infinity the last finite pattern is as close, but it is odd.
    have heven := h.even_of_middle (show infinity ≠ pattern by omega) (by rw [hlast]; linarith)
    rw [quanta_strictMono.injective hlast] at heven
    exact absurd heven (by decide)

/-- Up to half a quantum, zero is closest. -/
theorem Closest.eq_zero_iff {exact : ℚ} {pattern : ℕ} (h : Closest exact pattern) :
    pattern = 0 ↔ 2 * exact ≤ 1 := by
  have hzero : quanta 0 = 0 := by decide
  have hone : quanta 1 = 1 := by decide
  constructor
  · rintro rfl
    have hmiddle := h.two_mul_le (show 0 < 1 by omega)
    rw [hzero, hone] at hmiddle
    exact_mod_cast hmiddle
  · intro hsmall
    by_contra hne
    have hmiddle := h.le_two_mul (show 0 < pattern by omega)
    rw [hzero, Nat.cast_zero, zero_add] at hmiddle
    have hle : quanta pattern ≤ quanta 1 := by
      rw [hone]
      exact_mod_cast hmiddle.trans hsmall
    have hfirst : pattern = 1 := by
      have := quanta_strictMono.le_iff_le.mp hle
      omega
    subst hfirst
    have heven := h.even_of_middle (show 0 ≠ 1 by omega) (by
      rw [hzero, hone] at *
      push_cast at *
      linarith)
    exact absurd heven (by decide)

/-- Below the numbers that are rounded to infinity, the closest finite pattern is
the closest of all. -/
theorem closest_of_finite {exact : ℚ} {pattern : ℕ}
    (hbound : 2 * exact < quanta (infinity - 1) + quanta infinity)
    (hle : ∀ other, other < infinity → |exact - quanta pattern| ≤ |exact - quanta other|)
    (heven : ∀ other, other < infinity → other ≠ pattern →
      |exact - quanta pattern| = |exact - quanta other| → significand pattern % 2 = 0) :
    Closest exact pattern := by
  have hpos : 0 < infinity := by decide
  have hbeyond (other : ℕ) (hother : infinity ≤ other) :
      |exact - quanta pattern| < |exact - quanta other| := by
    have hlt : (quanta (infinity - 1) : ℚ) < quanta other := by
      exact_mod_cast quanta_strictMono (show infinity - 1 < other by omega)
    have hlarger : (quanta infinity : ℚ) ≤ quanta other := by
      exact_mod_cast quanta_strictMono.monotone hother
    refine lt_of_le_of_lt (hle (infinity - 1) (by omega)) (lt_of_le_of_ne ?_ ?_)
    · rw [abs_sub_le_abs_sub_iff hlt]
      linarith
    · rw [ne_eq, abs_sub_eq_abs_sub_iff hlt.ne]
      intro hmiddle
      linarith
  refine ⟨?_, ?_⟩
  · intro other
    rcases Nat.lt_or_ge other infinity with hother | hother
    · exact hle other hother
    · exact (hbeyond other hother).le
  · intro other hne htie
    rcases Nat.lt_or_ge other infinity with hother | hother
    · exact heven other hother hne htie
    · exact absurd htie (hbeyond other hother).ne

end Magnitude

end Calculator
