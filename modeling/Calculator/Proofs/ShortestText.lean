import Calculator.Proofs.ShortestDecimal
import Mathlib.Data.List.DropRight

/-!
# The shortest text

The text of a finite number shows the digits of its shortest decimal, between
zeros that only reach the point. So no decimal number with fewer significant
digits is rounded to the same double, and none with as many that is nearer to it.
A fraction of one zero marks the whole values, and no other zero is superfluous.
-/

namespace Calculator

/-! ## Significant digits -/

/-- The digits of a text from the first to the last one that is not zero. -/
def significantDigits (text : String) : List Char :=
  ((text.toList.filter Char.isDigit).dropWhile (· == '0')).rdropWhile (· == '0')

/-- Without the zeros in front, digits begin with another digit. -/
theorem dropWhile_zeros {digits : List Char} (hfirst : digits.head? ≠ some '0') (count : ℕ) :
    (List.replicate count '0' ++ digits).dropWhile (· == '0') = digits := by
  rw [List.dropWhile_append_of_pos (by simp)]
  cases digits with
  | nil => rfl
  | cons c rest => exact List.dropWhile_cons_of_neg (by simpa using hfirst)

/-- Without the zeros at the end, digits end with another digit. -/
theorem rdropWhile_zeros {digits : List Char} (hlast : digits.getLast? ≠ some '0') (count : ℕ) :
    (digits ++ List.replicate count '0').rdropWhile (· == '0') = digits := by
  rw [List.rdropWhile, List.reverse_append, List.reverse_replicate,
    dropWhile_zeros (by rwa [List.head?_reverse]), List.reverse_reverse]

/-- The digits of a positive number begin with a digit other than zero. -/
theorem head?_toDigits {n : ℕ} (hpos : 0 < n) : (Nat.toDigits 10 n).head? ≠ some '0' := by
  induction n using Nat.strongRecOn with
  | ind n ih =>
    rcases Nat.lt_or_ge n 10 with hsmall | hlarge
    · rw [Nat.toDigits_of_lt_base hsmall, List.head?_cons, ne_eq, Option.some.injEq,
        Nat.digitChar_eq_zero]
      omega
    · rw [Nat.toDigits_of_base_le (by decide) hlarge,
        List.head?_append_of_ne_nil _ Nat.toDigits_ne_nil]
      exact ih (n / 10) (by omega) (by omega)

/-- The digits of a number end with its last digit. -/
theorem getLast?_toDigits {n : ℕ} (hlast : n % 10 ≠ 0) :
    (Nat.toDigits 10 n).getLast? ≠ some '0' := by
  have hdigit : (Nat.toDigits 10 n).getLast? = some (n % 10).digitChar := by
    rcases Nat.lt_or_ge n 10 with hsmall | hlarge
    · rw [Nat.toDigits_of_lt_base hsmall, Nat.mod_eq_of_lt hsmall, List.getLast?_singleton]
    · rw [Nat.toDigits_of_base_le (by decide) hlarge, List.getLast?_concat]
  rw [hdigit, ne_eq, Option.some.injEq, Nat.digitChar_eq_zero]
  exact hlast

/-- A number has as many digits as are counted. -/
theorem length_toDigits {n : ℕ} (hpos : 0 < n) :
    (Nat.toDigits 10 n).length = Magnitude.digitCount n := by
  have hsome : 0 < (Nat.toDigits 10 n).length := Nat.length_toDigits_pos
  obtain ⟨_, hupper, hcount⟩ := Magnitude.digitCount_bounds hpos
  apply le_antisymm
  · exact (Nat.length_toDigits_le_iff (by decide) hcount).mpr hupper
  · exact (Magnitude.digitCount_le_iff hpos _).mpr
      ((Nat.length_toDigits_le_iff (by decide) hsome).mp le_rfl)

/-! ## The literal of a trimmed decimal -/

/-- The digits in the text of a literal are those on both sides of the point. -/
theorem Literal.Proper.filter_chars {literal : Literal} (hproper : literal.Proper) :
    literal.chars.filter Char.isDigit = literal.whole ++ literal.fraction := by
  obtain ⟨whole, fraction⟩ := literal
  have hwhole : whole.filter Char.isDigit = whole := List.filter_eq_self.mpr hproper.whole_digits
  have hfraction : fraction.filter Char.isDigit = fraction :=
    List.filter_eq_self.mpr hproper.fraction_digits
  by_cases hnil : fraction = []
  · subst hnil
    rw [chars_whole, hwhole, List.append_nil]
  · rw [chars_pointed _ hnil, List.filter_append, List.filter_cons_of_neg (by decide), hwhole,
      hfraction]

namespace Decimal

/-- The significant digits of a trimmed decimal are those of its coefficient. -/
theorem significantDigits_literal {d : Decimal} (hpos : 0 < d.coefficient)
    (hlast : d.coefficient % 10 ≠ 0) {text : String}
    (hdigits : text.toList.filter Char.isDigit = d.literal.chars.filter Char.isDigit) :
    significantDigits text = Nat.toDigits 10 d.coefficient := by
  obtain ⟨leading, trailing, hliteral, _⟩ := d.digits_literal
  have hfirst := head?_toDigits hpos
  rw [← List.head?_append_of_ne_nil _ Nat.toDigits_ne_nil] at hfirst
  rw [significantDigits, hdigits, d.proper_literal.filter_chars, hliteral, dropWhile_zeros hfirst,
    rdropWhile_zeros (getLast?_toDigits hlast)]

/-- The literal of a decimal denotes what the decimal denotes. -/
theorem quantity_literal (d : Decimal) : d.literal.quantity = d.quantity := by
  rw [← d.literal.quantity_ofDigits, d.quantity_ofDigits_literal]

/-- In front of the point there is one zero, or no zero comes first. -/
theorem head?_literal {d : Decimal} (hpos : 0 < d.coefficient)
    (hzero : d.literal.whole.head? = some '0') : d.literal.whole = ['0'] := by
  have hfirst := head?_toDigits hpos
  rcases d.whole_or_fraction with ⟨coefficient, places, rfl⟩ | ⟨coefficient, places, rfl⟩
  · rw [literal_whole] at hzero
    rw [List.head?_append_of_ne_nil _ Nat.toDigits_ne_nil] at hzero
    exact absurd hzero hfirst
  · rw [literal_fraction] at hzero ⊢
    simp only at hzero hfirst ⊢
    rcases Nat.lt_or_ge (places + 1) (Nat.toDigits 10 coefficient).length with hlong | hshort
    · -- The digits reach the point, and no zero is put in front of them.
      have hpadded : padded coefficient (places + 1) = Nat.toDigits 10 coefficient := by
        rw [padded, show places + 1 + 1 - (Nat.toDigits 10 coefficient).length = 0 by omega]
        rfl
      rw [hpadded, List.head?_take, if_neg (by omega)] at hzero
      exact absurd hzero hfirst
    · -- One place is left in front of the point, and a zero is put there.
      obtain ⟨more, hmore⟩ : ∃ more, places + 1 + 1 - (Nat.toDigits 10 coefficient).length =
        more + 1 := ⟨places + 1 - (Nat.toDigits 10 coefficient).length, by omega⟩
      have hlength : (padded coefficient (places + 1)).length = places + 1 + 1 := by
        rw [padded, List.length_append, List.length_replicate]
        omega
      rw [hlength, Nat.add_sub_cancel_left, padded, hmore]
      rfl

/-- Behind the point there is one zero if the decimal is a whole number, and
otherwise no zero comes last. -/
theorem fraction_literal {d : Decimal} (hlast : d.coefficient % 10 ≠ 0) :
    if 0 ≤ d.exponent then d.literal.fraction = ['0']
    else d.literal.fraction.getLast? ≠ some '0' := by
  rcases d.whole_or_fraction with ⟨coefficient, places, rfl⟩ | ⟨coefficient, places, rfl⟩
  · rw [if_pos (Int.natCast_nonneg places), literal_whole]
  · have hlength := lt_length_padded coefficient (places + 1)
    have hneg : ¬ (0 : ℤ) ≤ -(places + 1 : ℕ) := by omega
    rw [if_neg hneg, literal_fraction]
    simp only
    rw [List.getLast?_drop, if_neg (by omega), padded,
      List.getLast?_append_of_ne_nil _ Nat.toDigits_ne_nil]
    exact getLast?_toDigits hlast

/-- A zero is alone behind the point exactly in whole numbers. -/
theorem fraction_literal_eq_iff {d : Decimal} (hlast : d.coefficient % 10 ≠ 0) :
    d.literal.fraction = ['0'] ↔ 0 ≤ d.exponent := by
  have hfraction := fraction_literal hlast
  split_ifs at hfraction with hexponent
  · exact ⟨fun _ => hexponent, fun _ => hfraction⟩
  · exact ⟨fun h => absurd (by rw [h]; rfl) hfraction, fun h => absurd h hexponent⟩

/-- The pointed text of a decimal is the two parts of its literal around a point. -/
theorem pointed_eq (d : Decimal) : d.pointed = d.literal.whole ++ '.' :: d.literal.fraction := by
  rw [← d.chars_literal]
  exact Literal.chars_pointed _ d.literal_ne_nil.2

/-- The plain text of a decimal is the whole part of its literal, and what is
behind the point unless the decimal is a whole number. -/
theorem positional_eq (d : Decimal) :
    d.positional = d.literal.whole ++ if 0 ≤ d.exponent then [] else '.' :: d.literal.fraction := by
  have hpointed := d.pointed_eq
  rw [pointed] at hpointed
  split_ifs at hpointed ⊢ with hwhole
  · have hfraction : d.literal.fraction = ['0'] := by
      rw [literal, if_pos hwhole]
    rw [hfraction] at hpointed
    rw [List.append_nil]
    exact List.append_cancel_right hpointed
  · exact hpointed

end Decimal

/-! ## Whole values -/

namespace Magnitude

/-- Multiples of a step that differ by half of it at most are in order. -/
theorem le_of_half_step {step a b : ℕ} (hstep : 0 < step)
    (hclose : 2 * (step * a) ≤ 2 * (step * b) + step) : a ≤ b := by
  have hmultiple : step * (2 * a) ≤ step * (2 * b + 1) := by linarith
  have hle := Nat.le_of_mul_le_mul_left hmultiple hstep
  omega

/-- A number of quanta that is a multiple of the spacing at its closest pattern is
that of the pattern. -/
theorem Closest.quanta_eq {pattern n : ℕ} (h : Closest n pattern) (hdvd : 2 ^ scale pattern ∣ n) :
    quanta pattern = n := by
  obtain ⟨multiple, rfl⟩ := hdvd
  have hquanta : quanta pattern = 2 ^ scale pattern * significand pattern := by
    rw [quanta, Nat.pow_eq, Nat.mul_comm]
  have hspacing : 0 < 2 ^ scale pattern := by positivity
  have hle : multiple ≤ significand pattern := by
    have habove : 2 * (2 ^ scale pattern * multiple) ≤ quanta pattern + quanta (pattern + 1) := by
      exact_mod_cast h.two_mul_le (Nat.lt_succ_self pattern)
    rw [quanta_succ, hquanta] at habove
    exact le_of_half_step hspacing (by linarith)
  have hge : significand pattern ≤ multiple := by
    cases pattern with
    | zero => exact Nat.zero_le _
    | succ previous =>
      have hbelow : quanta previous + quanta (previous + 1) ≤
          2 * (2 ^ scale (previous + 1) * multiple) := by
        exact_mod_cast h.le_two_mul (Nat.lt_succ_self previous)
      -- The step from the pattern below is a spacing here, or half of one.
      have hstep := quanta_succ previous
      have hscale : 2 ^ scale previous ≤ 2 ^ scale (previous + 1) := by
        apply Nat.pow_le_pow_right (by decide)
        exact Nat.sub_le_sub_right (Nat.div_le_div_right (Nat.le_succ previous)) 1
      rw [hquanta] at hbelow hstep
      exact le_of_half_step hspacing (by linarith)
  rw [hquanta, le_antisymm hle hge]

/-- A magnitude is a whole number if and only if its quanta make up ones. -/
theorem whole_iff_dvd (pattern : ℕ) :
    (∃ n : ℕ, (exact pattern).quantity = n) ↔ quantaInOne ∣ quanta pattern := by
  have hquanta := quantity_exact pattern
  constructor
  · rintro ⟨n, hn⟩
    rw [hn] at hquanta
    exact ⟨n, by rw [Nat.mul_comm]; exact_mod_cast hquanta.symm⟩
  · rintro ⟨n, hn⟩
    refine ⟨n, mul_right_cancel₀ Number.quantaInOne_pos.ne' ?_⟩
    rw [hquanta, hn, Nat.mul_comm]
    push_cast
    rfl

/-- A magnitude as which a whole number reads is one itself. -/
theorem Reads.dvd_quanta {pattern n : ℕ} (h : Reads n pattern) : quantaInOne ∣ quanta pattern := by
  rcases spacing_dvd_or (scale pattern) with hfine | hcoarse
  · -- The spacing divides one, and therefore every whole number.
    rw [Reads, ← Nat.cast_mul] at h
    rw [h.quanta_eq (hfine.mul_left n)]
    exact Nat.dvd_mul_left _ _
  · rw [quanta, Nat.pow_eq]
    exact hcoarse.mul_left _

/-- The shortest decimal is a whole number exactly if the magnitude is one. -/
theorem IsShortest.whole_iff {pattern : ℕ} {d : Decimal} (h : IsShortest pattern d)
    (hfinite : pattern < infinity) :
    0 ≤ d.exponent ↔ ∃ n : ℕ, (exact pattern).quantity = n := by
  have hvalue : Reads (exact pattern).quantity pattern :=
    (magnitude_eq_iff_reads hfinite).mp (magnitude_exact hfinite)
  constructor
  · intro hexponent
    obtain ⟨places, hplaces⟩ := Int.eq_ofNat_of_zero_le hexponent
    have hreads := h.reads
    rw [Decimal.quantity, hplaces, zpow_natCast] at hreads
    exact (whole_iff_dvd pattern).mpr
      (Reads.dvd_quanta (n := d.coefficient * 10 ^ places) (by exact_mod_cast hreads))
  · rintro ⟨n, hn⟩
    by_contra hnegative
    rw [hn] at hvalue
    obtain ⟨places, hplaces⟩ := Int.eq_ofNat_of_zero_le (show 0 ≤ -d.exponent by omega)
    set count := digitCount d.coefficient with hcount
    obtain ⟨_, hupper, hsome⟩ := digitCount_bounds h.pos
    rw [← hcount] at hupper hsome
    -- What stands in front of the point of the decimal has `count - places` digits.
    have hbelow : d.quantity < (10 : ℚ) ^ (count - places) := by
      rw [Decimal.quantity, show d.exponent = -places by omega, zpow_neg, zpow_natCast,
        ← div_eq_mul_inv, div_lt_iff₀ (by positivity), ← pow_add]
      have hle : 10 ^ count ≤ 10 ^ (count - places + places) :=
        Nat.pow_le_pow_right (by decide) (by omega)
      exact_mod_cast hupper.trans_le hle
    rcases Nat.lt_or_ge n (10 ^ (count - places)) with hfew | hmany
    · -- The whole number itself has fewer digits.
      have hless := h.fewest (count - places) n 0 hfew (by rwa [zpow_zero, mul_one])
      omega
    · -- A power of ten is nearer.
      have hpower : (10 : ℚ) ^ (count - places) ≤ n := by exact_mod_cast hmany
      have hreads : Reads (10 ^ (count - places)) pattern :=
        h.reads.between hvalue hbelow.le hpower
      have hnear := h.nearest 1 (count - places : ℕ) (Nat.one_lt_pow (by omega) (by decide))
        (by rwa [Nat.cast_one, one_mul, zpow_natCast])
      rw [hn, Nat.cast_one, one_mul, zpow_natCast, abs_of_nonneg (sub_nonneg.mpr hpower),
        abs_of_pos (by linarith)] at hnear
      linarith

end Magnitude

/-! ## The text of a number -/

namespace Number

variable {value : Float}

/-- A number is rounded to a finite double exactly if it has its sign and, without
it, reads as its pattern. -/
theorem rounded_iff_reads {x : ℚ} (hfinite : pattern value < Magnitude.infinity) :
    Rounded x value ↔
      (signBit ≤ value.toBits.toNat ↔ x < 0) ∧ Magnitude.Reads |x| (pattern value) := by
  constructor
  · intro hrounded
    obtain ⟨closest, hclosest⟩ := Magnitude.exists_closest (abs_nonneg x)
    have hpattern := hrounded.pattern_eq hclosest
    obtain rfl : pattern value = closest := by omega
    exact ⟨hrounded.signed, hclosest⟩
  · rintro ⟨hsigned, hreads⟩
    exact .of_closest hreads hsigned (by omega)

/-- Without its sign, a finite number is the exact decimal of its pattern. -/
theorem quantity_exact_pattern (hfinite : pattern value < Magnitude.infinity) :
    (Magnitude.exact (pattern value)).quantity = |quantity value| := by
  apply mul_right_cancel₀ quantaInOne_pos.ne'
  rw [Magnitude.quantity_exact, abs_quantity hfinite]

/-- A number with the sign of a double. -/
def withSign (value : Float) (x : ℚ) : ℚ := if signBit ≤ value.toBits.toNat then -x else x

/-- The minus sign in front of the text of a number with a sign. -/
def minus (value : Float) : List Char := if signBit ≤ value.toBits.toNat then ['-'] else []

/-- A positive number takes the sign of a double. -/
theorem withSign_signed (value : Float) {x : ℚ} (hpos : 0 < x) :
    (signBit ≤ value.toBits.toNat ↔ withSign value x < 0) ∧ |withSign value x| = x := by
  unfold withSign
  split_ifs with hnegative
  · rw [abs_neg, abs_of_pos hpos]
    exact ⟨⟨fun _ => by linarith, fun _ => hnegative⟩, rfl⟩
  · exact ⟨⟨fun h => absurd h hnegative, fun h => absurd h (not_lt.mpr hpos.le)⟩, abs_of_pos hpos⟩

/-- With a sign, a decimal has the same digits. -/
theorem hasDigits_withSign {count coefficient : ℕ} (hfew : coefficient < 10 ^ count)
    (exponent : ℤ) :
    HasDigits count (withSign value (coefficient * 10 ^ exponent)) := by
  unfold withSign
  split_ifs with hnegative
  · refine ⟨-coefficient, exponent, ?_, by push_cast; ring⟩
    rw [abs_neg, Nat.abs_cast]
    exact_mod_cast hfew
  · refine ⟨coefficient, exponent, ?_, by push_cast; rfl⟩
    rw [Nat.abs_cast]
    exact_mod_cast hfew

/-- A finite number is written by its shortest decimal behind its sign. -/
theorem spelled_of_finite (hfinite : pattern value < Magnitude.infinity)
    (spell : Decimal → List Char) :
    spelled spell value = minus value ++ spell (Magnitude.shortest (pattern value)) := by
  unfold spelled minus
  simp only [if_neg (Nat.not_lt.mpr hfinite.le), if_neg hfinite.ne]
  split_ifs <;> rfl

/-- A number is whole exactly if it is so without its sign. -/
theorem exists_natAbs_iff (x : ℚ) : (∃ n : ℕ, |x| = n) ↔ ∃ n : ℤ, x = n := by
  constructor
  · rintro ⟨n, hn⟩
    rcases abs_choice x with habs | habs
    · exact ⟨n, by rw [← habs, hn, Int.cast_natCast]⟩
    · exact ⟨-n, by rw [Int.cast_neg, Int.cast_natCast, ← hn, habs, neg_neg]⟩
  · rintro ⟨n, rfl⟩
    exact ⟨n.natAbs, by rw [Nat.cast_natAbs, Int.cast_abs]⟩

section

variable (hfinite : pattern value < Magnitude.infinity) (hne : pattern value ≠ 0)

include hfinite in
/-- The pointed text of a finite number is that of its shortest decimal. -/
theorem toList_pointedText :
    (pointedText value).toList =
      minus value ++ Decimal.pointed (Magnitude.shortest (pattern value)) := by
  rw [pointedText, String.toList_ofList, spelled_of_finite hfinite]

include hfinite hne

/-- The text of a number shows the digits of its shortest decimal. -/
theorem significantDigits_pointedText :
    significantDigits (pointedText value) =
      Nat.toDigits 10 (Magnitude.shortest (pattern value)).coefficient := by
  have hshortest := Magnitude.isShortest_shortest hne hfinite
  have hminus : (minus value).filter Char.isDigit = [] := by
    unfold minus
    split_ifs <;> rfl
  apply Decimal.significantDigits_literal hshortest.pos hshortest.trimmed
  rw [toList_pointedText hfinite, List.filter_append, hminus, Decimal.chars_literal,
    List.nil_append]

/-- The shortest decimal, with the sign of the number, is rounded to the number. -/
theorem rounded_shortest :
    Rounded (withSign value (Magnitude.shortest (pattern value)).quantity) value := by
  have hreads := (Magnitude.isShortest_shortest hne hfinite).reads
  obtain ⟨hsigned, habs⟩ := withSign_signed value (hreads.pos hne)
  rw [rounded_iff_reads hfinite, habs]
  exact ⟨hsigned, hreads⟩

/-- A decimal that is rounded to a number has at least as many digits as the
shortest one. -/
theorem digitCount_le_of_rounded {count : ℕ} {x : ℚ} (hx : HasDigits count x)
    (hrounded : Rounded x value) :
    Magnitude.digitCount (Magnitude.shortest (pattern value)).coefficient ≤ count := by
  obtain ⟨coefficient, exponent, hfew, habs⟩ := hx.abs
  have hreads := ((rounded_iff_reads hfinite).mp hrounded).2
  rw [habs] at hreads
  exact (Magnitude.isShortest_shortest hne hfinite).fewest count coefficient exponent hfew hreads

/-- A decimal with as many digits as the shortest one that is rounded to a number is
not nearer to it. -/
theorem shortest_nearest {x : ℚ}
    (hx : HasDigits (Magnitude.digitCount (Magnitude.shortest (pattern value)).coefficient) x)
    (hrounded : Rounded x value) :
    |withSign value (Magnitude.shortest (pattern value)).quantity - quantity value| ≤
      |x - quantity value| := by
  have hshortest := Magnitude.isShortest_shortest hne hfinite
  obtain ⟨hsigned, habs⟩ := withSign_signed value (hshortest.reads.pos hne)
  obtain ⟨coefficient, exponent, hfew, habs'⟩ := hx.abs
  obtain ⟨hsigned', hreads⟩ := (rounded_iff_reads hfinite).mp hrounded
  rw [abs_sub_quantity hfinite hsigned, abs_sub_quantity hfinite hsigned', habs,
    ← quantity_exact_pattern hfinite, abs_sub_comm, abs_sub_comm |x|, habs']
  rw [habs'] at hreads
  exact hshortest.nearest coefficient exponent hfew hreads

end

/-- A literal shows a number in the shortest way: it is rounded to the number, no
decimal with fewer significant digits is, and none with as many is nearer. It has
no zeros but those that reach the point. -/
structure ShortestLiteral (value : Float) (literal : Literal) : Prop where
  /-- The literal is digits around a point. -/
  proper : literal.Proper ∧ literal.fraction ≠ []
  /-- The text of the number is the literal behind the sign. -/
  pointed : (pointedText value).toList = minus value ++ literal.whole ++ '.' :: literal.fraction
  /-- In the plain text, whole values have no fraction. -/
  plain : (text value).toList = minus value ++ literal.whole ++
    if literal.fraction = ['0'] then [] else '.' :: literal.fraction
  /-- What is written is rounded to the number. -/
  rounded : Rounded (withSign value literal.quantity) value
  /-- What is written has as many digits as the text shows. -/
  digits : HasDigits (significantDigits (pointedText value)).length
    (withSign value literal.quantity)
  /-- No decimal with fewer digits is rounded to the number. -/
  fewest : ∀ (count : ℕ) (x : ℚ), HasDigits count x → Rounded x value →
    (significantDigits (pointedText value)).length ≤ count
  /-- No decimal with as many digits that is rounded to the number is nearer. -/
  nearest : ∀ x : ℚ, HasDigits (significantDigits (pointedText value)).length x → Rounded x value →
    |withSign value literal.quantity - quantity value| ≤ |x - quantity value|
  /-- A zero comes first only if it is alone in front of the point. -/
  leading : literal.whole.head? = some '0' → literal.whole = ['0']
  /-- A zero comes last only if it is alone behind the point. -/
  trailing : literal.fraction.getLast? = some '0' → literal.fraction = ['0']
  /-- A zero is alone behind the point exactly in whole values. -/
  whole : literal.fraction = ['0'] ↔ ∃ n : ℤ, quantity value = n

/-- Every finite number other than zero is written in the shortest way. -/
theorem exists_shortestLiteral {value : Float} (hfinite : value.isFinite = true)
    (hne : quantity value ≠ 0) : ∃ literal, ShortestLiteral value literal := by
  have hpattern := pattern_lt_of_isFinite hfinite
  have hnonzero : pattern value ≠ 0 := fun h => hne ((quantity_eq_zero_iff hpattern).mpr h)
  have hshortest := Magnitude.isShortest_shortest hnonzero hpattern
  have hwhole := Decimal.fraction_literal_eq_iff hshortest.trimmed
  have hcount : (significantDigits (pointedText value)).length =
      Magnitude.digitCount (Magnitude.shortest (pattern value)).coefficient := by
    rw [significantDigits_pointedText hpattern hnonzero, length_toDigits hshortest.pos]
  refine ⟨(Magnitude.shortest (pattern value)).literal,
    ⟨Decimal.proper_literal _, (Decimal.literal_ne_nil _).2⟩, ?_, ?_, ?_, ?_, ?_, ?_,
    Decimal.head?_literal hshortest.pos, ?_, ?_⟩
  · rw [toList_pointedText hpattern, Decimal.pointed_eq, List.append_assoc]
  · rw [text, String.toList_ofList, spelled_of_finite hpattern, Decimal.positional_eq,
      List.append_assoc]
    simp only [hwhole]
  · rw [Decimal.quantity_literal]
    exact rounded_shortest hpattern hnonzero
  · rw [Decimal.quantity_literal, hcount]
    exact hasDigits_withSign (Magnitude.digitCount_bounds hshortest.pos).2.1 _
  · intro count x hx hrounded
    rw [hcount]
    exact digitCount_le_of_rounded hpattern hnonzero hx hrounded
  · intro x hx hrounded
    rw [hcount] at hx
    rw [Decimal.quantity_literal]
    exact shortest_nearest hpattern hnonzero hx hrounded
  · intro hlast
    have hfraction := Decimal.fraction_literal hshortest.trimmed
    split_ifs at hfraction with hexponent
    · exact hfraction
    · exact absurd hlast hfraction
  · rw [hwhole, hshortest.whole_iff hpattern, quantity_exact_pattern hpattern, exists_natAbs_iff]

/-- A decimal of one digit that is halfway between two doubles is the text of the
one with the even significand. -/
theorem exists_shortestLiteral_halfway :
    (-1e23 : Float).isFinite = true ∧ quantity (-1e23) = -99999999999999991611392 ∧
      pointedText (-1e23) = "-100000000000000000000000.0" ∧
      significantDigits (pointedText (-1e23)) = ['1'] ∧
      ∃ literal, ShortestLiteral (-1e23) literal := by
  have hfinite : (-1e23 : Float).isFinite = true := by decide +kernel
  have hquantity : quantity (-1e23) = -99999999999999991611392 := by decide +kernel
  refine ⟨hfinite, hquantity, by decide +kernel, by decide +kernel, ?_⟩
  exact exists_shortestLiteral hfinite (by rw [hquantity]; norm_num)

end Number

end Calculator
