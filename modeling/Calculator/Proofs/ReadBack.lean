import Calculator.Proofs.Bits
import Calculator.Proofs.Positional

/-!
# Reading numbers back

A written number can be read by anyone who knows literals, a minus sign, and the
words for infinity and for what is not a number. Reading gives back the number
that was written, with its sign, for every number there is.
-/

namespace Calculator

namespace Number

/-- The number that a word without a sign spells: infinity, what is not a number,
or the value of a literal. -/
def readMagnitude? (word : List Char) : Option Float :=
  if word = ['i', 'n', 'f'] then some Float.inf
  else if word = ['N', 'a', 'N'] then some Float.nan
  else
    let (literal, rest) := Literal.split word
    if literal.whole ≠ [] ∧ rest = [] then some literal.value else none

/-- The number that a word spells, which may start with a minus sign. -/
def read? : List Char → Option Float
  | '-' :: word => (readMagnitude? word).map fun value => -value
  | word => readMagnitude? word

/-- The text of a literal reads as its value. -/
theorem readMagnitude?_chars {literal : Literal} (hproper : literal.Proper) :
    readMagnitude? literal.chars = some literal.value := by
  obtain ⟨c, rest, hchars, hdigit⟩ := hproper.exists_digit
  have hsplit : Literal.split literal.chars = (literal, []) := by
    have hwhole : Literal.split (literal.chars ++ []) = (literal, []) :=
      hproper.split_eq fun other _ hprefix => by simpa using hprefix.length_le
    rwa [List.append_nil] at hwhole
  have hinf : literal.chars ≠ ['i', 'n', 'f'] := by
    rw [hchars]
    rintro ⟨⟩
    cases hdigit
  have hnan : literal.chars ≠ ['N', 'a', 'N'] := by
    rw [hchars]
    rintro ⟨⟩
    cases hdigit
  unfold readMagnitude?
  rw [if_neg hinf, if_neg hnan, hsplit]
  exact if_pos ⟨hproper.whole_ne_nil, rfl⟩

/-! ## Written numbers -/

/-- The text of a magnitude up to infinity. -/
def magnitudeText (pattern : Nat) : List Char :=
  if pattern = Magnitude.infinity then ['i', 'n', 'f']
  else Decimal.pointed (Magnitude.shortest pattern)

/-- A number is written as its magnitude, with a minus sign if its sign bit is
set. -/
theorem spelled_eq_magnitudeText {value : Float} (hnumber : pattern value ≤ Magnitude.infinity) :
    spelled Decimal.pointed value =
      if signBit ≤ value.toBits.toNat then '-' :: magnitudeText (pattern value)
      else magnitudeText (pattern value) := by
  unfold spelled
  exact if_neg (Nat.not_lt.mpr hnumber)

/-- The text of a finite magnitude is that of a literal, whose value has this
magnitude. -/
theorem exists_literal {pattern : Nat} (hfinite : pattern < Magnitude.infinity) :
    ∃ literal : Literal, literal.Proper ∧ literal.fraction ≠ [] ∧
      literal.chars = magnitudeText pattern ∧
      literal.value = Float.ofBits (UInt64.ofNat pattern) := by
  have hwritten := (Magnitude.shortest pattern).writtenAs_literal
  refine ⟨_, hwritten.proper, hwritten.fraction_ne_nil, ?_, ?_⟩
  · rw [hwritten.chars_eq, magnitudeText, if_neg (Nat.ne_of_lt hfinite)]
  · rw [hwritten.value_eq, Decimal.toFloat, Magnitude.magnitude_shortest hfinite]

/-- A magnitude is read back from its text. -/
theorem readMagnitude?_magnitudeText {pattern : Nat} (hnumber : pattern ≤ Magnitude.infinity) :
    readMagnitude? (magnitudeText pattern) = some (Float.ofBits (UInt64.ofNat pattern)) := by
  by_cases hinfinite : pattern = Magnitude.infinity
  · subst hinfinite
    have hinf : Float.inf = Float.ofBits (UInt64.ofNat Magnitude.infinity) := by decide
    rw [magnitudeText, if_pos rfl, readMagnitude?, if_pos rfl, hinf]
  · obtain ⟨literal, hproper, _, hchars, hvalue⟩ :=
      exists_literal (lt_of_le_of_ne hnumber hinfinite)
    rw [← hchars, readMagnitude?_chars hproper, hvalue]

/-- The text of a magnitude has no sign. -/
theorem exists_head_magnitudeText {pattern : Nat} (hnumber : pattern ≤ Magnitude.infinity) :
    ∃ c rest, magnitudeText pattern = c :: rest ∧ c ≠ '-' := by
  by_cases hinfinite : pattern = Magnitude.infinity
  · exact ⟨'i', ['n', 'f'], by rw [magnitudeText, if_pos hinfinite], by decide⟩
  · obtain ⟨literal, hproper, _, hchars, _⟩ := exists_literal (lt_of_le_of_ne hnumber hinfinite)
    obtain ⟨c, rest, hstart, hdigit⟩ := hproper.exists_digit
    refine ⟨c, rest, by rw [← hchars, hstart], ?_⟩
    rintro rfl
    cases hdigit

/-- A text without a minus sign is read as a magnitude. -/
theorem read?_of_head {c : Char} (hsign : c ≠ '-') (rest : List Char) :
    read? (c :: rest) = readMagnitude? (c :: rest) := by
  unfold read?
  split
  · rename_i word heq
    exact absurd (List.cons.inj heq).1 hsign
  · rfl

/-- Every number is read back from its text. -/
theorem read?_spelled (value : Float) : read? (spelled Decimal.pointed value) = some value := by
  by_cases hnumber : pattern value ≤ Magnitude.infinity
  · rw [spelled_eq_magnitudeText hnumber]
    have hmagnitude := readMagnitude?_magnitudeText hnumber
    by_cases hsign : signBit ≤ value.toBits.toNat
    · rw [if_pos hsign, read?, hmagnitude, Option.map_some, neg_ofBits_pattern hsign hnumber]
    · obtain ⟨c, rest, htext, hc⟩ := exists_head_magnitudeText hnumber
      rw [if_neg hsign, htext, read?_of_head hc, ← htext, hmagnitude,
        ofBits_pattern (Nat.not_le.mp hsign)]
  · have hnan : value = Float.nan := eq_nan_iff_pattern.mpr (Nat.not_le.mp hnumber)
    subst hnan
    decide

end Number

end Calculator
