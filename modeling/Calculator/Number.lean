import Calculator.Decimal.Positional
import Calculator.Decimal.Shortest

/-!
# The text of numbers

A double precision number is written by its shortest decimal in positional
order, so that reading the text gives the same number again. The pointed
spelling of a finite number is always a full literal.
-/

namespace Calculator

/-- The place value of the sign bit, which is `2 ^ 63`. -/
def Number.signBit : Nat := 0x8000000000000000

/-- The pattern of the number's absolute value. -/
def Number.pattern (value : Float) : Nat :=
  value.toBits.toNat % signBit

/-- Writes a number whose finite magnitudes are spelled by `spell`. A negative
number, negative zero included, starts with a minus sign; a value that is not a
number has no sign. -/
def Number.spelled (spell : Decimal → List Char) (value : Float) : List Char :=
  let pattern := pattern value
  if Magnitude.infinity < pattern then ['N', 'a', 'N']
  else
    let magnitude :=
      if pattern = Magnitude.infinity then ['i', 'n', 'f'] else spell (Magnitude.shortest pattern)
    if signBit ≤ value.toBits.toNat then '-' :: magnitude else magnitude

/-- The shortest text that reads back as the number, without a point for a
whole value. -/
def Number.text (value : Float) : String :=
  String.ofList (spelled Decimal.positional value)

/-- The shortest text that reads back as the number, with a point for every
finite value. -/
def Number.pointedText (value : Float) : String :=
  String.ofList (spelled Decimal.pointed value)

end Calculator
