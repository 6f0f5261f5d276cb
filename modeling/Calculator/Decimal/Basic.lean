import Calculator.Magnitude

/-!
# Decimals

A nonnegative decimal number is a natural coefficient scaled by a power of
ten. This file builds decimals from the digits of a literal and reads them as
double precision magnitudes.
-/

namespace Calculator

/-- The number `coefficient * 10 ^ exponent`. -/
structure Decimal where
  /-- The digits, read as a natural number. -/
  coefficient : Nat
  /-- The power of ten that scales the coefficient. -/
  exponent : Int
  deriving DecidableEq, Repr

/-- Numerator of the decimal as a fraction of natural numbers. -/
def Decimal.numerator (d : Decimal) : Nat :=
  d.coefficient * Nat.pow 10 d.exponent.toNat

/-- Denominator of the decimal as a fraction of natural numbers. -/
def Decimal.denominator (d : Decimal) : Nat :=
  Nat.pow 10 (-d.exponent).toNat

/-- The pattern of the double precision magnitude nearest to the decimal. -/
def Decimal.magnitude (d : Decimal) : Nat :=
  Magnitude.nearest d.numerator d.denominator

/-- The double precision number nearest to the decimal. -/
def Decimal.toFloat (d : Decimal) : Float :=
  Float.ofBits (UInt64.ofNat d.magnitude)

/-- The natural number that a row of digits stands for in base ten. -/
def Decimal.natOfDigits (digits : List Char) : Nat :=
  digits.foldl (fun total digit => 10 * total + (digit.toNat - '0'.toNat)) 0

/-- The decimal whose whole part and fraction have the given digits. -/
def Decimal.ofDigits (whole fraction : List Char) : Decimal where
  coefficient := natOfDigits (whole ++ fraction)
  exponent := -(fraction.length : Int)

/-- The same number with no zero at the end of its coefficient. Zero itself
keeps its exponent. -/
def Decimal.trim (d : Decimal) : Decimal :=
  if h : d.coefficient ≠ 0 ∧ d.coefficient % 10 = 0 then
    trim ⟨d.coefficient / 10, d.exponent + 1⟩
  else d
termination_by d.coefficient
decreasing_by exact Nat.div_lt_self (Nat.pos_of_ne_zero h.1) (by decide)

end Calculator
