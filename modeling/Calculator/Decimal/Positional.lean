import Calculator.Decimal.Basic

/-!
# Positional text of decimals

Decimals are written with all their digits and never with an exponent. The two
spellings differ only for whole numbers: the plain one has no point, and the
pointed one has a fraction of `.0`.
-/

namespace Calculator

/-- The digits of a decimal in positional order. Zeros are put in front so that
at least one digit precedes the point, and a whole number has no point. -/
def Decimal.positional (d : Decimal) : List Char :=
  let digits := Nat.toDigits 10 d.coefficient
  if 0 ≤ d.exponent then digits ++ List.replicate d.exponent.toNat '0'
  else
    let places := (-d.exponent).toNat
    let padded := List.replicate (places + 1 - digits.length) '0' ++ digits
    padded.take (padded.length - places) ++ '.' :: padded.drop (padded.length - places)

/-- The digits of a decimal with a point in every case. -/
def Decimal.pointed (d : Decimal) : List Char :=
  if 0 ≤ d.exponent then d.positional ++ ['.', '0'] else d.positional

end Calculator
