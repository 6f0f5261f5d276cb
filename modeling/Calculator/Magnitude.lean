/-!
# Magnitudes of double precision numbers

A nonnegative double is named here by its bit pattern, a natural number that
grows with the value. Every finite magnitude is a whole number of quanta of
`2 ^ -1074`, the least positive double, so that comparing and rounding
magnitudes is arithmetic on natural numbers.
-/

namespace Calculator

/-- The quotient `num / den` as the nearest natural number; a half goes to the
even neighbour. -/
def roundHalfEven (num den : Nat) : Nat :=
  let quotient := num / den
  let remainder := num % den
  if 2 * remainder < den then quotient
  else if den < 2 * remainder then quotient + 1
  else quotient + quotient % 2

/-- The number of magnitudes in a binade, which is `2 ^ 52`. -/
def Magnitude.binade : Nat := 0x10000000000000

/-- The pattern of infinity, the first one that is not a finite magnitude. -/
def Magnitude.infinity : Nat := 2047 * binade

/-- The integral significand. The first binade has the subnormal magnitudes,
which lack the leading bit. -/
def Magnitude.significand (pattern : Nat) : Nat :=
  if pattern < binade then pattern else binade + pattern % binade

/-- The number of doublings from one quantum to the spacing at a pattern. -/
def Magnitude.scale (pattern : Nat) : Nat :=
  pattern / binade - 1

/-- The value of a finite magnitude, counted in quanta of `2 ^ -1074`. -/
def Magnitude.quanta (pattern : Nat) : Nat :=
  significand pattern * Nat.pow 2 (scale pattern)

/-- The magnitude nearest to `num / den`, ties going to the even significand
and everything too large to infinity.

The quotient is first measured in quanta. All but its leading 53 bits are
rounded off, and since patterns follow the values, `shift` binades below the
rounded significand give the pattern, also when rounding carries into the next
binade. -/
def Magnitude.nearest (num den : Nat) : Nat :=
  let scaled := num * Nat.pow 2 1074
  let shift := Nat.log2 (scaled / den) + 1 - 53
  min infinity (shift * binade + roundHalfEven scaled (den * Nat.pow 2 shift))

end Calculator
