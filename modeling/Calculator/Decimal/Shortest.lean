import Calculator.Decimal.Basic

/-!
# The shortest decimal of a magnitude

Among all decimals that read back as a given magnitude, printing chooses one
with the fewest digits and of those the nearest. The search walks through the
decimal grids from coarse to fine: on each it tries the two neighbours of the
exact value, and the first grid on which one of them reads back is the answer.
-/

namespace Calculator

/-- The exact value of a finite magnitude as a decimal. A power of two with a
negative exponent is a power of five with the same power of ten. -/
def Magnitude.exact (pattern : Nat) : Decimal :=
  let scale := scale pattern
  if 1074 ≤ scale then ⟨significand pattern * Nat.pow 2 (scale - 1074), 0⟩
  else ⟨significand pattern * Nat.pow 5 (1074 - scale), -((1074 - scale : Nat) : Int)⟩

/-- Number of digits of a natural number in base ten; zero has one digit. -/
def Magnitude.digitCount (n : Nat) : Nat :=
  if h : n < 10 then 1 else digitCount (n / 10) + 1
termination_by n
decreasing_by exact Nat.div_lt_self (by omega) (by decide)

/-- The better of the two neighbours of `value` on the grid that drops its
last `dropped` digits, if one of them reads back as `pattern`. When both do,
the nearer one is chosen, and a value halfway between them goes up. -/
def Magnitude.neighbour? (pattern : Nat) (value : Decimal) (dropped : Nat) : Option Decimal :=
  let step := Nat.pow 10 dropped
  let below : Decimal := ⟨value.coefficient / step, value.exponent + dropped⟩
  let above : Decimal := ⟨value.coefficient / step + 1, value.exponent + dropped⟩
  if below.magnitude = pattern then
    if above.magnitude = pattern ∧ step ≤ 2 * (value.coefficient % step) then some above
    else some below
  else if above.magnitude = pattern then some above
  else none

/-- The first hit on a grid that drops at most `dropped` digits of `value`,
coarser grids being tried first. The finest grid has `value` itself. -/
def Magnitude.firstHit (pattern : Nat) (value : Decimal) : Nat → Decimal
  | 0 => value
  | dropped + 1 => (neighbour? pattern value (dropped + 1)).getD (firstHit pattern value dropped)

/-- The shortest decimal that reads back as a finite magnitude, and the
nearest to it of that length. -/
def Magnitude.shortest (pattern : Nat) : Decimal :=
  if pattern = 0 then ⟨0, 0⟩
  else
    let value := exact pattern
    (firstHit pattern value (digitCount value.coefficient - 1)).trim

end Calculator
