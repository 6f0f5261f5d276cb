/-!
# Arithmetic operators

The four binary operators, their symbols, how tightly they bind, and their
meaning on double precision numbers.
-/

namespace Calculator

/-- How tightly an operator binds. -/
inductive Precedence where
  /-- Sums and differences. -/
  | additive
  /-- Products and quotients, which bind tighter. -/
  | multiplicative
  deriving DecidableEq, Repr

/-- The four arithmetic operators. -/
inductive Operator where
  | add
  | subtract
  | multiply
  | divide
  deriving DecidableEq, Repr

/-- The precedence of an operator. -/
def Operator.precedence : Operator → Precedence
  | .add | .subtract => .additive
  | .multiply | .divide => .multiplicative

/-- The character that denotes an operator. -/
def Operator.symbol : Operator → Char
  | .add => '+'
  | .subtract => '-'
  | .multiply => '*'
  | .divide => '/'

/-- Applies an operator to two numbers. Division by zero is no exception: it
gives an infinity, or a value that is not a number. -/
def Operator.apply : Operator → Float → Float → Float
  | .add, left, right => left + right
  | .subtract, left, right => left - right
  | .multiply, left, right => left * right
  | .divide, left, right => left / right

end Calculator
