import Calculator.Number
import Calculator.Tree.Postorder

/-!
# Rendered trees

A tree is written as its items in postorder with single spaces between them.
This text needs no parentheses: the order alone fixes the shape.
-/

namespace Calculator

/-- The text of an item. -/
def Item.chars : Item → List Char
  | .number value => Number.spelled Decimal.pointed value
  | .operator op => [op.symbol]

/-- The items of a tree in postorder, separated by single spaces. -/
def Tree.render (t : Tree) : String :=
  String.ofList (List.intercalate [' '] (t.postorder.map Item.chars))

/-- A rendered tree marked as an expression. -/
def Tree.inspect (t : Tree) : String :=
  "Expr(" ++ t.render ++ ")"

/-- A rendered tree marked as an expression, on an indented line of its own. -/
def Tree.inspectIndented (t : Tree) : String :=
  "Expr(\n    " ++ t.render ++ ",\n)"

end Calculator
