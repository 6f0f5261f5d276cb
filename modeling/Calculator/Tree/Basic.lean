import Calculator.Operator

/-!
# Expression trees

An expression is a number or an operator applied to two expressions.
Parentheses leave no mark in a tree; they only decide its shape.
-/

namespace Calculator

/-- A parsed arithmetic expression. -/
inductive Tree where
  /-- A number. -/
  | leaf (value : Float)
  /-- An operator and its two operands. -/
  | node (op : Operator) (left right : Tree)
  deriving DecidableEq

/-- Whether a tree is a single number. -/
def Tree.isLeaf : Tree → Bool
  | .leaf _ => true
  | .node .. => false

/-- The number of leaves and nodes of a tree. -/
def Tree.size : Tree → Nat
  | .leaf _ => 1
  | .node _ left right => left.size + right.size + 1

/-- Every tree has at least one leaf. -/
theorem Tree.size_pos (t : Tree) : 0 < t.size := by
  cases t with
  | leaf value => exact Nat.one_pos
  | node op left right => exact Nat.succ_pos _

/-- The number of leaves and nodes in a list of trees. -/
def totalSize : List Tree → Nat
  | [] => 0
  | t :: rest => t.size + totalSize rest

/-- The trees of two lists count together. -/
theorem totalSize_append (left right : List Tree) :
    totalSize (left ++ right) = totalSize left + totalSize right := by
  induction left with
  | nil => simp [totalSize]
  | cons t rest ih => simp [totalSize, ih, Nat.add_assoc]

end Calculator
