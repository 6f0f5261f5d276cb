import Calculator.Tree.Basic

/-!
# Equality of trees

Two trees are equal when they have the same shape, the same operators and equal
numbers. Numbers are compared as in arithmetic: zero equals negative zero, and a
value that is not a number equals nothing, not even itself. This relation
differs from identity on both accounts.
-/

namespace Calculator

/-- Whether the trees of every pending pair are equal. -/
def allEqual : List (Tree × Tree) → Bool
  | [] => true
  | (.leaf a, .leaf b) :: rest => if a == b then allEqual rest else false
  | (.node opA leftA rightA, .node opB leftB rightB) :: rest =>
    if opA = opB then allEqual ((leftA, leftB) :: (rightA, rightB) :: rest) else false
  | (.leaf _, .node ..) :: _ => false
  | (.node .., .leaf _) :: _ => false
termination_by pending => totalSize (pending.map Prod.fst)
decreasing_by
  · simp [totalSize, Tree.size]
  · simp only [List.map_cons, totalSize, Tree.size]
    omega

/-- Whether two trees agree in shape and operators and have equal numbers. -/
def Tree.equal (a b : Tree) : Bool :=
  allEqual [(a, b)]

end Calculator
