import Calculator.Tree.Basic

/-!
# Depth

The depth of a tree is the number of edges on its longest path from the root to
a leaf. The search keeps the subtrees still to be seen in a list, each with the
level on which it stands.
-/

namespace Calculator

/-- The greatest level of a leaf or node in the pending subtrees, or `deepest`
if that is greater. -/
def deepestLevel (deepest : Nat) : List (Tree × Nat) → Nat
  | [] => deepest
  | (.leaf _, level) :: rest => deepestLevel (max deepest level) rest
  | (.node _ left right, level) :: rest =>
    deepestLevel (max deepest level) ((right, level + 1) :: (left, level + 1) :: rest)
termination_by pending => totalSize (pending.map Prod.fst)
decreasing_by
  · simp [totalSize, Tree.size]
  · simp only [List.map_cons, totalSize, Tree.size]
    omega

/-- The number of edges on the longest path from the root to a leaf. -/
def Tree.depth (t : Tree) : Nat :=
  deepestLevel 0 [(t, 0)]

end Calculator
