import Calculator.Tree.Basic

/-!
# Dismantling

A tree is taken apart node by node. The inner nodes below a node are detached
and put on a list before the node itself is released, so a released node holds
nothing but leaves, however deep the tree was.
-/

namespace Calculator

/-- What stays in place of an operand once the inner nodes are detached. -/
def Tree.placeholder (child : Tree) : Tree :=
  if child.isLeaf then child else .leaf 0.0

/-- A tree without its inner operands, and these operands, the left one first. -/
def Tree.detach : Tree → Tree × List Tree
  | .leaf value => (.leaf value, [])
  | .node op left right =>
    (.node op left.placeholder right.placeholder, [left, right].filter fun child => !child.isLeaf)

/-- The detached operands of a tree, the right one first, are smaller than the
tree. -/
theorem Tree.totalSize_detach_lt (t : Tree) : totalSize t.detach.2.reverse < t.size := by
  cases t with
  | leaf value => exact Nat.one_pos
  | node op left right =>
    cases hleft : left.isLeaf <;> cases hright : right.isLeaf <;>
      simp only [detach, hleft, hright, List.filter, Bool.not_true, Bool.not_false, List.reverse_cons,
        List.reverse_nil, List.nil_append, List.cons_append, totalSize, size] <;>
      omega

/-- Releases the detached trees, the last one first, and detaches their
operands in turn. The trees released before are passed in reverse order. -/
def releaseAll (released : List Tree) : List Tree → List Tree
  | [] => released.reverse
  | t :: rest => releaseAll (t.detach.1 :: released) (t.detach.2.reverse ++ rest)
termination_by detached => totalSize detached
decreasing_by
  have h := t.totalSize_detach_lt
  rw [totalSize_append, totalSize]
  omega

/-- The released nodes of a tree in the order of their release: those below the
root, and at last the root. -/
def Tree.dismantle (t : Tree) : List Tree :=
  releaseAll [] t.detach.2.reverse ++ [t.detach.1]

end Calculator
