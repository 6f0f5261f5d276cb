import Calculator.Tree.Basic

/-!
# Postorder

The items of a tree in postorder: both operands, the left one first, and then
the operator. Sums of many terms give trees as deep as they are long, so the
walk keeps its pending steps in a list and never recurses into a tree.
-/

namespace Calculator

/-- One element of a tree's postorder sequence. -/
inductive Item where
  /-- The number of a leaf. -/
  | number (value : Float)
  /-- The operator of a node. -/
  | operator (op : Operator)
  deriving DecidableEq

/-- The items of a tree in postorder. -/
def Tree.items : Tree → List Item
  | .leaf value => [.number value]
  | .node op left right => left.items ++ right.items ++ [.operator op]

/-- What a walk has still to do. -/
inductive Step where
  /-- Walk through a tree. -/
  | visit (tree : Tree)
  /-- Put out an operator whose operands are done. -/
  | emit (op : Operator)
  deriving DecidableEq

/-- The items that a step puts out. -/
def Step.items : Step → List Item
  | .visit tree => tree.items
  | .emit op => [.operator op]

/-- An upper bound for the number of steps that follow from one. -/
def Step.weight : Step → Nat
  | .visit tree => 2 * tree.size
  | .emit _ => 1

/-- An upper bound for the number of steps that follow from several. -/
def totalWeight : List Step → Nat
  | [] => 0
  | step :: rest => step.weight + totalWeight rest

/-- Takes the pending steps in turn and appends their items to those done. -/
def walk (done : Array Item) : List Step → Array Item
  | [] => done
  | .visit (.leaf value) :: rest => walk (done.push (.number value)) rest
  | .visit (.node op left right) :: rest =>
    walk done (.visit left :: .visit right :: .emit op :: rest)
  | .emit op :: rest => walk (done.push (.operator op)) rest
termination_by pending => totalWeight pending
decreasing_by
  · simp [totalWeight, Step.weight, Tree.size]
  · simp only [totalWeight, Step.weight, Tree.size]
    omega
  · simp [totalWeight, Step.weight]

/-- The items of a tree in postorder, found without recursion into the tree. -/
def Tree.postorder (t : Tree) : List Item :=
  (walk #[] [.visit t]).toList

/-- A walk puts out the items of its pending steps one after the other. -/
theorem toList_walk (done : Array Item) (pending : List Step) :
    (walk done pending).toList = done.toList ++ pending.flatMap Step.items := by
  fun_induction walk done pending with
  | case1 done => simp
  | case2 done value rest ih => simp [ih, Step.items, Tree.items]
  | case3 done op left right rest ih => simp [ih, Step.items, Tree.items]
  | case4 done op rest ih => simp [ih, Step.items]

/-- The walk through a tree finds its items. -/
theorem Tree.postorder_eq_items (t : Tree) : t.postorder = t.items := by
  simp [postorder, toList_walk, Step.items]

end Calculator
