import Calculator.Tree.Postorder

/-!
# Evaluation

A stack machine runs through the items of a tree: a number is pushed, and an
operator replaces the two topmost operands by its result. The machine works for
any interpretation of numbers and operators. On the items of a tree it never
lacks an operand and ends with a single value, so evaluating a tree cannot fail.
-/

namespace Calculator

/-- A meaning for the numbers and operators of a tree. -/
structure Interpretation (α : Type) where
  /-- The meaning of a number. -/
  number : Float → α
  /-- The meaning of an operator, given the left and the right operand. -/
  apply : Operator → α → α → α

/-- The meaning of a tree. -/
def Tree.fold {α : Type} (meaning : Interpretation α) : Tree → α
  | .leaf value => meaning.number value
  | .node op left right => meaning.apply op (left.fold meaning) (right.fold meaning)

/-- Processes one item on a stack of operands, the topmost first. An operator
needs two operands, the right one above the left one. -/
def Interpretation.step? {α : Type} (meaning : Interpretation α) (item : Item)
    (operands : List α) : Option (List α) :=
  match item, operands with
  | .number value, _ => some (meaning.number value :: operands)
  | .operator op, right :: left :: rest => some (meaning.apply op left right :: rest)
  | .operator _, _ => none

/-- Processes items from left to right, and stops at an operator that lacks an
operand. -/
def Interpretation.run? {α : Type} (meaning : Interpretation α) :
    List Item → List α → Option (List α)
  | [], operands => some operands
  | item :: rest, operands =>
    match meaning.step? item operands with
    | some operands => meaning.run? rest operands
    | none => none

/-- Running through the items of a tree pushes its meaning, whatever the stack
and whatever follows. -/
theorem Interpretation.run?_items_append {α : Type} (meaning : Interpretation α) (t : Tree)
    (rest : List Item) (operands : List α) :
    meaning.run? (t.items ++ rest) operands = meaning.run? rest (t.fold meaning :: operands) := by
  induction t generalizing rest operands with
  | leaf value => rfl
  | node op left right ihleft ihright =>
    simp only [Tree.items, List.append_assoc]
    rw [ihleft, ihright]
    rfl

/-- The machine turns the items of a tree into exactly one value. -/
theorem Interpretation.run?_postorder {α : Type} (meaning : Interpretation α) (t : Tree) :
    meaning.run? t.postorder [] = some [t.fold meaning] := by
  have h := meaning.run?_items_append t [] []
  rw [List.append_nil, ← t.postorder_eq_items] at h
  exact h

/-- The value that the machine computes from a tree. -/
def Interpretation.result {α : Type} (meaning : Interpretation α) (t : Tree) : α :=
  match h : meaning.run? t.postorder [] with
  | some [value] => value
  | none | some [] | some (_ :: _ :: _) => by simp [run?_postorder] at h

/-- Arithmetic on double precision numbers. -/
def arithmetic : Interpretation Float := ⟨id, Operator.apply⟩

/-- The value of a tree. -/
def Tree.evaluate (t : Tree) : Float :=
  arithmetic.result t

end Calculator
