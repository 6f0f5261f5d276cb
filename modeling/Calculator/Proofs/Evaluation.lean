import Calculator.Proofs.PostorderText

/-!
# Evaluation with two stacks

A tree is evaluated by a walk that keeps its pending steps in a list, and by a
machine that keeps its operands in another. At every point of the walk the items
still to come are those of the pending steps, and the operands are there that
these items need. So the machine finds two operands for every operator, ends with
one value, and this is the meaning of the tree, whatever numbers and operators
mean.
-/

namespace Calculator

/-! ## The turns of a walk -/

/-- What one turn of a walk puts out. -/
def Step.output : Step → List Item
  | .visit (.leaf value) => [.number value]
  | .visit (.node ..) => []
  | .emit op => [.operator op]

/-- The steps that one turn of a walk leaves in place of its own. -/
def Step.following : Step → List Step
  | .visit (.leaf _) => []
  | .visit (.node op left right) => [.visit left, .visit right, .emit op]
  | .emit _ => []

/-- The items of pending steps are put out by the next turn and by the steps that
are pending behind it. -/
theorem flatMap_items_cons (step : Step) (rest : List Step) :
    (step :: rest).flatMap Step.items =
      step.output ++ (step.following ++ rest).flatMap Step.items := by
  cases step with
  | visit tree =>
    cases tree with
    | leaf value => rfl
    | node op left right => simp [Step.items, Tree.items, Step.output, Step.following]
  | emit op => rfl

/-- A walk takes its pending steps in turn. -/
theorem walk_cons (done : Array Item) (step : Step) (rest : List Step) :
    walk done (step :: rest) = walk (done ++ step.output.toArray) (step.following ++ rest) := by
  cases step with
  | visit tree =>
    cases tree with
    | leaf value => rw [walk]; rfl
    | node op left right => rw [walk]; simp [Step.output, Step.following]
  | emit op => rw [walk]; rfl

/-- In some turns, a walk with the first pending steps puts out the items and
comes to the second pending steps. -/
inductive Walks : List Step → List Item → List Step → Prop
  /-- Before its first turn, a walk has put out nothing. -/
  | start (pending : List Step) : Walks pending [] pending
  /-- The first pending step is replaced by those that follow from it. -/
  | turn {step : Step} {rest pending : List Step} {output : List Item} :
      Walks (step.following ++ rest) output pending →
      Walks (step :: rest) (step.output ++ output) pending

namespace Walks

variable {pending pending' : List Step} {output : List Item}

/-- The items that were put out and the pending steps are all that the rest of a
walk depends on. -/
theorem walk_eq (h : Walks pending output pending') (done : Array Item) :
    walk done pending = walk (done ++ output.toArray) pending' := by
  induction h generalizing done with
  | start pending => simp
  | turn _ ih => rw [walk_cons, ih]; simp

/-- What was put out and what the pending steps still put out are the items of
the steps at the beginning. -/
theorem items_eq (h : Walks pending output pending') :
    pending.flatMap Step.items = output ++ pending'.flatMap Step.items := by
  induction h with
  | start pending => rfl
  | turn _ ih => rw [flatMap_items_cons, ih, List.append_assoc]

/-- A walk comes to its end. -/
theorem to_end (pending : List Step) : Walks pending (pending.flatMap Step.items) [] := by
  have hturn {step : Step} {rest : List Step}
      (h : Walks (step.following ++ rest) ((step.following ++ rest).flatMap Step.items) []) :
      Walks (step :: rest) ((step :: rest).flatMap Step.items) [] := by
    rw [flatMap_items_cons]
    exact .turn h
  fun_induction walk #[] pending with
  | case1 done => exact .start []
  | case2 done value rest ih => exact hturn ih
  | case3 done op left right rest ih => exact hturn ih
  | case4 done op rest ih => exact hturn ih

end Walks

/-! ## The operands of the machine -/

namespace Interpretation

variable {α : Type} (meaning : Interpretation α)

/-- The machine processes items one part after the other. -/
theorem run?_append (items items' : List Item) (operands : List α) :
    meaning.run? (items ++ items') operands =
      (meaning.run? items operands).bind (meaning.run? items') := by
  induction items generalizing operands with
  | nil => rfl
  | cons item items ih =>
    rw [List.cons_append, run?, run?]
    cases meaning.step? item operands with
    | none => rfl
    | some operands' => exact ih operands'

/-- Whatever is on the stack, the items of a tree push its meaning. -/
theorem run?_postorder_onto (t : Tree) (operands : List α) :
    meaning.run? t.postorder operands = some (t.fold meaning :: operands) := by
  have hrun := meaning.run?_items_append t [] operands
  rwa [List.append_nil, ← t.postorder_eq_items] at hrun

/-- Only with two operands the machine goes on behind an operator. -/
theorem exists_operands_of_run? {before after : List Item} {op : Operator}
    {operands result : List α}
    (hrun : meaning.run? (before ++ .operator op :: after) operands = some result) :
    ∃ right left below, meaning.run? before operands = some (right :: left :: below) := by
  rw [run?_append] at hrun
  obtain ⟨found, hfound, hrest⟩ := Option.bind_eq_some_iff.mp hrun
  match found with
  | [] => cases hrest
  | [_] => cases hrest
  | right :: left :: below => exact ⟨right, left, below, hfound⟩

end Interpretation

/-! ## Evaluating a tree -/

/-- The items that a step puts out, a subtree being walked through on its own. -/
def Step.postorder : Step → List Item
  | .visit tree => tree.postorder
  | .emit op => [.operator op]

/-- A step puts out its items. -/
theorem Step.postorder_eq_items : Step.postorder = Step.items := by
  funext step
  cases step with
  | visit tree => exact tree.postorder_eq_items
  | emit op => rfl

/-- The value of a tree is its meaning in arithmetic, and the machine computes the
meaning of a tree for any interpretation. It finds two operands for every
operator and ends with exactly one value. At every point of the walk, the items
still to come are those of the pending steps one after the other, and with the
operands of that point they lead to this value. The items of a subtree push its
meaning on any stack. -/
theorem Tree.evaluate_denotes (t : Tree) :
    t.evaluate = t.fold arithmetic ∧
      ∀ {α : Type} (meaning : Interpretation α),
        meaning.result t = t.fold meaning ∧
        meaning.run? t.postorder [] = some [t.fold meaning] ∧
        (∀ {before after : List Item} {op : Operator},
          t.postorder = before ++ .operator op :: after →
          ∃ right left below, meaning.run? before [] = some (right :: left :: below)) ∧
        (∀ {output : List Item} {pending : List Step}, Walks [.visit t] output pending →
          walk #[] [.visit t] = walk output.toArray pending ∧
          (walk #[] pending).toList = pending.flatMap Step.postorder ∧
          t.postorder = output ++ pending.flatMap Step.postorder ∧
          ∃ operands, meaning.run? output [] = some operands ∧
            meaning.run? (pending.flatMap Step.postorder) operands = some [t.fold meaning]) ∧
        ∀ (subtree : Tree) (operands : List α),
          meaning.run? subtree.postorder operands = some (subtree.fold meaning :: operands) := by
  refine ⟨arithmetic.result_eq_fold t, fun meaning => ⟨meaning.result_eq_fold t,
    meaning.run?_postorder t, ?_, ?_, meaning.run?_postorder_onto⟩⟩
  · intro before after op hitems
    have hrun := meaning.run?_postorder t
    rw [hitems] at hrun
    exact meaning.exists_operands_of_run? hrun
  · intro output pending hwalks
    have hitems : t.postorder = output ++ pending.flatMap Step.postorder := by
      have hitems := hwalks.items_eq
      rw [List.flatMap_singleton] at hitems
      rw [t.postorder_eq_items, Step.postorder_eq_items]
      exact hitems
    have hrun := meaning.run?_postorder t
    rw [hitems, Interpretation.run?_append] at hrun
    refine ⟨by simpa using hwalks.walk_eq #[], ?_, hitems, Option.bind_eq_some_iff.mp hrun⟩
    rw [toList_walk, Step.postorder_eq_items]
    rfl

end Calculator
