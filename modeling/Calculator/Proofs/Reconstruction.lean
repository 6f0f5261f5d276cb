import Calculator.Proofs.Evaluation
import Calculator.Proofs.Leaves

/-!
# Trees and their items

Which rows of items are those of a tree can be told by counting operands: a
number is one more, and an operator makes one of two. If two operands are there
in front of every operator and one at the end, the stack machine builds a tree
from the items, and it is the only tree that has them.
-/

namespace Calculator

/-! ## Counting operands -/

/-- What an item adds to the number of operands. -/
def Item.weight : Item → Int
  | .number _ => 1
  | .operator _ => -1

/-- The number of operands behind some items. -/
def operandCount (items : List Item) : Int := (items.map Item.weight).sum

/-- An item in front of others counts first. -/
theorem operandCount_cons (item : Item) (items : List Item) :
    operandCount (item :: items) = item.weight + operandCount items := by
  rw [operandCount, List.map_cons, List.sum_cons, operandCount]

/-- In front of every operator there are two operands, if `count` are there at
the beginning. -/
def Supplied (count : Int) (items : List Item) : Prop :=
  ∀ ⦃before after : List Item⦄ ⦃op : Operator⦄, items = before ++ .operator op :: after →
    2 ≤ count + operandCount before

/-- In front of every operator there are two operands, and at the end there is
one. -/
structure Balanced (items : List Item) : Prop where
  /-- Every operator has two operands in front of it. -/
  supplied : ∀ ⦃before after : List Item⦄ ⦃op : Operator⦄, items = before ++ .operator op :: after →
    2 ≤ operandCount before
  /-- One operand is left. -/
  single : operandCount items = 1

/-- Items are supplied if the first one is, and if the others are with what it
leaves. -/
theorem supplied_cons {count : Int} {item : Item} {items : List Item} :
    Supplied count (item :: items) ↔
      (∀ op, item = .operator op → 2 ≤ count) ∧ Supplied (count + item.weight) items := by
  constructor
  · intro h
    refine ⟨?_, ?_⟩
    · rintro op rfl
      simpa [operandCount] using h (List.nil_append _).symm
    · intro before after op hitems
      have hsplit : item :: items = item :: before ++ .operator op :: after := by
        rw [hitems, List.cons_append]
      have hcount := h hsplit
      rw [operandCount_cons] at hcount
      omega
  · rintro ⟨hfirst, hrest⟩ before after op hitems
    cases before with
    | nil =>
      obtain ⟨hitem, _⟩ := List.cons.inj hitems
      simpa [operandCount] using hfirst op hitem
    | cons item' before =>
      obtain ⟨rfl, hbehind⟩ := List.cons.inj hitems
      have hcount := hrest hbehind
      rw [operandCount_cons]
      omega

namespace Interpretation

variable {α : Type} (meaning : Interpretation α)

/-- One item changes the number of operands by its weight. -/
theorem length_of_step? {item : Item} {operands operands' : List α}
    (hstep : meaning.step? item operands = some operands') :
    (operands'.length : Int) = operands.length + item.weight := by
  unfold step? at hstep
  split at hstep
  · cases hstep
    simp [Item.weight]
  · cases hstep
    simp only [Item.weight, List.length_cons]
    omega
  · cases hstep

/-- The machine processes an item unless it is an operator without two
operands. -/
theorem exists_step?_iff (item : Item) (operands : List α) :
    (∃ operands', meaning.step? item operands = some operands') ↔
      ∀ op, item = .operator op → 2 ≤ (operands.length : Int) := by
  cases item with
  | number value => simp [step?]
  | operator op =>
    match operands with
    | [] => simp [step?]
    | [_] => simp [step?]
    | _ :: _ :: below => simp [step?]; omega

/-- Items change the number of operands by their count. -/
theorem length_of_run? {items : List Item} {operands operands' : List α}
    (hrun : meaning.run? items operands = some operands') :
    (operands'.length : Int) = operands.length + operandCount items := by
  induction items generalizing operands with
  | nil =>
    cases hrun
    simp [operandCount]
  | cons item items ih =>
    rw [run?] at hrun
    cases hstep : meaning.step? item operands with
    | none => simp [hstep] at hrun
    | some operands₁ =>
      simp only [hstep] at hrun
      have hfirst := meaning.length_of_step? hstep
      have hrest := ih hrun
      rw [operandCount_cons]
      omega

/-- The machine processes exactly the items that are supplied with operands. -/
theorem exists_run?_iff (items : List Item) (operands : List α) :
    (∃ operands', meaning.run? items operands = some operands') ↔
      Supplied operands.length items := by
  induction items generalizing operands with
  | nil => simp [run?, Supplied]
  | cons item items ih =>
    rw [supplied_cons, ← meaning.exists_step?_iff item operands, run?]
    cases hstep : meaning.step? item operands with
    | none => simp
    | some operands₁ =>
      rw [← meaning.length_of_step? hstep, ← ih operands₁]
      simp

/-- The machine makes exactly one value of items if and only if they are
balanced. -/
theorem exists_run?_single_iff (items : List Item) :
    (∃ value, meaning.run? items [] = some [value]) ↔ Balanced items := by
  constructor
  · rintro ⟨value, hrun⟩
    have hsupplied := (meaning.exists_run?_iff items []).mp ⟨_, hrun⟩
    have hlength := meaning.length_of_run? hrun
    simp only [Supplied, List.length_nil, List.length_singleton, Nat.cast_zero, Nat.cast_one,
      zero_add] at hsupplied hlength
    exact ⟨hsupplied, hlength.symm⟩
  · rintro ⟨hsupplied, hsingle⟩
    obtain ⟨operands, hrun⟩ := (meaning.exists_run?_iff items []).mpr
      (by simpa [Supplied] using hsupplied)
    have hlength := meaning.length_of_run? hrun
    have hone : operands.length = 1 := by
      rw [List.length_nil] at hlength
      omega
    obtain ⟨value, rfl⟩ := List.length_eq_one_iff.mp hone
    exact ⟨value, hrun⟩

end Interpretation

/-! ## Building a tree -/

/-- Building trees keeps the items: those of the trees on the stack, from bottom
to top, are all that was processed. -/
theorem items_of_run?_building {items : List Item} {trees trees' : List Tree}
    (hrun : building.run? items trees = some trees') :
    trees'.reverse.flatMap Tree.items = trees.reverse.flatMap Tree.items ++ items := by
  induction items generalizing trees with
  | nil =>
    cases hrun
    rw [List.append_nil]
  | cons item items ih =>
    rw [Interpretation.run?] at hrun
    cases hstep : building.step? item trees with
    | none => simp [hstep] at hrun
    | some trees₁ =>
      simp only [hstep] at hrun
      have hfirst : trees₁.reverse.flatMap Tree.items =
          trees.reverse.flatMap Tree.items ++ [item] := by
        unfold Interpretation.step? at hstep
        split at hstep
        · cases hstep
          simp [building, Tree.items]
        · cases hstep
          simp [building, Tree.items]
        · cases hstep
      rw [ih hrun, hfirst, List.append_assoc, List.singleton_append]

/-- A tree has the items exactly if it is what they build. -/
theorem Tree.postorder_eq_iff {t : Tree} {items : List Item} :
    t.postorder = items ↔ building.run? items [] = some [t] := by
  constructor
  · rintro rfl
    rw [building.run?_postorder, t.fold_building]
  · intro hrun
    have hitems := items_of_run?_building hrun
    rw [t.postorder_eq_items]
    simpa using hitems

/-! ## Where the items of a tree stand -/

/-- The number of an item, if it is one. -/
def Item.number? : Item → Option Float
  | .number value => some value
  | .operator _ => none

/-- The numbers among the items of a tree are its leaves, from left to right. -/
theorem Tree.filterMap_number?_items (t : Tree) : t.items.filterMap Item.number? = t.leaves := by
  induction t with
  | leaf value => rfl
  | node op left right ihleft ihright =>
    simp [items, leaves, ihleft, ihright, Item.number?]

/-- There is one operator less than there are leaves. -/
theorem Tree.length_items (t : Tree) : t.items.length + 1 = 2 * t.leaves.length := by
  induction t with
  | leaf value => rfl
  | node op left right ihleft ihright =>
    simp only [items, leaves, List.length_append, List.length_singleton]
    omega

/-- In the tree stands the part, with the items `before` in front of its own and
the items `after` behind them. -/
inductive Tree.Holds : Tree → List Item → Tree → List Item → Prop
  /-- A tree stands in itself with nothing around it. -/
  | whole (t : Tree) : Holds t [] t []
  /-- Behind a part of the left operand stand the right operand and the operator. -/
  | left {op : Operator} {left right part : Tree} {before after : List Item} :
      Holds left before part after →
      Holds (.node op left right) before part (after ++ right.postorder ++ [.operator op])
  /-- A part of the right operand stands between the left one and the operator. -/
  | right {op : Operator} {left right part : Tree} {before after : List Item} :
      Holds right before part after →
      Holds (.node op left right) (left.postorder ++ before) part (after ++ [.operator op])

/-- The walk through a node puts out its operands and then its operator. -/
theorem Tree.postorder_node (op : Operator) (left right : Tree) :
    (node op left right).postorder = left.postorder ++ right.postorder ++ [.operator op] := by
  simp only [postorder_eq_items, items]

/-- The items of a part are put out together, between those around it. -/
theorem Tree.Holds.postorder_eq {t part : Tree} {before after : List Item}
    (h : t.Holds before part after) : t.postorder = before ++ part.postorder ++ after := by
  induction h with
  | whole t => simp
  | left _ ih => rw [Tree.postorder_node, ih]; simp only [List.append_assoc]
  | right _ ih => rw [Tree.postorder_node, ih]; simp only [List.append_assoc]

/-- An entry of two joined rows stands in the first or in the second of them. -/
theorem first_or_second_of_append_eq {α : Type} {first second before after : List α} {entry : α}
    (hrow : first ++ second = before ++ entry :: after) :
    (∃ rest, first = before ++ entry :: rest ∧ after = rest ++ second) ∨
      ∃ front, before = first ++ front ∧ second = front ++ entry :: after := by
  rcases List.append_eq_append_iff.mp hrow with hsecond | ⟨middle, hfirst, hrest⟩
  · exact Or.inr hsecond
  · cases middle with
    | nil => exact Or.inr ⟨[], by simpa using hfirst.symm, by simpa using hrest.symm⟩
    | cons entry' rest =>
      obtain ⟨rfl, hafter⟩ := List.cons.inj hrest
      exact Or.inl ⟨rest, hfirst, hafter⟩

/-- Every operator among the items of a tree belongs to a node of the tree, and
the operands of this node end directly in front of it. -/
theorem Tree.exists_holds_of_operator {t : Tree} {before after : List Item} {op : Operator}
    (hitems : t.postorder = before ++ .operator op :: after) :
    ∃ start left right, t.Holds start (.node op left right) after ∧
      before = start ++ left.postorder ++ right.postorder := by
  induction t generalizing before after with
  | leaf value =>
    have hmem : .operator op ∈ [Item.number value] := by
      rw [← items, ← postorder_eq_items, hitems]
      simp
    simp at hmem
  | node op' left right ihleft ihright =>
    rw [postorder_node, List.append_assoc] at hitems
    rcases first_or_second_of_append_eq hitems with ⟨rest, hleft, rfl⟩ | ⟨front, rfl, hbehind⟩
    · obtain ⟨start, left', right', hholds, rfl⟩ := ihleft hleft
      exact ⟨start, left', right', by simpa using hholds.left, rfl⟩
    · rcases first_or_second_of_append_eq hbehind with ⟨rest, hright, rfl⟩ | ⟨front', rfl, hlast⟩
      · obtain ⟨start, left', right', hholds, rfl⟩ := ihright hright
        exact ⟨left.postorder ++ start, left', right', hholds.right, by simp⟩
      · -- Behind both operands only the operator of the node itself is left.
        cases front' with
        | nil =>
          cases hlast
          exact ⟨[], left, right, .whole _, by simp⟩
        | cons item rest => simp at hlast

/-- Items are those of a tree exactly if they are balanced, and of one tree only.
The walk through the tree comes to its end with these items: one less than twice
the number of leaves, the leaves among them from left to right, and each operator
directly behind the last item of its right operand. -/
theorem exists_postorder_iff_balanced (items : List Item) :
    ((∃ t : Tree, t.postorder = items) ↔ Balanced items) ∧
      (∀ t t' : Tree, t.postorder = items → t'.postorder = items → t = t') ∧
      ∀ t : Tree, t.postorder = items →
        Walks [.visit t] items [] ∧
        items.length + 1 = 2 * t.leaves.length ∧
        items.filterMap Item.number? = t.leaves ∧
        (∀ {before after : List Item} {op : Operator}, items = before ++ .operator op :: after →
          ∃ start left right, t.Holds start (.node op left right) after ∧
            before = start ++ left.postorder ++ right.postorder) ∧
        ∀ {start after : List Item} {op : Operator} {left right : Tree},
          t.Holds start (.node op left right) after →
          items = start ++ left.postorder ++ right.postorder ++ .operator op :: after := by
  refine ⟨?_, ?_, ?_⟩
  · simp only [Tree.postorder_eq_iff]
    exact building.exists_run?_single_iff items
  · intro t t' h h'
    rw [Tree.postorder_eq_iff] at h h'
    simpa [h] using h'
  · rintro t rfl
    refine ⟨?_, ?_, ?_, Tree.exists_holds_of_operator, ?_⟩
    · have hend := Walks.to_end [.visit t]
      rwa [List.flatMap_singleton, ← Step.postorder_eq_items] at hend
    · rw [t.postorder_eq_items, t.length_items]
    · rw [t.postorder_eq_items, t.filterMap_number?_items]
    · intro start after op left right hholds
      rw [hholds.postorder_eq, Tree.postorder_node]
      simp only [List.append_assoc, List.singleton_append]

end Calculator
