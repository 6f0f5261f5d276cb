import Calculator.Parse
import Calculator.Proofs.ReadBack

/-!
# Rendered trees can be rebuilt

The text of a rendered tree is a row of words between single spaces. Reading the
words and running the stack machine over them builds the tree again, so the text
determines the tree. The same run with numbers in place of trees computes the
value of the tree from its text.
-/

namespace Calculator

/-! ## Reading words -/

/-- The item that a word stands for: an operator, or else a number. -/
def Item.ofWord? : List Char → Option Item
  | ['+'] => some (.operator .add)
  | ['-'] => some (.operator .subtract)
  | ['*'] => some (.operator .multiply)
  | ['/'] => some (.operator .divide)
  | word => (Number.read? word).map .number

/-- Trees as the meaning of numbers and operators. -/
def building : Interpretation Tree := ⟨.leaf, .node⟩

/-- Runs the stack machine over the words of a text. There is no result if a word
is no item, or if an operator lacks an operand. -/
def Interpretation.runText? {α : Type} (meaning : Interpretation α) (text : String) :
    Option (List α) :=
  ((text.toList.splitOn ' ').mapM Item.ofWord?).bind fun items => meaning.run? items []

/-! ## The words of a rendered tree -/

/-- No space stands in the text of a number. -/
theorem Number.space_notMem_spelled (value : Float) : ' ' ∉ spelled Decimal.pointed value := by
  by_cases hnumber : pattern value ≤ Magnitude.infinity
  · have hmagnitude : ' ' ∉ magnitudeText (pattern value) := by
      by_cases hinfinite : pattern value = Magnitude.infinity
      · rw [magnitudeText, if_pos hinfinite]
        decide
      · obtain ⟨literal, hproper, _, hchars, _⟩ :=
          exists_literal (lt_of_le_of_ne hnumber hinfinite)
        rw [← hchars]
        intro hspace
        rcases hproper.of_mem_chars hspace with hdigit | hpoint
        · cases hdigit
        · cases hpoint
    rw [spelled_eq_magnitudeText hnumber]
    split_ifs
    · simpa using hmagnitude
    · exact hmagnitude
  · have hnan : value = Float.nan := eq_nan_iff_pattern.mpr (Nat.not_le.mp hnumber)
    subst hnan
    decide

/-- No space stands in the text of an item. -/
theorem Item.space_notMem_chars (item : Item) : ' ' ∉ item.chars := by
  cases item with
  | number value => exact Number.space_notMem_spelled value
  | operator op => cases op <;> decide

/-- Every item is read back from its text. -/
theorem Item.ofWord?_chars (item : Item) : ofWord? item.chars = some item := by
  cases item with
  | number value =>
    have hread := Number.read?_spelled value
    change ofWord? (Number.spelled Decimal.pointed value) = some (.number value)
    generalize Number.spelled Decimal.pointed value = word at hread ⊢
    -- The word of an operator spells no number.
    unfold ofWord?
    split
    · cases hread
    · cases hread
    · cases hread
    · cases hread
    · rw [hread, Option.map_some]
  | operator op => cases op <;> rfl

/-- A row of items is read back from its words. -/
theorem mapM_ofWord?_chars (items : List Item) :
    (items.map Item.chars).mapM Item.ofWord? = some items := by
  induction items with
  | nil => rfl
  | cons item items ih => simp [ih, Item.ofWord?_chars]

/-- A tree has at least one item. -/
theorem Tree.items_ne_nil (t : Tree) : t.items ≠ [] := by
  cases t <;> simp [items]

/-- The words of a rendered tree are the texts of its items. -/
theorem Tree.words_render (t : Tree) :
    t.render.toList.splitOn ' ' = t.items.map Item.chars := by
  have hspace : ∀ word ∈ t.items.map Item.chars, ' ' ∉ word := by
    intro word hword
    obtain ⟨item, _, rfl⟩ := List.mem_map.mp hword
    exact item.space_notMem_chars
  have hne : t.items.map Item.chars ≠ [] := by
    simpa using t.items_ne_nil
  rw [render, String.toList_ofList, t.postorder_eq_items, List.splitOn_intercalate ' ' hspace hne]

/-- The words of a rendered tree are read as its items. -/
theorem Tree.mapM_words_render (t : Tree) :
    (t.render.toList.splitOn ' ').mapM Item.ofWord? = some t.items := by
  rw [t.words_render, mapM_ofWord?_chars]

/-! ## Running over the text -/

/-- The machine computes the meaning of a tree. -/
theorem Interpretation.result_eq_fold {α : Type} (meaning : Interpretation α) (t : Tree) :
    meaning.result t = t.fold meaning := by
  have hrun := meaning.run?_postorder t
  unfold result
  split <;> simp_all

/-- Running over the text of a tree leaves exactly its meaning. -/
theorem Interpretation.runText?_render {α : Type} (meaning : Interpretation α) (t : Tree) :
    meaning.runText? t.render = some [t.fold meaning] := by
  rw [runText?, t.mapM_words_render, Option.bind_some, ← t.postorder_eq_items,
    meaning.run?_postorder]

/-- Building a tree from its own numbers and operators gives the tree. -/
theorem Tree.fold_building (t : Tree) : t.fold building = t := by
  induction t with
  | leaf value => rfl
  | node op left right ihleft ihright => rw [fold, ihleft, ihright]; rfl

/-- Trees with the same text are the same. -/
theorem Tree.eq_of_render_eq {a b : Tree} (hrender : a.render = b.render) : a = b := by
  have hbuilt := building.runText?_render a
  rw [hrender, building.runText?_render b, fold_building, fold_building] at hbuilt
  exact (List.cons.inj (Option.some.inj hbuilt)).1.symm

/-- The rendered text of a tree is read without lacking a word or an operand. It
builds exactly the tree, so no other tree has this text, and it has the value of
the tree. -/
theorem Tree.render_rebuilds (t : Tree) :
    building.runText? t.render = some [t] ∧
      (∀ other : Tree, other.render = t.render → other = t) ∧
      arithmetic.runText? t.render = some [t.evaluate] := by
  refine ⟨?_, fun _ => eq_of_render_eq, ?_⟩
  · rw [building.runText?_render, fold_building]
  · rw [arithmetic.runText?_render, evaluate, arithmetic.result_eq_fold]

end Calculator
