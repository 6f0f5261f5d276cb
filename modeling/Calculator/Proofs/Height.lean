import Calculator.Proofs.Parsing
import Calculator.Proofs.Release
import Calculator.Tree.Depth
import Mathlib.Data.List.Induction
import Mathlib.Order.MinMax

/-!
# The depth of trees and of their texts

The depth of a tree is found by a search over pending subtrees, which keeps the
greatest level seen. At every point of the search, the depth is the greater of this
level and the lowest level to which a pending subtree reaches. So the depth is the
height of the tree.

The nodes of a parsed tree are the operators of its text, and no tree is higher than
it has nodes. Additions in a row come up to this bound. Parentheses that could be
left out change neither the tree nor its depth.
-/

namespace Calculator

/-! ## The turns of the search -/

/-- The subtrees that are pending in place of one: its operands, one level further
down, with the right one on top. -/
def nextLevel : Tree × ℕ → List (Tree × ℕ)
  | (.leaf _, _) => []
  | (.node _ left right, level) => [(right, level + 1), (left, level + 1)]

/-- In this many turns, the search comes from one greatest level and the subtrees
then pending to another greatest level and the subtrees pending there. -/
inductive Searches : ℕ → List (Tree × ℕ) → ℕ → ℕ → List (Tree × ℕ) → Prop
  /-- Before its first turn, the search is where it started. -/
  | start (greatest : ℕ) (pending : List (Tree × ℕ)) :
      Searches greatest pending 0 greatest pending
  /-- The subtree on top is taken off, its level is seen, and its operands are put in
  its place. -/
  | turn {greatest greatest' turns : ℕ} {part : Tree × ℕ} {rest pending : List (Tree × ℕ)} :
      Searches (max greatest part.2) (nextLevel part ++ rest) turns greatest' pending →
      Searches greatest (part :: rest) (turns + 1) greatest' pending

/-- One turn keeps what is to be found out. -/
theorem deepestLevel_cons (greatest : ℕ) (part : Tree × ℕ) (rest : List (Tree × ℕ)) :
    deepestLevel greatest (part :: rest) =
      deepestLevel (max greatest part.2) (nextLevel part ++ rest) := by
  obtain ⟨value | ⟨op, left, right⟩, level⟩ := part
  · rw [deepestLevel]
    rfl
  · rw [deepestLevel]
    rfl

/-- One turn takes a leaf or a node off the pending subtrees. -/
theorem totalSize_nextLevel (part : Tree × ℕ) :
    1 + totalSize ((nextLevel part).map Prod.fst) = part.1.size := by
  obtain ⟨value | ⟨op, left, right⟩, level⟩ := part
  · rfl
  · simp only [nextLevel, List.map_cons, List.map_nil, totalSize, Tree.size]
    omega

namespace Searches

variable {greatest greatest' turns : ℕ} {pending pending' : List (Tree × ℕ)}

/-- The turns keep what is to be found out. -/
theorem deepestLevel_eq (h : Searches greatest pending turns greatest' pending') :
    deepestLevel greatest pending = deepestLevel greatest' pending' := by
  induction h with
  | start => rfl
  | turn _ ih => rw [deepestLevel_cons, ih]

/-- The turns are counted by the leaves and nodes that were taken off. -/
theorem totalSize_eq (h : Searches greatest pending turns greatest' pending') :
    turns + totalSize (pending'.map Prod.fst) = totalSize (pending.map Prod.fst) := by
  induction h with
  | start => exact Nat.zero_add _
  | @turn _ _ _ part _ _ _ ih =>
    have hpart := totalSize_nextLevel part
    rw [List.map_append, totalSize_append] at ih
    rw [List.map_cons, totalSize]
    omega

/-- The search comes to its end and has then found the greatest level. -/
theorem to_end (greatest : ℕ) (pending : List (Tree × ℕ)) :
    Searches greatest pending (totalSize (pending.map Prod.fst))
      (deepestLevel greatest pending) [] := by
  induction hsize : totalSize (pending.map Prod.fst) generalizing greatest pending with
  | zero =>
    cases pending with
    | nil =>
      rw [deepestLevel]
      exact .start greatest []
    | cons part rest =>
      have hpos := part.1.size_pos
      rw [List.map_cons, totalSize] at hsize
      omega
  | succ size ih =>
    cases pending with
    | nil => cases hsize
    | cons part rest =>
      have hpart := totalSize_nextLevel part
      have hnext : totalSize ((nextLevel part ++ rest).map Prod.fst) = size := by
        rw [List.map_cons, totalSize] at hsize
        rw [List.map_append, totalSize_append]
        omega
      rw [deepestLevel_cons]
      exact .turn (ih _ _ hnext)

end Searches

/-! ## Depth and height -/

/-- The height of a tree, by recursion. -/
def Tree.height : Tree → ℕ
  | .leaf _ => 0
  | .node _ left right => 1 + max left.height right.height

/-- The lowest level to which one of the pending subtrees reaches. -/
def lowestLevel : List (Tree × ℕ) → ℕ
  | [] => 0
  | (t, level) :: rest => max (level + t.height) (lowestLevel rest)

/-- What the search finds is the greatest level seen, or the lowest to which a pending
subtree reaches. -/
theorem deepestLevel_eq (greatest : ℕ) (pending : List (Tree × ℕ)) :
    deepestLevel greatest pending = max greatest (lowestLevel pending) := by
  fun_induction deepestLevel greatest pending with
  | case1 greatest => simp [lowestLevel]
  | case2 greatest value level rest ih =>
    simp only [ih, lowestLevel, Tree.height]
    omega
  | case3 greatest op left right level rest ih =>
    have hoperands : level + (1 + max left.height right.height) =
        max (level + 1 + right.height) (level + 1 + left.height) := by omega
    simp only [ih, lowestLevel, Tree.height, hoperands]
    generalize hright : level + 1 + right.height = lowest
    have hlevel : level ≤ lowest := by omega
    rw [max_assoc greatest level, max_assoc lowest, ← max_assoc level, max_eq_right hlevel]

namespace Tree

/-- The search finds the height of the tree. -/
theorem depth_eq_height (t : Tree) : t.depth = t.height := by
  rw [depth, deepestLevel_eq]
  simp [lowestLevel]

/-- Every level but the last has a node. -/
theorem height_le_nodeCount (t : Tree) : t.height ≤ t.nodeCount := by
  induction t with
  | leaf value => exact Nat.le_refl 0
  | node op left right ihleft ihright =>
    rw [height, nodeCount]
    omega

end Tree

/-! ## Operators and nodes -/

/-- The number of operators among tokens. -/
def operatorCount (tokens : List Token) : ℕ := tokens.countP fun token => token.operator?.isSome

/-- The operators of two lists of tokens count together. -/
theorem operatorCount_append (left right : List Token) :
    operatorCount (left ++ right) = operatorCount left + operatorCount right :=
  List.countP_append

/-- A first token counts if it is an operator. -/
theorem operatorCount_cons (token : Token) (rest : List Token) :
    operatorCount (token :: rest) =
      operatorCount rest + if token.operator?.isSome = true then 1 else 0 :=
  List.countP_cons

/-- The nodes of a phrase's tree are the operators of the phrase. -/
theorem Derives.nodeCount_eq {category : Category} {tokens : List Token} {tree : Tree}
    (h : Derives category tokens tree) : tree.nodeCount = operatorCount tokens := by
  induction h with
  | single _ ih => exact ih
  | @joined p op left right leftTree rightTree _ _ _ ihleft ihright =>
    rw [Tree.nodeCount, ihleft, ihright, operatorCount_append, operatorCount_cons]
    exact Nat.add_assoc _ _ _
  | number value => rfl
  | @group tokens tree _ ih =>
    rw [ih, operatorCount_cons, operatorCount_append, operatorCount_cons]
    rfl

/-! ## Additions in a row -/

/-- The tokens of numbers that are added, without parentheses. -/
def additions (first : Float) (more : List Float) : List Token :=
  .number first :: more.flatMap fun value => [.operator .add, .number value]

/-- The tree of numbers that are added from the left. -/
def Tree.sum (first : Float) (more : List Float) : Tree :=
  more.foldl (fun left value => .node .add left (.leaf value)) (.leaf first)

/-- One more number is added last. -/
theorem Tree.sum_append_singleton (first : Float) (more : List Float) (value : Float) :
    Tree.sum first (more ++ [value]) = .node .add (.sum first more) (.leaf value) :=
  List.foldl_append

/-- Additions in a row denote the tree that adds from the left. -/
theorem derives_additions (first : Float) (more : List Float) :
    Derives .expression (additions first more) (.sum first more) := by
  induction more using List.reverseRecOn with
  | nil => exact .of_factor (.number first)
  | append_singleton more value ih =>
    have htokens : additions first (more ++ [value]) =
        additions first more ++ .operator .add :: [.number value] := by
      simp [additions]
    have hterm : Derives .term [.number value] (.leaf value) := .of_factor (.number value)
    rw [htokens, Tree.sum_append_singleton]
    exact .joined ih rfl hterm

/-- The tree of additions in a row is as high as it has operators. -/
theorem Tree.height_sum (first : Float) (more : List Float) :
    (Tree.sum first more).height = more.length := by
  induction more using List.reverseRecOn with
  | nil => rfl
  | append_singleton more value ih =>
    rw [sum_append_singleton, height, ih, height, List.length_append, List.length_singleton]
    omega

/-- Additions in a row open no group. -/
theorem nestingDepth_additions (first : Float) (more : List Float) :
    nestingDepth (additions first more) = 0 := by
  change deepest 0 (more.flatMap fun value => [.operator .add, .number value]) = 0
  induction more with
  | nil => rfl
  | cons value more ih => exact ih

/-! ## Parentheses that could be left out -/

/-- A complete phrase is an expression. -/
theorem Derives.toExpression {category : Category} {tokens : List Token} {tree : Tree}
    (h : Derives category tokens tree) : Derives .expression tokens tree := by
  cases category with
  | factor => exact .of_factor h
  | chain p =>
    cases p with
    | additive => exact h
    | multiplicative => exact .single h

/-- Parentheses around a phrase leave it in its category. -/
theorem Derives.enclosed {category : Category} {tokens : List Token} {tree : Tree}
    (h : Derives category tokens tree) :
    Derives category (.leftParen :: (tokens ++ [.rightParen])) tree := by
  have hgroup : Derives .factor (.leftParen :: (tokens ++ [.rightParen])) tree :=
    .group h.toExpression
  cases category with
  | factor => exact hgroup
  | chain p => exact .of_factor hgroup

/-- The second phrase is the first one with parentheses added around some of the
phrases that it is made of. -/
inductive AddsParentheses : Category → List Token → List Token → Prop
  /-- A single operand is a chain. -/
  | single {p : Precedence} {tokens tokens' : List Token} :
      AddsParentheses p.operands tokens tokens' → AddsParentheses (.chain p) tokens tokens'
  /-- Parentheses may be added on both sides of an operator. -/
  | joined {p : Precedence} {op : Operator} {left left' right right' : List Token} :
      AddsParentheses (.chain p) left left' → op.precedence = p →
      AddsParentheses p.operands right right' →
      AddsParentheses (.chain p) (left ++ .operator op :: right) (left' ++ .operator op :: right')
  /-- A number stays as it is. -/
  | number (value : Float) : AddsParentheses .factor [.number value] [.number value]
  /-- Parentheses may be added inside a group. -/
  | group {tokens tokens' : List Token} : AddsParentheses .expression tokens tokens' →
      AddsParentheses .factor (.leftParen :: (tokens ++ [.rightParen]))
        (.leftParen :: (tokens' ++ [.rightParen]))
  /-- Parentheses may be added around a whole phrase, any number of times. -/
  | around {category : Category} {tokens tokens' : List Token} :
      AddsParentheses category tokens tokens' →
      AddsParentheses category tokens (.leftParen :: (tokens' ++ [.rightParen]))

/-- Added parentheses leave the tree as it is. -/
theorem AddsParentheses.exists_tree {category : Category} {tokens tokens' : List Token}
    (h : AddsParentheses category tokens tokens') :
    ∃ tree, Derives category tokens tree ∧ Derives category tokens' tree := by
  induction h with
  | single _ ih =>
    obtain ⟨tree, hplain, hadded⟩ := ih
    exact ⟨tree, .single hplain, .single hadded⟩
  | @joined p op left left' right right' _ hprecedence _ ihleft ihright =>
    obtain ⟨leftTree, hleft, hleft'⟩ := ihleft
    obtain ⟨rightTree, hright, hright'⟩ := ihright
    exact ⟨.node op leftTree rightTree, .joined hleft hprecedence hright,
      .joined hleft' hprecedence hright'⟩
  | number value => exact ⟨.leaf value, .number value, .number value⟩
  | group _ ih =>
    obtain ⟨tree, hplain, hadded⟩ := ih
    exact ⟨tree, .group hplain, .group hadded⟩
  | around _ ih =>
    obtain ⟨tree, hplain, hadded⟩ := ih
    exact ⟨tree, hplain, hadded.enclosed⟩

/-! ## Parsed texts -/

section Texts

variable {settings settings' : Settings} {source source' : String} {tree : Tree}

/-- A parsed tree has a node for every operator of its text. -/
theorem Settings.nodeCount_of_parse (hparse : settings.parse source = .ok tree) :
    tree.nodeCount = operatorCount ((scan source).lexemes.map Lexeme.token) :=
  (derives_of_parse hparse).nodeCount_eq

/-- A text of additions in a row is parsed into the tree that adds from the left. -/
theorem Settings.parse_additions {first : Float} {more : List Float}
    (htokens : (scan source).lexemes.map Lexeme.token = additions first more)
    (hfault : (scan source).fault = none) : settings.parse source = .ok (.sum first more) := by
  have hscan : scan source = ⟨(scan source).lexemes, none, (scan source).size⟩ := by rw [← hfault]
  apply parse_of_derives hscan
  · rw [htokens]
    exact derives_additions first more
  · rw [htokens, nestingDepth_additions]
    exact Nat.zero_le _

/-- With parentheses added that the limit allows, a text is parsed into the same
tree. -/
theorem Settings.parse_added_parentheses (hparse : settings.parse source = .ok tree)
    (hadds : AddsParentheses .expression ((scan source).lexemes.map Lexeme.token)
      ((scan source').lexemes.map Lexeme.token))
    (hfault : (scan source').fault = none)
    (hdeep : nestingDepth ((scan source').lexemes.map Lexeme.token) ≤ settings'.limit) :
    settings'.parse source' = .ok tree := by
  obtain ⟨tree', hplain, hadded⟩ := hadds.exists_tree
  obtain rfl : tree' = tree := hplain.tree_unique (derives_of_parse hparse)
  have hscan : scan source' = ⟨(scan source').lexemes, none, (scan source').size⟩ := by
    rw [← hfault]
  exact parse_of_derives hscan hadded hdeep

end Texts

/-- The search for the depth of a tree takes one turn for each of its leaves and
nodes and then ends. The depth is the height: zero for a leaf, and one more than
that of the deeper operand for a node. A parsed tree has as many nodes as its text
has operators, and is no deeper than that; `n` additions in a row give the depth
`n`. Where parentheses are added around phrases of a text, the tree and so its depth
stay as they are. -/
theorem Tree.depth_is_height (t : Tree) :
    (Searches 0 [(t, 0)] t.size t.depth [] ∧
      ∀ {turns greatest pending}, Searches 0 [(t, 0)] turns greatest pending →
        turns + totalSize (pending.map Prod.fst) = t.size ∧
          t.depth = max greatest (lowestLevel pending)) ∧
    (∀ value, t = .leaf value → t.depth = 0) ∧
    (∀ op left right, t = .node op left right → t.depth = 1 + max left.depth right.depth) ∧
    (∀ (settings : Settings) source, settings.parse source = .ok t →
      t.nodeCount = operatorCount ((scan source).lexemes.map Lexeme.token) ∧
      t.depth ≤ operatorCount ((scan source).lexemes.map Lexeme.token)) ∧
    (∀ (settings : Settings) source first more,
      (scan source).lexemes.map Lexeme.token = additions first more →
      (scan source).fault = none →
      ∃ sum, settings.parse source = .ok sum ∧ sum.depth = more.length) ∧
    ∀ (settings settings' : Settings) source source', settings.parse source = .ok t →
      AddsParentheses .expression ((scan source).lexemes.map Lexeme.token)
        ((scan source').lexemes.map Lexeme.token) →
      (scan source').fault = none →
      nestingDepth ((scan source').lexemes.map Lexeme.token) ≤ settings'.limit →
      settings'.parse source' = .ok t := by
  have hsize : totalSize ([(t, 0)].map Prod.fst) = t.size := Nat.add_zero t.size
  refine ⟨⟨?_, ?_⟩, ?_, ?_, ?_, ?_, ?_⟩
  · rw [← hsize]
    exact Searches.to_end 0 [(t, 0)]
  · intro turns greatest pending hsearch
    refine ⟨hsearch.totalSize_eq.trans hsize, ?_⟩
    rw [depth, hsearch.deepestLevel_eq, Calculator.deepestLevel_eq]
  · rintro value rfl
    rw [depth_eq_height, height]
  · rintro op left right rfl
    rw [depth_eq_height, height, depth_eq_height, depth_eq_height]
  · intro settings source hparse
    have hcount := Settings.nodeCount_of_parse hparse
    refine ⟨hcount, ?_⟩
    rw [← hcount, depth_eq_height]
    exact t.height_le_nodeCount
  · intro settings source first more htokens hfault
    refine ⟨.sum first more, Settings.parse_additions htokens hfault, ?_⟩
    rw [depth_eq_height, height_sum]
  · intro settings settings' source source' hparse hadds hfault hdeep
    exact Settings.parse_added_parentheses hparse hadds hfault hdeep

end Calculator
