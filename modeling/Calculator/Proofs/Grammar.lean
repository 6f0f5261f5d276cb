import Calculator.Token
import Calculator.Tree.Basic

/-!
# The grammar of expressions

The grammar says which lists of tokens are phrases, and which tree a phrase
denotes:

* an expression is terms joined by `+` and `-`;
* a term is factors joined by `*` and `/`;
* a factor is a number, or an expression between parentheses.

Both kinds of chains are folded to the left, and parentheses leave no node.
Nothing here refers to the way in which a text is read.
-/

namespace Calculator

/-- The categories of phrases. -/
inductive Category where
  /-- Operands joined by operators of one precedence. -/
  | chain (p : Precedence)
  /-- A number, or an expression between parentheses. -/
  | factor

/-- The category of sums and differences, and so of all expressions. -/
abbrev Category.expression : Category := .chain .additive

/-- The category of products and quotients. -/
abbrev Category.term : Category := .chain .multiplicative

/-- What the operators of a precedence join: terms in an expression, factors in
a term. -/
def Precedence.operands : Precedence → Category
  | .additive => .term
  | .multiplicative => .factor

/-- The tokens are a phrase of the category and denote the tree. -/
inductive Derives : Category → List Token → Tree → Prop
  /-- A single operand is a chain. -/
  | single {p : Precedence} {tokens : List Token} {tree : Tree} :
      Derives p.operands tokens tree → Derives (.chain p) tokens tree
  /-- A chain may be followed by an operator of its precedence and one more
  operand, and is the left operand of that operator. -/
  | joined {p : Precedence} {op : Operator} {left right : List Token} {leftTree rightTree : Tree} :
      Derives (.chain p) left leftTree → op.precedence = p → Derives p.operands right rightTree →
      Derives (.chain p) (left ++ .operator op :: right) (.node op leftTree rightTree)
  /-- A number is a factor. -/
  | number (value : Float) : Derives .factor [.number value] (.leaf value)
  /-- An expression between parentheses is a factor. -/
  | group {tokens : List Token} {tree : Tree} :
      Derives .expression tokens tree →
      Derives .factor (.leftParen :: (tokens ++ [.rightParen])) tree

/-- A factor alone is a chain of either precedence. -/
theorem Derives.of_factor {p : Precedence} {tokens : List Token} {tree : Tree}
    (h : Derives .factor tokens tree) : Derives (.chain p) tokens tree := by
  cases p with
  | multiplicative => exact .single h
  | additive =>
    have hterm : Derives .term tokens tree := .single h
    exact .single hterm

/-- The greatest number of groups that are open at once in a list of tokens,
when `opened` are open in front of it. -/
def deepest (opened : Nat) : List Token → Nat
  | [] => opened
  | .leftParen :: rest => deepest (opened + 1) rest
  | .rightParen :: rest => max opened (deepest (opened - 1) rest)
  | _ :: rest => deepest opened rest

/-- How deep the parentheses of a list of tokens nest. -/
def nestingDepth (tokens : List Token) : Nat := deepest 0 tokens

/-- The groups open in front count. -/
theorem le_deepest (opened : Nat) (tokens : List Token) : opened ≤ deepest opened tokens := by
  induction tokens generalizing opened with
  | nil => exact Nat.le_refl _
  | cons token rest ih =>
    have hsame := ih opened
    cases token with
    | leftParen =>
      have hmore := ih (opened + 1)
      simp only [deepest]
      omega
    | rightParen =>
      simp only [deepest]
      omega
    | number value => exact hsame
    | operator op => exact hsame
    | endOfInput => exact hsame

/-- A phrase closes the groups that it opens, so what follows it is as deep as
it would be without the phrase. -/
theorem Derives.deepest_append {category : Category} {tokens : List Token} {tree : Tree}
    (h : Derives category tokens tree) (opened : Nat) (rest : List Token) :
    deepest opened (tokens ++ rest) = max (deepest opened tokens) (deepest opened rest) := by
  induction h generalizing opened rest with
  | single _ ih => exact ih opened rest
  | @joined p op left right leftTree rightTree _ _ _ ihleft ihright =>
    have hop (tokens : List Token) :
        deepest opened (.operator op :: tokens) = deepest opened tokens := rfl
    rw [List.append_assoc, ihleft, List.cons_append, hop, ihright, ihleft, hop]
    omega
  | number value =>
    have hle := le_deepest opened rest
    simp only [List.cons_append, List.nil_append, deepest]
    omega
  | @group tokens tree _ ih =>
    simp only [List.cons_append, List.append_assoc, List.nil_append, deepest]
    rw [ih, ih]
    simp only [deepest, Nat.add_sub_cancel]
    omega

/-- A group is as deep as its inside, one level further in. -/
theorem Derives.deepest_group {tokens : List Token} {tree : Tree}
    (h : Derives .expression tokens tree) (opened : Nat) :
    deepest opened (.leftParen :: (tokens ++ [.rightParen])) = deepest (opened + 1) tokens := by
  have hle := le_deepest (opened + 1) tokens
  simp only [deepest]
  rw [h.deepest_append]
  simp only [deepest, Nat.add_sub_cancel]
  omega

/-- A chain and one more operand are as deep as the deeper of the two. -/
theorem Derives.deepest_joined {p : Precedence} {left : List Token} {leftTree : Tree}
    (h : Derives (.chain p) left leftTree) (op : Operator) (right : List Token) (opened : Nat) :
    deepest opened (left ++ .operator op :: right) =
      max (deepest opened left) (deepest opened right) :=
  h.deepest_append opened _

end Calculator
