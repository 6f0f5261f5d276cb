import Calculator.Proofs.Soundness
import Calculator.Proofs.Tracing

/-!
# What the grammar derives is read by the rules

A phrase of the grammar that stands ahead of a cursor is read by the rule of
its category, whatever may follow the phrase. Chains grow to the right while
the grammar builds them up from the left, so a chain is described by how far it
has come: reading it from its start is the same as going on behind it with its
tree.

Together with soundness this shows that parsing accepts exactly the expressions
of the grammar, each with its one tree.
-/

namespace Calculator

/-- The rule of the category, started at one cursor, comes to another one with
the tree of what lies between. A chain may still go on from there. -/
def Category.ReadsTo : Category → Cursor → Cursor → Tree → Prop
  | .factor, s, s', tree => s.factor = (.ok tree, s')
  | .chain p, s, s', tree => s.chain p = s'.chainRest p tree

/-- What lies ahead does not keep a phrase of the category from being complete.
The last operand of a chain must have ended. -/
def Category.Admits : Category → Scan → Prop
  | .factor, _ => True
  | .chain p, ahead => p.operands.Ends ahead

/-- An operand of a chain is complete wherever it may end. -/
theorem Precedence.operands_admits (p : Precedence) (ahead : Scan) : p.operands.Admits ahead := by
  cases p with
  | additive => trivial
  | multiplicative => trivial

/-- A chain that ends here is left with its tree. -/
theorem Cursor.Faces.chainRest_of_ends {s : Cursor} {ahead : Scan} {nesting limit : Nat}
    {p : Precedence} (hfaces : s.Faces ahead nesting limit) (hends : (Category.chain p).Ends ahead)
    (tree : Tree) :
    ∃ s', s.chainRest p tree = (.ok tree, s') ∧ s'.Faces ahead nesting limit := by
  obtain ⟨lexemes, fault, size⟩ := ahead
  rw [chainRest_eq_chainRestAt]
  cases lexemes with
  | nil =>
    cases (show fault = none from hends)
    obtain ⟨s₁, hpeek, hfaces₁⟩ := hfaces.peek_end
    have hstop : ∀ op, (Lexeme.atEnd size).token.operator? = some op → op.precedence ≠ p := by
      intro op hop
      cases hop
    refine ⟨s₁, ?_, hfaces₁⟩
    rw [hpeek, andThen_ok, chainRestAt_of_stop hstop, leave_of_disabled hfaces₁.disabled]
  | cons lexeme rest =>
    obtain ⟨s₁, hpeek, hfaces₁, _⟩ := hfaces.peek_cons
    refine ⟨s₁, ?_, hfaces₁⟩
    rw [hpeek, andThen_ok, chainRestAt_of_stop hends.stop, leave_of_disabled hfaces₁.disabled]

/-- An operand that ends here has been read. -/
theorem Cursor.Faces.operand_of_readsTo {s s₁ : Cursor} {ahead : Scan} {nesting limit : Nat}
    {p : Precedence} {tree : Tree} (hfaces : s₁.Faces ahead nesting limit)
    (hends : p.operands.Ends ahead) (hreads : p.operands.ReadsTo s s₁ tree) :
    ∃ s', s.operand p = (.ok tree, s') ∧ s'.Faces ahead nesting limit := by
  cases p with
  | additive =>
    obtain ⟨s', hrest, hfaces'⟩ := hfaces.chainRest_of_ends hends tree
    refine ⟨s', ?_, hfaces'⟩
    rw [operand_additive, show s.chain .multiplicative = _ from hreads, hrest]
  | multiplicative =>
    refine ⟨s₁, ?_, hfaces⟩
    rw [operand_multiplicative, show s.factor = _ from hreads]

/-- An operand that stands ahead is the start of a chain. -/
theorem Cursor.Faces.readsTo_single {s s₁ : Cursor} {ahead ahead₁ : Scan} {nesting limit : Nat}
    {p : Precedence} {tree : Tree} (hfaces : s.Faces ahead nesting limit)
    (hfaces₁ : s₁.Faces ahead₁ nesting limit) (hends : p.operands.Ends ahead₁)
    (hreads : p.operands.ReadsTo s s₁ tree) :
    ∃ s', (Category.chain p).ReadsTo s s' tree ∧ s'.Faces ahead₁ nesting limit := by
  obtain ⟨s', hoperand, hfaces'⟩ := hfaces₁.operand_of_readsTo hends hreads
  refine ⟨s', ?_, hfaces'⟩
  change s.chain p = s'.chainRest p tree
  rw [chain_eq, enter_of_disabled hfaces.disabled, andThen_ok, hoperand, andThen_ok]

/-- A chain goes on over an operator of its precedence and the operand behind
it. -/
theorem Cursor.Faces.readsTo_joined {s s₁ : Cursor} {lexeme : Lexeme} {lexemes : List Lexeme}
    {fault : Option Unrecognized} {ahead : Scan} {size nesting limit : Nat} {p : Precedence}
    {op : Operator} {left right : Tree}
    (hfaces : s₁.Faces ⟨lexeme :: lexemes, fault, size⟩ nesting limit)
    (hop : lexeme.token.operator? = some op) (hprecedence : op.precedence = p)
    (hleft : (Category.chain p).ReadsTo s s₁ left) (hends : p.operands.Ends ahead)
    (hright : ∀ s₂ : Cursor, s₂.Faces ⟨lexemes, fault, size⟩ nesting limit →
      ∃ s₃, p.operands.ReadsTo s₂ s₃ right ∧ s₃.Faces ahead nesting limit) :
    ∃ s', (Category.chain p).ReadsTo s s' (.node op left right) ∧ s'.Faces ahead nesting limit := by
  obtain ⟨s₂, hpeek, _, hconsumed⟩ := hfaces.peek_cons
  obtain ⟨s₃, hreads, hfaces₃⟩ := hright _ hconsumed
  obtain ⟨s', hoperand, hfaces'⟩ := hfaces₃.operand_of_readsTo hends hreads
  refine ⟨s', ?_, hfaces'⟩
  change s.chain p = s'.chainRest p (.node op left right)
  rw [show s.chain p = s₁.chainRest p left from hleft, chainRest_eq_chainRestAt, hpeek, andThen_ok,
    chainRestAt_of_operator hop hprecedence, hoperand, andThen_ok]

/-- A number that stands ahead is read as a factor. -/
theorem Cursor.Faces.factor_number {s : Cursor} {lexeme : Lexeme} {lexemes : List Lexeme}
    {fault : Option Unrecognized} {size nesting limit : Nat} {value : Float}
    (hfaces : s.Faces ⟨lexeme :: lexemes, fault, size⟩ nesting limit)
    (htoken : lexeme.token = .number value) :
    ∃ s', s.factor = (.ok (.leaf value), s') ∧ s'.Faces ⟨lexemes, fault, size⟩ nesting limit := by
  obtain ⟨s₁, hpeek, _, hconsumed⟩ := hfaces.peek_cons
  refine ⟨s₁.consume lexeme, ?_, hconsumed⟩
  rw [factor_eq_factorAt, enter_of_disabled hfaces.disabled, andThen_ok, hpeek, andThen_ok]
  simp only [factorAt, htoken, leave_of_disabled hconsumed.disabled]

/-- An expression between parentheses that stands ahead is read as a factor. -/
theorem Cursor.Faces.factor_group {s : Cursor} {lexeme close : Lexeme}
    {lexemes rest : List Lexeme} {fault : Option Unrecognized} {size nesting limit : Nat}
    {tree : Tree} (hfaces : s.Faces ⟨lexeme :: lexemes, fault, size⟩ nesting limit)
    (htoken : lexeme.token = .leftParen) (hclose : close.token = .rightParen)
    (hlt : nesting < limit)
    (hinner : ∀ s₁ : Cursor, s₁.Faces ⟨lexemes, fault, size⟩ (nesting + 1) limit →
      ∃ s₂, Category.expression.ReadsTo s₁ s₂ tree ∧
        s₂.Faces ⟨close :: rest, fault, size⟩ (nesting + 1) limit) :
    ∃ s', s.factor = (.ok tree, s') ∧ s'.Faces ⟨rest, fault, size⟩ nesting limit := by
  obtain ⟨s₁, hpeek, _, hconsumed⟩ := hfaces.peek_cons
  obtain ⟨s₂, hopen, hopened⟩ := hconsumed.openGroup_eq hlt lexeme.start
  obtain ⟨s₃, hreads, hfaces₃⟩ := hinner s₂ hopened
  have hends : Category.expression.Ends ⟨close :: rest, fault, size⟩ := by
    intro op hop
    simp [hclose, Token.operator?] at hop
  obtain ⟨s₄, hrest, hfaces₄⟩ := hfaces₃.chainRest_of_ends hends tree
  have hchain : s₂.chain .additive = (.ok tree, s₄) := Eq.trans hreads hrest
  obtain ⟨s₅, hpeek₅, _, hconsumed₅⟩ := hfaces₄.peek_cons
  have hclosed := hconsumed₅.closeGroup
  refine ⟨(s₅.consume close).closeGroup, ?_, hclosed⟩
  rw [factor_eq_factorAt, enter_of_disabled hfaces.disabled, andThen_ok, hpeek, andThen_ok]
  simp only [factorAt, htoken, group, hopen, hchain, Cursor.close, hpeek₅, hclose, andThen_ok,
    leave_of_disabled hclosed.disabled]

/-- A phrase that stands ahead is read by the rule of its category. -/
theorem Derives.readsTo {category : Category} {tokens : List Token} {tree : Tree}
    (h : Derives category tokens tree) {s : Cursor} {phrase rest : List Lexeme}
    {fault : Option Unrecognized} {size nesting limit : Nat}
    (htokens : phrase.map Lexeme.token = tokens)
    (hfaces : s.Faces ⟨phrase ++ rest, fault, size⟩ nesting limit)
    (hdeep : deepest nesting tokens ≤ limit) (hadmits : category.Admits ⟨rest, fault, size⟩) :
    ∃ s', category.ReadsTo s s' tree ∧ s'.Faces ⟨rest, fault, size⟩ nesting limit := by
  induction h generalizing s phrase rest nesting with
  | @single p tokens tree _ ih =>
    obtain ⟨s₁, hreads, hfaces₁⟩ := ih htokens hfaces hdeep (p.operands_admits _)
    exact hfaces.readsTo_single hfaces₁ hadmits hreads
  | @joined p op left right leftTree rightTree hleft hprecedence _ ihleft ihright =>
    obtain ⟨first, more, rfl, hfirst, hmore⟩ := List.map_eq_append_iff.mp htokens
    obtain ⟨lexeme, operand, rfl, hlexeme, hoperand⟩ := List.map_eq_cons_iff.mp hmore
    have hop : lexeme.token.operator? = some op := by rw [hlexeme]; rfl
    rw [hleft.deepest_joined] at hdeep
    rw [List.append_assoc, List.cons_append] at hfaces
    obtain ⟨s₁, hreads, hfaces₁⟩ := ihleft hfirst hfaces (by omega)
      (Precedence.operands_ends_of_operator hop hprecedence _ _ _)
    apply hfaces₁.readsTo_joined hop hprecedence hreads hadmits
    intro s₂ hfaces₂
    exact ihright hoperand hfaces₂ (by omega) (p.operands_admits _)
  | number value =>
    obtain ⟨lexeme, tail, rfl, hlexeme, htail⟩ := List.map_eq_cons_iff.mp htokens
    cases List.map_eq_nil_iff.mp htail
    exact hfaces.factor_number hlexeme
  | @group tokens tree hinner ih =>
    obtain ⟨lexeme, more, rfl, hlexeme, hmore⟩ := List.map_eq_cons_iff.mp htokens
    obtain ⟨inner, last, rfl, hinnerTokens, hlast⟩ := List.map_eq_append_iff.mp hmore
    obtain ⟨close, tail, rfl, hclose, htail⟩ := List.map_eq_cons_iff.mp hlast
    cases List.map_eq_nil_iff.mp htail
    rw [hinner.deepest_group] at hdeep
    have hle := le_deepest (nesting + 1) tokens
    rw [List.cons_append, List.append_assoc] at hfaces
    apply hfaces.factor_group hlexeme hclose (by omega)
    intro s₁ hfaces₁
    apply ih hinnerTokens hfaces₁ hdeep
    intro op hop
    simp [hclose, Token.operator?] at hop

end Calculator
