import Calculator.Proofs.Facing
import Calculator.Proofs.Grammar

/-!
# What the rules read is derived by the grammar

A rule that succeeds has consumed a phrase of its category and answers with the
tree that the phrase denotes. It stops where the phrase cannot go on: a chain
stops before anything but an operator that would continue it, and has seen that
no unrecognized character stands there.
-/

namespace Calculator

/-! ## Where a phrase ends -/

/-- What lies ahead cannot continue a phrase of the category. A chain has looked
at the next lexeme, and would have gone on with an operator that binds as
tightly as its own or tighter. -/
def Category.Ends : Category → Scan → Prop
  | .factor, _ => True
  | .chain p, ahead =>
    match ahead.lexemes with
    | [] => ahead.fault = none
    | lexeme :: _ => ∀ op, lexeme.token.operator? = some op →
        op.precedence = .additive ∧ p = .multiplicative

/-- A chain ends where its last operand does, unless an operator of its own
precedence is next. -/
theorem Category.ends_chain_cons {p : Precedence} {lexeme : Lexeme} {lexemes : List Lexeme}
    {fault : Option Unrecognized} {size : Nat}
    (hoperand : p.operands.Ends ⟨lexeme :: lexemes, fault, size⟩)
    (hstop : ∀ op, lexeme.token.operator? = some op → op.precedence ≠ p) :
    (Category.chain p).Ends ⟨lexeme :: lexemes, fault, size⟩ := by
  intro op hop
  have hne := hstop op hop
  cases p with
  | additive => exact absurd (hoperand op hop).1 hne
  | multiplicative =>
    refine ⟨?_, rfl⟩
    cases hprecedence : op.precedence with
    | additive => rfl
    | multiplicative => exact absurd hprecedence hne

/-- The operand of a chain may end where an operator of the chain is next. -/
theorem Precedence.operands_ends_of_operator {p : Precedence} {op : Operator} {lexeme : Lexeme}
    (hop : lexeme.token.operator? = some op) (hprecedence : op.precedence = p)
    (lexemes : List Lexeme) (fault : Option Unrecognized) (size : Nat) :
    p.operands.Ends ⟨lexeme :: lexemes, fault, size⟩ := by
  cases p with
  | additive =>
    intro op' hop'
    rw [hop] at hop'
    cases hop'
    exact ⟨hprecedence, rfl⟩
  | multiplicative => trivial

/-- A chain stops where it ends. -/
theorem Category.Ends.stop {p : Precedence} {lexeme : Lexeme} {lexemes : List Lexeme}
    {fault : Option Unrecognized} {size : Nat}
    (hends : (Category.chain p).Ends ⟨lexeme :: lexemes, fault, size⟩) :
    ∀ op, lexeme.token.operator? = some op → op.precedence ≠ p := by
  intro op hop hprecedence
  obtain ⟨hadditive, hp⟩ := hends op hop
  rw [hprecedence, hp] at hadditive
  cases hadditive

/-! ## Phrases that have been read -/

/-- Between two cursors a phrase of the category was read that denotes the tree.
It starts with the first lexeme ahead, keeps to the limit, closes what it opens,
and ends where it must. -/
def Cursor.HasRead (s s' : Cursor) (category : Category) (tree : Tree) : Prop :=
  ∀ ⦃lexemes : List Lexeme⦄ ⦃fault : Option Unrecognized⦄ ⦃size nesting limit : Nat⦄,
    s.Faces ⟨lexemes, fault, size⟩ nesting limit →
    ∃ phrase rest, lexemes = phrase ++ rest ∧
      Derives category (phrase.map Lexeme.token) tree ∧
      deepest nesting (phrase.map Lexeme.token) ≤ limit ∧
      s'.Faces ⟨rest, fault, size⟩ nesting limit ∧ category.Ends ⟨rest, fault, size⟩

/-- Behind a phrase that was read nothing is recorded either. -/
theorem Cursor.HasRead.disabled {s s' : Cursor} {category : Category} {tree : Tree} {ahead : Scan}
    {nesting limit : Nat} (hread : s.HasRead s' category tree)
    (hfaces : s.Faces ahead nesting limit) : s'.tracer.enabled = false := by
  obtain ⟨_, _, _, _, _, hfaces', _⟩ := hread hfaces
  exact hfaces'.disabled

/-- Between two cursors the chain that denotes `left` so far was read to its end
and denotes the tree. -/
def Cursor.HasExtended (s s' : Cursor) (p : Precedence) (left tree : Tree) : Prop :=
  ∀ ⦃lexemes : List Lexeme⦄ ⦃fault : Option Unrecognized⦄ ⦃size nesting limit : Nat⦄
    ⦃before : List Token⦄, s.Faces ⟨lexemes, fault, size⟩ nesting limit →
    p.operands.Ends ⟨lexemes, fault, size⟩ → Derives (.chain p) before left →
    ∃ phrase rest, lexemes = phrase ++ rest ∧
      Derives (.chain p) (before ++ phrase.map Lexeme.token) tree ∧
      deepest nesting (phrase.map Lexeme.token) ≤ limit ∧
      s'.Faces ⟨rest, fault, size⟩ nesting limit ∧ (Category.chain p).Ends ⟨rest, fault, size⟩

/-- An operand and the rest of the chain behind it are a chain. -/
theorem Cursor.HasRead.chain {s s₁ s₂ : Cursor} {p : Precedence} {left tree : Tree}
    (hleft : s.HasRead s₁ p.operands left) (hrest : s₁.HasExtended s₂ p left tree) :
    s.HasRead s₂ (.chain p) tree := by
  intro lexemes fault size nesting limit hfaces
  obtain ⟨first, rest, rfl, hderives, hdeep, hfaces₁, hends₁⟩ := hleft hfaces
  obtain ⟨more, rest₂, rfl, hchain, hdeep₂, hfaces₂, hends₂⟩ :=
    hrest hfaces₁ hends₁ (.single hderives)
  refine ⟨first ++ more, rest₂, by rw [List.append_assoc], ?_, ?_, hfaces₂, hends₂⟩
  · rwa [List.map_append]
  · rw [List.map_append, hderives.deepest_append]
    omega

/-- An operator, an operand and the rest of the chain behind it extend a
chain. -/
theorem Cursor.HasRead.extend {s s₁ s₂ s₃ : Cursor} {p : Precedence} {op : Operator}
    {ahead : Lexeme} {left right tree : Tree} (hpeek : s.peek = (.ok ahead, s₁))
    (hop : ahead.token.operator? = some op) (hprecedence : op.precedence = p)
    (hright : (s₁.consume ahead).HasRead s₂ p.operands right)
    (hrest : s₂.HasExtended s₃ p (.node op left right) tree) :
    s.HasExtended s₃ p left tree := by
  intro lexemes fault size nesting limit before hfaces _ hbefore
  have htoken := Token.eq_operator_of_operator? hop
  obtain ⟨_, ⟨behind, rfl, hconsumed⟩ | ⟨_, _, rfl⟩⟩ := hfaces.of_peek_ok hpeek
  · obtain ⟨operand, rest, rfl, hderives, hdeep, hfaces₂, hends₂⟩ := hright hconsumed
    obtain ⟨more, rest₂, rfl, hchain, hdeep₂, hfaces₃, hends₃⟩ :=
      hrest hfaces₂ hends₂ (.joined hbefore hprecedence hderives)
    refine ⟨ahead :: (operand ++ more), rest₂, by simp, ?_, ?_, hfaces₃, hends₃⟩
    · simpa [htoken] using hchain
    · simp only [List.map_cons, List.map_append, htoken, deepest]
      rw [hderives.deepest_append]
      omega
  · cases htoken

/-- A chain that does not go on has been read to its end. -/
theorem Cursor.hasExtended_of_stop {s s₁ : Cursor} {p : Precedence} {ahead : Lexeme} {left : Tree}
    (hpeek : s.peek = (.ok ahead, s₁))
    (hstop : ∀ op, ahead.token.operator? = some op → op.precedence ≠ p) :
    s.HasExtended s₁ p left left := by
  intro lexemes fault size nesting limit before hfaces hends hbefore
  obtain ⟨hfaces₁, hahead⟩ := hfaces.of_peek_ok hpeek
  refine ⟨[], lexemes, rfl, by simpa using hbefore, hfaces.nesting_le, hfaces₁, ?_⟩
  rcases hahead with ⟨behind, rfl, _⟩ | ⟨rfl, rfl, _⟩
  · exact Category.ends_chain_cons hends hstop
  · rfl

/-- A number that is consumed has been read as a factor. -/
theorem Cursor.hasRead_number {s s₁ : Cursor} {ahead : Lexeme} {value : Float}
    (hpeek : s.peek = (.ok ahead, s₁)) (htoken : ahead.token = .number value) :
    s.HasRead (s₁.consume ahead) .factor (.leaf value) := by
  intro lexemes fault size nesting limit hfaces
  obtain ⟨_, ⟨behind, rfl, hconsumed⟩ | ⟨_, _, rfl⟩⟩ := hfaces.of_peek_ok hpeek
  · refine ⟨[ahead], behind, rfl, ?_, ?_, hconsumed, trivial⟩
    · simpa [htoken] using Derives.number value
    · simpa [htoken, deepest] using hfaces.nesting_le
  · cases htoken

/-- A group is read as a factor, if what it holds is read as an expression. -/
theorem Cursor.hasRead_of_group {s s₁ s' : Cursor} {ahead : Lexeme} {tree : Tree}
    (hpeek : s.peek = (.ok ahead, s₁)) (htoken : ahead.token = .leftParen)
    (hgroup : (s₁.consume ahead).group ahead.start = (.ok tree, s'))
    (hinner : ∀ s₂ inner s₃, (s₁.consume ahead).openGroup ahead.start = (.ok (), s₂) →
      s₂.chain .additive = (.ok inner, s₃) → s₂.HasRead s₃ .expression inner) :
    s.HasRead s' .factor tree := by
  intro lexemes fault size nesting limit hfaces
  obtain ⟨_, s₂, hopen, hinside⟩ := andThen_eq_ok hgroup
  obtain ⟨inner, s₃, hchain, hclose⟩ := andThen_eq_ok hinside
  obtain ⟨close, s₄, hpeek₃, hright, rfl, rfl⟩ := close_eq_ok hclose
  obtain ⟨_, ⟨behind, rfl, hconsumed⟩ | ⟨_, _, rfl⟩⟩ := hfaces.of_peek_ok hpeek
  · obtain ⟨phrase, rest, rfl, hderives, hdeep, hfaces₃, _⟩ :=
      hinner s₂ inner s₃ hopen hchain (hconsumed.of_openGroup_ok hopen)
    obtain ⟨_, ⟨rest, rfl, hclosed⟩ | ⟨_, _, rfl⟩⟩ := hfaces₃.of_peek_ok hpeek₃
    · refine ⟨ahead :: (phrase ++ [close]), rest, by simp, ?_, ?_, hclosed.closeGroup, trivial⟩
      · simpa [htoken, hright] using Derives.group hderives
      · simp only [List.map_cons, List.map_append, List.map_nil, htoken, hright]
        rwa [hderives.deepest_group]
    · cases hright
  · cases htoken

/-! ## The rules -/

/-- Every rule that succeeds has read a phrase of its category. -/
theorem Cursor.rules_sound :
    (∀ p s tree s', Cursor.chain s p = (.ok tree, s') → s.HasRead s' (.chain p) tree) ∧
    (∀ p s tree s', Cursor.operand s p = (.ok tree, s') → s.HasRead s' p.operands tree) ∧
    (∀ p left s tree s', Cursor.chainRest s p left = (.ok tree, s') →
      s.HasExtended s' p left tree) ∧
    ∀ s tree s', Cursor.factor s = (.ok tree, s') → s.HasRead s' .factor tree := by
  apply descent_induction
  · intro p s ih tree s' hchain lexemes fault size nesting limit hfaces
    have henter := enter_of_disabled hfaces.disabled p.rule
    rw [chain_eq, henter, andThen_ok] at hchain
    obtain ⟨left, s₁, hleft, hrest⟩ := andThen_eq_ok hchain
    obtain ⟨ihleft, ihrest⟩ := ih s henter
    exact (ihleft left s₁ hleft).chain (ihrest left s₁ hleft tree s' hrest) hfaces
  · intro s ih tree s' hoperand
    rw [operand_additive] at hoperand
    exact ih tree s' hoperand
  · intro s ih tree s' hoperand
    rw [operand_multiplicative] at hoperand
    exact ih tree s' hoperand
  · intro p left s ih tree s' hrest lexemes fault size nesting limit before hfaces hends hbefore
    rw [chainRest_eq_chainRestAt] at hrest
    obtain ⟨ahead, s₁, hpeek, hnext⟩ := andThen_eq_ok hrest
    rcases ahead.stops_or_goesOn p with hstop | ⟨op, hop, hprecedence⟩
    · have hdisabled := (hfaces.of_peek_ok hpeek).1.disabled
      rw [chainRestAt_of_stop hstop, leave_of_disabled hdisabled] at hnext
      cases hnext
      exact hasExtended_of_stop hpeek hstop hfaces hends hbefore
    · rw [chainRestAt_of_operator hop hprecedence] at hnext
      obtain ⟨right, s₂, hright, hmore⟩ := andThen_eq_ok hnext
      obtain ⟨ihright, ihmore⟩ := ih ahead s₁ op hpeek hop hprecedence
      exact (ihright right s₂ hright).extend hpeek hop hprecedence
        (ihmore right s₂ hright tree s' hmore) hfaces hends hbefore
  · intro s ih tree s' hfactor lexemes fault size nesting limit hfaces
    have henter := enter_of_disabled hfaces.disabled factorRule
    rw [factor_eq_factorAt, henter, andThen_ok] at hfactor
    obtain ⟨ahead, s₁, hpeek, hnext⟩ := andThen_eq_ok hfactor
    unfold factorAt at hnext
    cases htoken : ahead.token with
    | number value =>
      have hread := hasRead_number hpeek htoken
      simp only [htoken, leave_of_disabled (hread.disabled hfaces)] at hnext
      cases hnext
      exact hread hfaces
    | leftParen =>
      simp only [htoken] at hnext
      obtain ⟨inner, s₂, hgroup, hleave⟩ := andThen_eq_ok hnext
      have hread := hasRead_of_group hpeek htoken hgroup fun s₃ inner s₄ hopen =>
        ih s ahead s₁ s₃ henter hpeek htoken hopen inner s₄
      rw [leave_of_disabled (hread.disabled hfaces)] at hleave
      cases hleave
      exact hread hfaces
    | operator op => simp [htoken] at hnext
    | rightParen => simp [htoken] at hnext
    | endOfInput => simp [htoken] at hnext

end Calculator
