import Calculator.Descent

/-!
# Reasoning about the rules of the descent

The rules read from a cursor and call one another. This file gives the two
tools with which statements about them are proved: the outcomes of a sequence
of operations, and an induction that follows the calls of the rules. The
induction hides the measure by which the descent ends.
-/

namespace Calculator

/-! ## Sequences of operations -/

variable {α β γ : Type}

/-- After a success the next operation runs. -/
@[simp] theorem andThen_ok (a : α) (s : Cursor) (next : α → Cursor → Except Fault β × Cursor) :
    andThen (.ok a, s) next = next a s := rfl

/-- After a failure nothing runs. -/
@[simp] theorem andThen_error (fault : Fault) (s : Cursor)
    (next : α → Cursor → Except Fault β × Cursor) :
    andThen (.error fault, s) next = (.error fault, s) := rfl

/-- A sequence succeeds when both of its operations do. -/
theorem andThen_eq_ok {r : Except Fault α × Cursor} {next : α → Cursor → Except Fault β × Cursor}
    {b : β} {s' : Cursor} (h : andThen r next = (.ok b, s')) :
    ∃ a s, r = (.ok a, s) ∧ next a s = (.ok b, s') := by
  obtain ⟨fault | a, s⟩ := r
  · simp at h
  · exact ⟨a, s, rfl, h⟩

/-- A sequence fails in its first operation, or in its second after the first
has succeeded. -/
theorem andThen_eq_error {r : Except Fault α × Cursor}
    {next : α → Cursor → Except Fault β × Cursor} {fault : Fault} {s' : Cursor}
    (h : andThen r next = (.error fault, s')) :
    r = (.error fault, s') ∨ ∃ a s, r = (.ok a, s) ∧ next a s = (.error fault, s') := by
  obtain ⟨fault' | a, s⟩ := r
  · left
    simpa using h
  · exact Or.inr ⟨a, s, rfl, h⟩

/-- Sequences may be regrouped. -/
theorem andThen_assoc (r : Except Fault α × Cursor)
    (next : α → Cursor → Except Fault β × Cursor)
    (last : β → Cursor → Except Fault γ × Cursor) :
    andThen (andThen r next) last = andThen r fun a s => andThen (next a s) last := by
  obtain ⟨fault | a, s⟩ := r <;> rfl

/-! ## Rules without tracing -/

/-- With a disabled tracer, entering a rule does nothing. -/
theorem Cursor.enter_of_disabled {s : Cursor} (hdisabled : s.tracer.enabled = false)
    (rule : String) : s.enter rule = (.ok (), s) := by
  simp [enter, hdisabled]

/-- With a disabled tracer, leaving a rule only hands over the tree. -/
theorem Cursor.leave_of_disabled {s : Cursor} (hdisabled : s.tracer.enabled = false)
    (rule : String) (tree : Tree) : s.leave rule tree = (.ok tree, s) := by
  simp [leave, exit, hdisabled]

/-! ## The rules by cases on the lexeme ahead -/

/-- A token that denotes an operator is that operator. -/
theorem Token.eq_operator_of_operator? {token : Token} {op : Operator}
    (hop : token.operator? = some op) : token = .operator op := by
  cases token <;> simp_all [operator?]

/-- Goes on with a chain, or leaves it, with the lookahead `ahead`. -/
def Cursor.chainRestAt (s : Cursor) (p : Precedence) (left : Tree) (ahead : Lexeme) : Reading :=
  match ahead.token.operator? with
  | some op =>
    if op.precedence = p then
      andThen ((s.consume ahead).operand p) fun right s => s.chainRest p (.node op left right)
    else s.leave p.rule left
  | none => s.leave p.rule left

/-- What follows an operand is decided by the lexeme ahead. -/
theorem Cursor.chainRest_eq_chainRestAt (s : Cursor) (p : Precedence) (left : Tree) :
    s.chainRest p left = andThen s.peek fun ahead s => s.chainRestAt p left ahead :=
  s.chainRest_eq p left

/-- The lexeme ahead is an operator of a precedence, or it is not. -/
theorem Lexeme.stops_or_goesOn (ahead : Lexeme) (p : Precedence) :
    (∀ op, ahead.token.operator? = some op → op.precedence ≠ p) ∨
      ∃ op, ahead.token.operator? = some op ∧ op.precedence = p := by
  by_cases hgoes : ∃ op, ahead.token.operator? = some op ∧ op.precedence = p
  · exact Or.inr hgoes
  · exact Or.inl fun op hop hprecedence => hgoes ⟨op, hop, hprecedence⟩

/-- A chain goes on with an operator of its precedence. -/
theorem Cursor.chainRestAt_of_operator {ahead : Lexeme} {op : Operator} {p : Precedence}
    (hop : ahead.token.operator? = some op) (hprecedence : op.precedence = p)
    (s : Cursor) (left : Tree) :
    s.chainRestAt p left ahead = andThen ((s.consume ahead).operand p) fun right s =>
      s.chainRest p (.node op left right) := by
  simp only [chainRestAt, hop, if_pos hprecedence]

/-- A chain is left when no operator of its precedence is ahead. -/
theorem Cursor.chainRestAt_of_stop {ahead : Lexeme} {p : Precedence}
    (hstop : ∀ op, ahead.token.operator? = some op → op.precedence ≠ p)
    (s : Cursor) (left : Tree) : s.chainRestAt p left ahead = s.leave p.rule left := by
  unfold chainRestAt
  split
  · rename_i op hop
    rw [if_neg (hstop op hop)]
  · rfl

/-- Reads the group whose parenthesis at `openedAt` has just been consumed. -/
def Cursor.group (s : Cursor) (openedAt : Nat) : Reading :=
  andThen (s.openGroup openedAt) fun _ s =>
    andThen (s.chain .additive) fun inner s => s.close openedAt inner

/-- Reads a factor that begins with the lookahead `ahead`. -/
def Cursor.factorAt (s : Cursor) (ahead : Lexeme) : Reading :=
  match ahead.token with
  | .number value => (s.consume ahead).leave factorRule (.leaf value)
  | .leftParen =>
    andThen ((s.consume ahead).group ahead.start) fun tree s => s.leave factorRule tree
  | .endOfInput => (.error (.unexpectedEnd "operand" ahead.start), s)
  | token => (.error (.unexpectedToken "operand" token.text ahead.start), s)

/-- A factor is decided by the lexeme ahead. -/
theorem Cursor.factor_eq_factorAt (s : Cursor) :
    s.factor = andThen (s.enter factorRule) fun _ s =>
      andThen s.peek fun ahead s => s.factorAt ahead := by
  rw [factor_eq]
  congr
  funext _ s
  congr
  funext ahead s
  unfold factorAt
  cases ahead.token <;> simp only [group, andThen_assoc]

/-- A group is closed by consuming its right parenthesis. -/
theorem Cursor.close_eq_ok {s s' : Cursor} {openedAt : Nat} {inner tree : Tree}
    (hclose : s.close openedAt inner = (.ok tree, s')) :
    ∃ ahead s₁, s.peek = (.ok ahead, s₁) ∧ ahead.token = .rightParen ∧ inner = tree ∧
      (s₁.consume ahead).closeGroup = s' := by
  obtain ⟨ahead, s₁, hpeek, hnext⟩ := andThen_eq_ok hclose
  refine ⟨ahead, s₁, hpeek, ?_⟩
  cases htoken : ahead.token with
  | rightParen => simpa [htoken] using hnext
  | number value => simp [htoken] at hnext
  | operator op => simp [htoken] at hnext
  | leftParen => simp [htoken] at hnext
  | endOfInput => simp [htoken] at hnext

/-- Requires that nothing is left behind a tree. -/
def Cursor.finish (s : Cursor) (tree : Tree) : Reading :=
  andThen s.peek fun ahead s =>
    match ahead.token with
    | .endOfInput => (.ok tree, s)
    | token => (.error (.trailingToken token.text ahead.start), s)

/-- A whole text is an additive chain with nothing behind it, unless it is
empty. -/
theorem Cursor.expression_eq_finish (s : Cursor) :
    s.expression = andThen s.peek fun ahead s =>
      if ahead.isReal then andThen (s.chain .additive) fun tree s => s.finish tree
      else (.error .emptyInput, s) := by
  unfold expression finish
  congr
  funext ahead s
  unfold Lexeme.isReal
  cases ahead.token <;> rfl

/-! ## Induction over the calls of the rules -/

/-- An operand takes at least one lexeme. -/
theorem Cursor.pending_lt_of_operand {s s₁ : Cursor} {p : Precedence} {tree : Tree}
    (hoperand : s.operand p = (.ok tree, s₁)) : s₁.pending < s.pending := by
  have hlt := (Descent.operand p s).property.lt tree (congrArg Prod.fst hoperand)
  rwa [show (Descent.operand p s).val = (.ok tree, s₁) from hoperand] at hlt

section Induction

variable {Chain Operand : Precedence → Cursor → Prop} {Rest : Precedence → Tree → Cursor → Prop}
  {Factor : Cursor → Prop}

/-- To prove a statement about each rule at every cursor, it is enough to prove
it from the statements about the calls that the rule makes. -/
theorem Cursor.descent_induction
    (hchain : ∀ p s,
      (∀ s₁, s.enter p.rule = (.ok (), s₁) → Operand p s₁ ∧
        ∀ left s₂, s₁.operand p = (.ok left, s₂) → Rest p left s₂) → Chain p s)
    (hsum : ∀ s, Chain .multiplicative s → Operand .additive s)
    (hproduct : ∀ s, Factor s → Operand .multiplicative s)
    (hrest : ∀ p left s,
      (∀ ahead s₁ op, s.peek = (.ok ahead, s₁) → ahead.token.operator? = some op →
        op.precedence = p → Operand p (s₁.consume ahead) ∧
          ∀ right s₂, (s₁.consume ahead).operand p = (.ok right, s₂) →
            Rest p (.node op left right) s₂) → Rest p left s)
    (hfactor : ∀ s,
      (∀ s₁ ahead s₂ s₃, s.enter factorRule = (.ok (), s₁) → s₁.peek = (.ok ahead, s₂) →
        ahead.token = .leftParen →
        (s₂.consume ahead).openGroup ahead.start = (.ok (), s₃) → Chain .additive s₃) →
      Factor s) :
    (∀ p s, Chain p s) ∧ (∀ p s, Operand p s) ∧ (∀ p left s, Rest p left s) ∧
      ∀ s, Factor s := by
  have hbelow (n : Nat) :
      (∀ p s, 5 * s.pending + p.rank + 1 < n → Chain p s) ∧
      (∀ p s, 5 * s.pending + p.rank < n → Operand p s) ∧
      (∀ p left s, 5 * s.pending < n → Rest p left s) ∧
      ∀ s, 5 * s.pending < n → Factor s := by
    induction n with
    | zero => simp
    | succ n ih =>
      obtain ⟨ihchain, ihoperand, ihrest, ihfactor⟩ := ih
      refine ⟨?_, ?_, ?_, ?_⟩
      · intro p s hn
        apply hchain
        intro s₁ henter
        have hpending := pending_of_enter henter
        refine ⟨ihoperand p s₁ (by omega), ?_⟩
        intro left s₂ hleft
        have hlt := pending_lt_of_operand hleft
        exact ihrest p left s₂ (by omega)
      · intro p s hn
        cases p with
        | additive =>
          simp only [Precedence.rank] at hn
          exact hsum s (ihchain _ s (by simp only [Precedence.rank]; omega))
        | multiplicative =>
          simp only [Precedence.rank] at hn
          exact hproduct s (ihfactor s (by omega))
      · intro p left s hn
        apply hrest
        intro ahead s₁ op hpeek hop hprecedence
        have hlt := pending_consume_of_peek hpeek (Lexeme.isReal_of_operator? hop)
        have hrank := p.rank_le
        refine ⟨ihoperand p _ (by omega), ?_⟩
        intro right s₂ hright
        have hlt₂ := pending_lt_of_operand hright
        exact ihrest p _ s₂ (by omega)
      · intro s hn
        apply hfactor
        intro s₁ ahead s₂ s₃ henter hpeek htoken hopen
        have hreal : ahead.isReal = true := by simp [Lexeme.isReal, htoken]
        have hlt := pending_consume_of_peek hpeek hreal
        have henter := pending_of_enter henter
        have hopen := pending_of_openGroup hopen
        exact ihchain .additive s₃ (by simp only [Precedence.rank]; omega)
  refine ⟨fun p s => (hbelow _).1 p s (Nat.lt_succ_self _),
    fun p s => (hbelow _).2.1 p s (Nat.lt_succ_self _),
    fun p left s => (hbelow _).2.2.1 p left s (Nat.lt_succ_self _),
    fun s => (hbelow _).2.2.2 s (Nat.lt_succ_self _)⟩

end Induction

end Calculator
