import Calculator.Proofs.Rules

/-!
# What the rules consume, and what holds across them

The rules change a cursor by a few moves only: they look ahead, note that a rule
is entered or left, consume the lookahead, open and close groups, and refuse a
lexeme. A contract relates the cursor before a rule to the one behind it, the
lexemes consumed in between and the fault met. It holds across every rule if it
holds across each move and across two moves in a row.
-/

namespace Calculator

variable {α β : Type}

/-- The fault of a result, if it is one. -/
def fault? : Except Fault α → Option Fault
  | .ok _ => none
  | .error fault => some fault

/-- What is consumed behind an operation: nothing if it failed. -/
def takenAfter (r : Except Fault α × Cursor) (next : α → Cursor → List Lexeme) : List Lexeme :=
  match r with
  | (.error _, _) => []
  | (.ok a, s) => next a s

/-- Nothing is consumed behind an operation if nothing is after its success. -/
theorem takenAfter_nothing (r : Except Fault α × Cursor) : takenAfter r (fun _ _ => []) = [] := by
  obtain ⟨fault | a, s⟩ := r <;> rfl

/-! ## The lexemes that a rule consumes -/

namespace Cursor

/-- The lexeme that closing a group consumes: its right parenthesis. -/
def closeTaken (s : Cursor) : List Lexeme :=
  takenAfter s.peek fun ahead _ =>
    match ahead.token with
    | .rightParen => [ahead]
    | _ => []

mutual

/-- The lexemes that reading a chain consumes. -/
def chainTaken (s : Cursor) (p : Precedence) : List Lexeme :=
  match _henter : s.enter p.rule with
  | (.error _, _) => []
  | (.ok (), s₁) =>
    s₁.operandTaken p ++
      match _hleft : s₁.operand p with
      | (.error _, _) => []
      | (.ok left, s₂) => s₂.restTaken p left
termination_by 5 * s.pending + p.rank + 1
decreasing_by
  · have hentered := pending_of_enter _henter
    omega
  · have hentered := pending_of_enter _henter
    have hlt := pending_lt_of_operand _hleft
    omega

/-- The lexemes that reading an operand of a chain consumes. -/
def operandTaken (s : Cursor) (p : Precedence) : List Lexeme :=
  match p with
  | .additive => s.chainTaken .multiplicative
  | .multiplicative => s.factorTaken
termination_by 5 * s.pending + p.rank
decreasing_by
  · simp only [Precedence.rank]
    omega
  · simp only [Precedence.rank]
    omega

/-- The lexemes that reading the rest of a chain consumes. -/
def restTaken (s : Cursor) (p : Precedence) (left : Tree) : List Lexeme :=
  match _hpeek : s.peek with
  | (.error _, _) => []
  | (.ok ahead, s₁) =>
    match _hop : ahead.token.operator? with
    | none => []
    | some op =>
      if op.precedence = p then
        ahead :: ((s₁.consume ahead).operandTaken p ++
          match _hright : (s₁.consume ahead).operand p with
          | (.error _, _) => []
          | (.ok right, s₂) => s₂.restTaken p (.node op left right))
      else []
termination_by 5 * s.pending
decreasing_by
  · have hlt := pending_consume_of_peek _hpeek (Lexeme.isReal_of_operator? _hop)
    have hrank := p.rank_le
    omega
  · have hlt := pending_consume_of_peek _hpeek (Lexeme.isReal_of_operator? _hop)
    have hlt₂ := pending_lt_of_operand _hright
    omega

/-- The lexemes that reading a factor consumes. -/
def factorTaken (s : Cursor) : List Lexeme :=
  match _henter : s.enter factorRule with
  | (.error _, _) => []
  | (.ok (), s₁) =>
    match _hpeek : s₁.peek with
    | (.error _, _) => []
    | (.ok ahead, s₂) =>
      match _htoken : ahead.token with
      | .number _ => [ahead]
      | .leftParen =>
        ahead ::
          match _hopen : (s₂.consume ahead).openGroup ahead.start with
          | (.error _, _) => []
          | (.ok (), s₃) =>
            s₃.chainTaken .additive ++
              takenAfter (s₃.chain .additive) fun _ s₄ => s₄.closeTaken
      | _ => []
termination_by 5 * s.pending
decreasing_by
  have hentered := pending_of_enter _henter
  have hlt := pending_consume_of_peek _hpeek (by simp [Lexeme.isReal, _htoken])
  have hopened := pending_of_openGroup _hopen
  simp only [Precedence.rank]
  omega

end

/-- The lexemes that reading a whole text consumes. -/
def expressionTaken (s : Cursor) : List Lexeme :=
  takenAfter s.peek fun ahead s => if ahead.isReal then s.chainTaken .additive else []

/-- A chain consumes what its first operand and the rest of it consume. -/
theorem chainTaken_eq (s : Cursor) (p : Precedence) :
    s.chainTaken p = takenAfter (s.enter p.rule) fun _ s =>
      s.operandTaken p ++ takenAfter (s.operand p) fun left s => s.restTaken p left := by
  rw [chainTaken]
  split <;> rename_i henter
  · simp only [takenAfter, henter]
  · simp only [takenAfter, henter]
    congr 1
    split <;> rename_i hleft <;> simp only [hleft]

/-- The operands of sums are products. -/
theorem operandTaken_additive (s : Cursor) :
    s.operandTaken .additive = s.chainTaken .multiplicative := by
  rw [operandTaken]

/-- The operands of products are factors. -/
theorem operandTaken_multiplicative (s : Cursor) :
    s.operandTaken .multiplicative = s.factorTaken := by
  rw [operandTaken]

/-- What a chain consumes with the lookahead `ahead` behind one of its operands:
an operator of its precedence, the next operand and what is still left. -/
def restTakenAt (s : Cursor) (p : Precedence) (left : Tree) (ahead : Lexeme) : List Lexeme :=
  match ahead.token.operator? with
  | none => []
  | some op =>
    if op.precedence = p then
      ahead :: ((s.consume ahead).operandTaken p ++
        takenAfter ((s.consume ahead).operand p) fun right s => s.restTaken p (.node op left right))
    else []

/-- A chain consumes an operator of its precedence and what follows it. -/
theorem restTakenAt_of_operator {ahead : Lexeme} {op : Operator} {p : Precedence}
    (hop : ahead.token.operator? = some op) (hprecedence : op.precedence = p)
    (s : Cursor) (left : Tree) :
    s.restTakenAt p left ahead = ahead :: ((s.consume ahead).operandTaken p ++
      takenAfter ((s.consume ahead).operand p) fun right s =>
        s.restTaken p (.node op left right)) := by
  simp only [restTakenAt, hop, if_pos hprecedence]

/-- A chain that is left consumes nothing more. -/
theorem restTakenAt_of_stop {ahead : Lexeme} {p : Precedence}
    (hstop : ∀ op, ahead.token.operator? = some op → op.precedence ≠ p)
    (s : Cursor) (left : Tree) : s.restTakenAt p left ahead = [] := by
  unfold restTakenAt
  split
  · rfl
  · rename_i op hop
    rw [if_neg (hstop op hop)]

/-- What the rest of a chain consumes is decided by the lexeme ahead. -/
theorem restTaken_eq (s : Cursor) (p : Precedence) (left : Tree) :
    s.restTaken p left = takenAfter s.peek fun ahead s => s.restTakenAt p left ahead := by
  rw [restTaken]
  split <;> rename_i hpeek
  · simp only [takenAfter, hpeek]
  · simp only [takenAfter, hpeek, restTakenAt]
    split <;> rename_i hop
    · simp only [hop]
    · simp only [hop]
      split
      · congr 2
        split <;> rename_i hright <;> simp only [hright]
      · rfl

/-- What reading a group consumes behind its left parenthesis. -/
def groupTaken (s : Cursor) (openedAt : Nat) : List Lexeme :=
  takenAfter (s.openGroup openedAt) fun _ s =>
    s.chainTaken .additive ++ takenAfter (s.chain .additive) fun _ s => s.closeTaken

/-- What a factor consumes that begins with the lookahead `ahead`. -/
def factorTakenAt (s : Cursor) (ahead : Lexeme) : List Lexeme :=
  match ahead.token with
  | .number _ => [ahead]
  | .leftParen => ahead :: (s.consume ahead).groupTaken ahead.start
  | _ => []

/-- What a factor consumes is decided by the lexeme ahead. -/
theorem factorTaken_eq (s : Cursor) :
    s.factorTaken = takenAfter (s.enter factorRule) fun _ s =>
      takenAfter s.peek fun ahead s => s.factorTakenAt ahead := by
  rw [factorTaken]
  split <;> rename_i henter
  · simp only [takenAfter, henter]
  · simp only [takenAfter, henter]
    split <;> rename_i hpeek
    · simp only [hpeek]
    · simp only [hpeek, factorTakenAt]
      split <;> rename_i htoken
      · simp only [htoken]
      · simp only [htoken, groupTaken]
        congr 1
        split <;> rename_i hopen <;> simp only [hopen, takenAfter]
      · split <;> simp_all

end Cursor

/-! ## Contracts -/

/-- The real lexemes are those that are not the end of the input. -/
theorem Lexeme.isReal_iff {lexeme : Lexeme} :
    lexeme.isReal = true ↔ lexeme.token ≠ .endOfInput := by
  unfold isReal
  split <;> simp_all

/-- The lexeme ahead is refused with the fault. The end of the input is refused
with faults of its own. -/
inductive Lexeme.Refused (ahead : Lexeme) : Fault → Prop
  /-- The lexeme stands where something else is expected. -/
  | misplaced (expected : String) : ahead.isReal = true →
      Refused ahead (.unexpectedToken expected ahead.token.text ahead.start)
  /-- The lexeme follows a whole expression. -/
  | trailing : ahead.isReal = true → Refused ahead (.trailingToken ahead.token.text ahead.start)
  /-- The text ends where something is expected. -/
  | ended (expected : String) : ahead.isReal = false →
      Refused ahead (.unexpectedEnd expected ahead.start)
  /-- The text ends inside a group. -/
  | unclosed (openedAt : Nat) : ahead.isReal = false →
      Refused ahead (.unclosedGroup openedAt ahead.start)
  /-- The text is empty. -/
  | empty : ahead.isReal = false → Refused ahead .emptyInput

/-- A token that is not the end of the input is misplaced with its own text. -/
theorem Lexeme.Refused.of_misplaced {ahead : Lexeme} {token : Token} (htoken : ahead.token = token)
    (hreal : token ≠ .endOfInput) (expected : String) :
    ahead.Refused (.unexpectedToken expected token.text ahead.start) := by
  subst htoken
  exact .misplaced expected (isReal_iff.mpr hreal)

/-- A token that is not the end of the input is trailing with its own text. -/
theorem Lexeme.Refused.of_trailing {ahead : Lexeme} {token : Token} (htoken : ahead.token = token)
    (hreal : token ≠ .endOfInput) : ahead.Refused (.trailingToken token.text ahead.start) := by
  subst htoken
  exact .trailing (isReal_iff.mpr hreal)

/-- The rules of the grammar are those for chains and the one for factors. -/
inductive IsRule : String → Prop
  | chain (p : Precedence) : IsRule p.rule
  | factor : IsRule factorRule

/-- What may hold of a cursor, the lexemes that are consumed from there on, the
fault that is met, and the cursor left behind. -/
abbrev Contract : Type := Cursor → List Lexeme → Option Fault → Cursor → Prop

/-- The contract holds of an operation that consumes the lexemes. -/
def Contract.Holds (P : Contract) (s : Cursor) (taken : List Lexeme)
    (r : Except Fault α × Cursor) : Prop :=
  P s taken (fault? r.1) r.2

/-- A contract that holds across every move of a rule. -/
structure Contract.Kept (P : Contract) : Prop where
  /-- It holds where nothing happens. -/
  nothing : ∀ s, P s [] none s
  /-- It holds across two stretches if it holds across both. -/
  trans : ∀ {s s₁ s₂ first second fault}, P s first none s₁ → P s₁ second fault s₂ →
    P s (first ++ second) fault s₂
  /-- It holds across a look ahead. -/
  peek : ∀ s, P.Holds s [] s.peek
  /-- It holds where the tracer notes that a rule is entered. -/
  enter : ∀ {s ahead rule}, IsRule rule → s.lookahead = some ahead →
    P s [] none { s with tracer := s.tracer.enter rule ahead }
  /-- It holds where the tracer notes that a rule is left. -/
  exit : ∀ {s ahead rule}, IsRule rule → s.lookahead = some ahead →
    P s [] none { s with tracer := s.tracer.exit rule ahead }
  /-- It holds where the lookahead is consumed. The rules never consume the end of
  the input. -/
  consume : ∀ {s ahead}, s.lookahead = some ahead → ahead.isReal = true →
    P s [ahead] none (s.consume ahead)
  /-- It holds where the lookahead is consumed and opens a group. -/
  openGroup : ∀ {s ahead}, s.lookahead = some ahead → ahead.token = .leftParen →
    P.Holds s [ahead] ((s.consume ahead).openGroup ahead.start)
  /-- It holds where a group is closed. -/
  closeGroup : ∀ s, P s [] none s.closeGroup
  /-- It holds where the lookahead is refused. -/
  refuse : ∀ {s ahead fault}, s.lookahead = some ahead → ahead.Refused fault →
    P s [] (some fault) s

namespace Contract.Kept

variable {P : Contract}

/-- A contract holds across a sequence if it holds across its operations. -/
theorem andThen (h : P.Kept) {s : Cursor} {first : List Lexeme} {r : Except Fault α × Cursor}
    {more : α → Cursor → List Lexeme} {next : α → Cursor → Except Fault β × Cursor}
    (hfirst : P.Holds s first r)
    (hnext : ∀ a s₁, r = (.ok a, s₁) → P.Holds s₁ (more a s₁) (next a s₁)) :
    P.Holds s (first ++ takenAfter r more) (andThen r next) := by
  obtain ⟨fault | a, s₁⟩ := r
  · change P s (first ++ []) (some fault) s₁
    rw [List.append_nil]
    exact hfirst
  · exact h.trans hfirst (hnext a s₁ rfl)

/-- A contract holds across a look ahead and what follows it. -/
theorem peek_andThen (h : P.Kept) {s : Cursor} {more : Lexeme → Cursor → List Lexeme}
    {next : Lexeme → Cursor → Except Fault β × Cursor}
    (hnext : ∀ ahead s₁, s.peek = (.ok ahead, s₁) → P.Holds s₁ (more ahead s₁) (next ahead s₁)) :
    P.Holds s (takenAfter s.peek more) (Calculator.andThen s.peek next) :=
  h.andThen (h.peek s) hnext

/-- A look ahead and a note about it consume nothing. -/
theorem peek_note (h : P.Kept) {s : Cursor} (note : Lexeme → Tracer → Tracer)
    (hnote : ∀ {s₁ : Cursor} {ahead}, s₁.lookahead = some ahead →
      P s₁ [] none { s₁ with tracer := note ahead s₁.tracer }) :
    P.Holds s [] (Calculator.andThen s.peek fun ahead s =>
      (.ok (), { s with tracer := note ahead s.tracer })) := by
  rw [← takenAfter_nothing s.peek]
  apply h.peek_andThen
  intro ahead s₁ hpeek
  exact hnote (Cursor.lookahead_of_peek hpeek)

/-- A contract holds across the entry into a rule. -/
theorem enterRule (h : P.Kept) (s : Cursor) {rule : String} (hrule : IsRule rule) :
    P.Holds s [] (s.enter rule) := by
  unfold Cursor.enter
  split
  · exact h.peek_note (fun ahead tracer => tracer.enter rule ahead) (h.enter hrule)
  · exact h.nothing s

/-- A contract holds across the way out of a rule. -/
theorem leaveRule (h : P.Kept) (s : Cursor) {rule : String} (hrule : IsRule rule) (tree : Tree) :
    P.Holds s [] (s.leave rule tree) := by
  have hexit : P.Holds s [] (s.exit rule) := by
    unfold Cursor.exit
    split
    · exact h.peek_note (fun ahead tracer => tracer.exit rule ahead) (h.exit hrule)
    · exact h.nothing s
  rw [← takenAfter_nothing (s.exit rule)]
  exact h.andThen hexit fun _ s₁ _ => h.nothing s₁

/-- A contract holds across the closing of a group. -/
theorem closing (h : P.Kept) (s : Cursor) (openedAt : Nat) (inner : Tree) :
    P.Holds s s.closeTaken (s.close openedAt inner) := by
  apply h.peek_andThen
  intro ahead s₁ hpeek
  have hahead := Cursor.lookahead_of_peek hpeek
  cases htoken : ahead.token with
  | rightParen =>
    have hreal : ahead.isReal = true := by simp [Lexeme.isReal, htoken]
    exact h.trans (h.consume hahead hreal) (h.closeGroup _)
  | endOfInput => exact h.refuse hahead (.unclosed openedAt (by simp [Lexeme.isReal, htoken]))
  | number value => exact h.refuse hahead (.of_misplaced htoken (by simp) _)
  | operator op => exact h.refuse hahead (.of_misplaced htoken (by simp) _)
  | leftParen => exact h.refuse hahead (.of_misplaced htoken (by simp) _)

/-- A contract holds across a group and the parenthesis that opens it, if it
holds across the chain inside. -/
theorem grouping (h : P.Kept) {s : Cursor} {ahead : Lexeme} (hahead : s.lookahead = some ahead)
    (htoken : ahead.token = .leftParen)
    (hchain : ∀ s₁, (s.consume ahead).openGroup ahead.start = (.ok (), s₁) →
      P.Holds s₁ (s₁.chainTaken .additive) (s₁.chain .additive)) :
    P.Holds s (ahead :: (s.consume ahead).groupTaken ahead.start)
      ((s.consume ahead).group ahead.start) := by
  apply h.andThen (h.openGroup hahead htoken)
  intro _ s₁ hopen
  apply h.andThen (hchain s₁ hopen)
  intro inner s₂ _
  exact h.closing s₂ ahead.start inner

/-- A contract holds across a factor that begins with the lookahead, if it holds
across the chain inside a group. -/
theorem factorAt (h : P.Kept) {s : Cursor} {ahead : Lexeme} (hahead : s.lookahead = some ahead)
    (hchain : ∀ s₁, ahead.token = .leftParen →
      (s.consume ahead).openGroup ahead.start = (.ok (), s₁) →
      P.Holds s₁ (s₁.chainTaken .additive) (s₁.chain .additive)) :
    P.Holds s (s.factorTakenAt ahead) (s.factorAt ahead) := by
  unfold Cursor.factorTakenAt Cursor.factorAt
  cases htoken : ahead.token with
  | number value =>
    have hreal : ahead.isReal = true := by simp [Lexeme.isReal, htoken]
    exact h.trans (h.consume hahead hreal) (h.leaveRule _ .factor _)
  | leftParen =>
    have hleave := h.andThen (h.grouping hahead htoken fun s₁ => hchain s₁ htoken)
      fun tree s₁ _ => h.leaveRule s₁ .factor tree
    rwa [takenAfter_nothing, List.append_nil] at hleave
  | endOfInput => exact h.refuse hahead (.ended _ (by simp [Lexeme.isReal, htoken]))
  | operator op => exact h.refuse hahead (.of_misplaced htoken (by simp) _)
  | rightParen => exact h.refuse hahead (.of_misplaced htoken (by simp) _)

/-- A contract that holds across every move holds across every rule. -/
theorem rules (h : P.Kept) :
    (∀ p s, P.Holds s (Cursor.chainTaken s p) (s.chain p)) ∧
    (∀ p s, P.Holds s (Cursor.operandTaken s p) (s.operand p)) ∧
    (∀ p left s, P.Holds s (Cursor.restTaken s p left) (s.chainRest p left)) ∧
    ∀ s, P.Holds s (Cursor.factorTaken s) s.factor := by
  apply Cursor.descent_induction
  · intro p s ih
    rw [Cursor.chain_eq, Cursor.chainTaken_eq]
    apply h.andThen (h.enterRule s (.chain p))
    intro _ s₁ henter
    obtain ⟨hoperand, hrest⟩ := ih s₁ henter
    exact h.andThen hoperand hrest
  · intro s hchain
    rwa [Cursor.operand_additive, Cursor.operandTaken_additive]
  · intro s hfactor
    rwa [Cursor.operand_multiplicative, Cursor.operandTaken_multiplicative]
  · intro p left s ih
    rw [Cursor.chainRest_eq_chainRestAt, Cursor.restTaken_eq]
    apply h.peek_andThen
    intro ahead s₁ hpeek
    rcases ahead.stops_or_goesOn p with hstop | ⟨op, hop, hprecedence⟩
    · rw [Cursor.chainRestAt_of_stop hstop, Cursor.restTakenAt_of_stop hstop]
      exact h.leaveRule s₁ (.chain p) left
    · obtain ⟨hoperand, hrest⟩ := ih ahead s₁ op hpeek hop hprecedence
      rw [Cursor.chainRestAt_of_operator hop hprecedence,
        Cursor.restTakenAt_of_operator hop hprecedence]
      have hconsume := h.consume (Cursor.lookahead_of_peek hpeek) (Lexeme.isReal_of_operator? hop)
      exact h.trans hconsume (h.andThen hoperand hrest)
  · intro s ih
    rw [Cursor.factor_eq_factorAt, Cursor.factorTaken_eq]
    apply h.andThen (h.enterRule s .factor)
    intro _ s₁ henter
    apply h.peek_andThen
    intro ahead s₂ hpeek
    exact h.factorAt (Cursor.lookahead_of_peek hpeek) fun s₃ =>
      ih s₁ ahead s₂ s₃ henter hpeek

/-- A contract holds across the check that nothing is left behind a tree. -/
theorem finishing (h : P.Kept) (s : Cursor) (tree : Tree) : P.Holds s [] (s.finish tree) := by
  have hfinish : P.Holds s (takenAfter s.peek fun _ _ => []) (s.finish tree) := by
    apply h.peek_andThen
    intro ahead s₁ hpeek
    have hahead := Cursor.lookahead_of_peek hpeek
    cases htoken : ahead.token with
    | endOfInput => exact h.nothing s₁
    | number value => exact h.refuse hahead (.of_trailing htoken (by simp))
    | operator op => exact h.refuse hahead (.of_trailing htoken (by simp))
    | leftParen => exact h.refuse hahead (.of_trailing htoken (by simp))
    | rightParen => exact h.refuse hahead (.of_trailing htoken (by simp))
  rwa [takenAfter_nothing] at hfinish

/-- A contract that holds across every move holds across the reading of a whole
text. -/
theorem expression (h : P.Kept) (s : Cursor) :
    P.Holds s s.expressionTaken s.expression := by
  rw [Cursor.expression_eq_finish]
  apply h.peek_andThen
  intro ahead s₁ hpeek
  cases hreal : ahead.isReal with
  | true =>
    have hread := h.andThen (h.rules.1 .additive s₁) fun tree s₂ _ => h.finishing s₂ tree
    rwa [takenAfter_nothing, List.append_nil] at hread
  | false => exact h.refuse (Cursor.lookahead_of_peek hpeek) (.empty hreal)

/-- A contract holds where a lexeme is taken, if it also holds where the end of
the input is consumed. -/
theorem advance (h : P.Kept)
    (hconsume : ∀ {s ahead}, s.lookahead = some ahead → P s [ahead] none (s.consume ahead))
    (s : Cursor) :
    P.Holds s (takenAfter s.advance fun lexeme _ => [lexeme]) s.advance := by
  have htaken : takenAfter s.advance (fun lexeme _ => [lexeme]) =
      takenAfter s.peek fun ahead _ => [ahead] := by
    unfold Cursor.advance
    obtain ⟨fault | ahead, s₁⟩ := s.peek <;> rfl
  rw [htaken]
  apply h.peek_andThen
  intro ahead s₁ hpeek
  exact hconsume (Cursor.lookahead_of_peek hpeek)

end Contract.Kept

end Calculator
