import Calculator.Proofs.Parsing

/-!
# A flat machine that reports the same faults

The machine goes once through the items of a scan. All it remembers is whether
an operand or an operator comes next, and the offsets of the parentheses that
are open. It builds no tree and calls no rule, and yet fails on the same texts
as the descent, each time with the same fault.

Where a rule succeeds, the phrase that it has read takes the machine from
expecting an operand to expecting an operator with the same parentheses open.
Where a rule fails, the machine fails in the same way.
-/

namespace Calculator

/-- What a machine expects next. -/
inductive Mode where
  /-- A number or a group. -/
  | operand
  /-- An operator, or the end of a group or of the text. -/
  | operator
  deriving DecidableEq

/-- The state of the flat machine. -/
structure Machine where
  /-- What comes next. -/
  mode : Mode
  /-- The offsets of the open parentheses, the innermost first. -/
  opened : List Nat
  /-- Whether a token has been read. -/
  started : Bool
  deriving DecidableEq

namespace Machine

/-- The state in front of the first item. -/
def initial : Machine := ⟨.operand, [], false⟩

/-- Reads a lexeme where an operand is expected. -/
def readOperand (limit size : Nat) (m : Machine) (lexeme : Lexeme) : Except Fault Machine :=
  match lexeme.token with
  | .number _ => .ok ⟨.operator, m.opened, true⟩
  | .leftParen =>
    if limit ≤ m.opened.length then .error (.nestingTooDeep limit lexeme.start)
    else .ok ⟨.operand, lexeme.start :: m.opened, true⟩
  | .endOfInput =>
    if m.started then .error (.unexpectedEnd "operand" size) else .error .emptyInput
  | token => .error (.unexpectedToken "operand" token.text lexeme.start)

/-- Reads a lexeme where an operator is expected. The end of the input is
accepted when no parenthesis is open. -/
def readOperator (size : Nat) (m : Machine) (lexeme : Lexeme) : Except Fault Machine :=
  match lexeme.token, m.opened with
  | .operator _, opened => .ok ⟨.operand, opened, true⟩
  | .rightParen, _ :: opened => .ok ⟨.operator, opened, true⟩
  | .endOfInput, [] => .ok m
  | .endOfInput, openedAt :: _ => .error (.unclosedGroup openedAt size)
  | token, [] => .error (.trailingToken token.text lexeme.start)
  | token, _ :: _ => .error (.unexpectedToken "')'" token.text lexeme.start)

/-- Reads a lexeme. -/
def read (limit size : Nat) (m : Machine) (lexeme : Lexeme) : Except Fault Machine :=
  match m.mode with
  | .operand => m.readOperand limit size lexeme
  | .operator => m.readOperator size lexeme

/-- Goes over one item. An unrecognized character is reported at any time. -/
def step (limit size : Nat) (m : Machine) : Except Unrecognized Lexeme → Except Fault Machine
  | .error unrecognized => .error (.unrecognized unrecognized)
  | .ok lexeme => m.read limit size lexeme

/-- Goes over the items one after the other, up to the first fault. -/
def run (limit size : Nat) (m : Machine) (items : List (Except Unrecognized Lexeme)) :
    Except Fault Machine :=
  items.foldlM (step limit size) m

/-! ### Steps -/

variable {limit size : Nat} {opened : List Nat} {started : Bool} {lexeme : Lexeme}

/-- A number is an operand. -/
theorem step_number {value : Float} (htoken : lexeme.token = .number value) :
    (⟨.operand, opened, started⟩ : Machine).step limit size (.ok lexeme) =
      .ok ⟨.operator, opened, true⟩ := by
  simp [step, read, readOperand, htoken]

/-- A group is opened if the limit allows it. -/
theorem step_leftParen (htoken : lexeme.token = .leftParen) (hlt : opened.length < limit) :
    (⟨.operand, opened, started⟩ : Machine).step limit size (.ok lexeme) =
      .ok ⟨.operand, lexeme.start :: opened, true⟩ := by
  simp only [step, read, readOperand, htoken, if_neg (Nat.not_le.mpr hlt)]

/-- No group is opened beyond the limit. -/
theorem step_leftParen_error (htoken : lexeme.token = .leftParen) (hle : limit ≤ opened.length) :
    (⟨.operand, opened, started⟩ : Machine).step limit size (.ok lexeme) =
      .error (.nestingTooDeep limit lexeme.start) := by
  simp only [step, read, readOperand, htoken, if_pos hle]

/-- Behind an operator an operand is expected. -/
theorem step_operator {op : Operator} (htoken : lexeme.token = .operator op) :
    (⟨.operator, opened, started⟩ : Machine).step limit size (.ok lexeme) =
      .ok ⟨.operand, opened, true⟩ := by
  simp [step, read, readOperator, htoken]

/-- A right parenthesis closes the innermost group. -/
theorem step_rightParen {openedAt : Nat} (htoken : lexeme.token = .rightParen) :
    (⟨.operator, openedAt :: opened, started⟩ : Machine).step limit size (.ok lexeme) =
      .ok ⟨.operator, opened, true⟩ := by
  simp [step, read, readOperator, htoken]

/-- The steps that the machine can take over a lexeme. -/
inductive Goes (limit : Nat) (lexeme : Lexeme) : Machine → Machine → Prop
  /-- A number is an operand. -/
  | number {value : Float} {opened : List Nat} {started : Bool} :
      lexeme.token = .number value →
      Goes limit lexeme ⟨.operand, opened, started⟩ ⟨.operator, opened, true⟩
  /-- A left parenthesis opens a group, if the limit allows it. -/
  | leftParen {opened : List Nat} {started : Bool} :
      lexeme.token = .leftParen → opened.length < limit →
      Goes limit lexeme ⟨.operand, opened, started⟩ ⟨.operand, lexeme.start :: opened, true⟩
  /-- An operator follows an operand. -/
  | operator {op : Operator} {opened : List Nat} {started : Bool} :
      lexeme.token = .operator op →
      Goes limit lexeme ⟨.operator, opened, started⟩ ⟨.operand, opened, true⟩
  /-- A right parenthesis closes the innermost group. -/
  | rightParen {openedAt : Nat} {opened : List Nat} {started : Bool} :
      lexeme.token = .rightParen →
      Goes limit lexeme ⟨.operator, openedAt :: opened, started⟩ ⟨.operator, opened, true⟩
  /-- The text may end where no group is open. -/
  | atEnd {started : Bool} :
      lexeme.token = .endOfInput →
      Goes limit lexeme ⟨.operator, [], started⟩ ⟨.operator, [], started⟩

/-- The machine takes these steps and no others. -/
theorem step_eq_ok_iff {m m' : Machine} :
    m.step limit size (.ok lexeme) = .ok m' ↔ m.Goes limit lexeme m' := by
  constructor
  · intro hstep
    obtain ⟨mode, opened, started⟩ := m
    cases mode with
    | operand =>
      simp only [step, read, readOperand] at hstep
      split at hstep
      · rename_i htoken
        cases hstep
        exact .number htoken
      · rename_i htoken
        split at hstep
        · cases hstep
        · rename_i hle
          cases hstep
          exact .leftParen htoken (Nat.lt_of_not_le hle)
      · split at hstep <;> cases hstep
      · cases hstep
    | operator =>
      simp only [step, read, readOperator] at hstep
      split at hstep
      · rename_i htoken
        cases hstep
        exact .operator htoken
      · rename_i htoken
        cases hstep
        exact .rightParen htoken
      · rename_i htoken
        cases hstep
        exact .atEnd htoken
      · cases hstep
      · cases hstep
      · cases hstep
  · intro hgoes
    cases hgoes with
    | number htoken => exact step_number htoken
    | leftParen htoken hlt => exact step_leftParen htoken hlt
    | operator htoken => exact step_operator htoken
    | rightParen htoken => exact step_rightParen htoken
    | atEnd htoken => simp [step, read, readOperator, htoken]

/-! ### Runs -/

/-- After a step the machine goes on with the other items. -/
theorem run_of_step {m m' : Machine} {item : Except Unrecognized Lexeme}
    (hstep : m.step limit size item = .ok m') (items : List (Except Unrecognized Lexeme)) :
    m.run limit size (item :: items) = m'.run limit size items := by
  simp only [run, List.foldlM_cons, hstep]
  rfl

/-- A fault ends the run. -/
theorem run_of_step_error {m : Machine} {item : Except Unrecognized Lexeme} {found : Fault}
    (hstep : m.step limit size item = .error found) (items : List (Except Unrecognized Lexeme)) :
    m.run limit size (item :: items) = .error found := by
  simp only [run, List.foldlM_cons, hstep]
  rfl

/-- A run over items goes on with what follows them. -/
theorem run_append_of_run {m m' : Machine} {items : List (Except Unrecognized Lexeme)}
    (hrun : m.run limit size items = .ok m') (more : List (Except Unrecognized Lexeme)) :
    m.run limit size (items ++ more) = m'.run limit size more := by
  unfold run at hrun ⊢
  rw [List.foldlM_append, hrun]
  rfl

/-- A lexeme that is not the end of the input is read in the same way at the
start and later. -/
theorem run_initial (hreal : lexeme.isReal = true)
    (items : List (Except Unrecognized Lexeme)) :
    initial.run limit size (.ok lexeme :: items) =
      (⟨.operand, [], true⟩ : Machine).run limit size (.ok lexeme :: items) := by
  have hstep : initial.step limit size (.ok lexeme) =
      (⟨.operand, [], true⟩ : Machine).step limit size (.ok lexeme) := by
    cases htoken : lexeme.token with
    | endOfInput => simp [Lexeme.isReal, htoken] at hreal
    | number value => simp [initial, step, read, readOperand, htoken]
    | operator op => simp [initial, step, read, readOperand, htoken]
    | leftParen => simp [initial, step, read, readOperand, htoken]
    | rightParen => simp [initial, step, read, readOperand, htoken]
  simp only [run, List.foldlM_cons, hstep]

end Machine

/-! ## The items ahead -/

/-- The items of a scan begin with its first lexeme. -/
theorem Scan.items_cons (lexeme : Lexeme) (lexemes : List Lexeme) (fault : Option Unrecognized)
    (size : Nat) :
    items ⟨lexeme :: lexemes, fault, size⟩ = .ok lexeme :: items ⟨lexemes, fault, size⟩ := rfl

/-- The items of a scan begin with its first lexemes. -/
theorem Scan.items_append (first rest : List Lexeme) (fault : Option Unrecognized) (size : Nat) :
    items ⟨first ++ rest, fault, size⟩ = first.map .ok ++ items ⟨rest, fault, size⟩ := by
  simp only [items, List.map_append, List.append_assoc]

/-! ## Phrases -/

/-- A phrase takes the machine from expecting an operand to expecting an
operator, with the same parentheses open. -/
theorem Derives.run_phrase {category : Category} {tokens : List Token} {tree : Tree}
    (h : Derives category tokens tree) {phrase : List Lexeme} {limit : Nat} {opened : List Nat}
    (size : Nat) (started : Bool) (htokens : phrase.map Lexeme.token = tokens)
    (hdeep : deepest opened.length tokens ≤ limit) :
    (⟨.operand, opened, started⟩ : Machine).run limit size (phrase.map .ok) =
      .ok ⟨.operator, opened, true⟩ := by
  induction h generalizing phrase opened started with
  | single _ ih => exact ih started htokens hdeep
  | @joined p op left right leftTree rightTree hleft _ _ ihleft ihright =>
    obtain ⟨first, more, rfl, hfirst, hmore⟩ := List.map_eq_append_iff.mp htokens
    obtain ⟨lexeme, operand, rfl, hlexeme, hoperand⟩ := List.map_eq_cons_iff.mp hmore
    rw [hleft.deepest_joined] at hdeep
    rw [List.map_append, List.map_cons,
      Machine.run_append_of_run (ihleft started hfirst (by omega)),
      Machine.run_of_step (Machine.step_operator hlexeme)]
    exact ihright true hoperand (by omega)
  | number value =>
    obtain ⟨lexeme, tail, rfl, hlexeme, htail⟩ := List.map_eq_cons_iff.mp htokens
    cases List.map_eq_nil_iff.mp htail
    exact Machine.run_of_step (Machine.step_number hlexeme) []
  | @group tokens tree hinner ih =>
    obtain ⟨lexeme, more, rfl, hlexeme, hmore⟩ := List.map_eq_cons_iff.mp htokens
    obtain ⟨inner, last, rfl, hinnerTokens, hlast⟩ := List.map_eq_append_iff.mp hmore
    obtain ⟨close, tail, rfl, hclose, htail⟩ := List.map_eq_cons_iff.mp hlast
    cases List.map_eq_nil_iff.mp htail
    rw [hinner.deepest_group] at hdeep
    have hle := le_deepest (opened.length + 1) tokens
    have hinside : (⟨.operand, lexeme.start :: opened, true⟩ : Machine).run limit size
        (inner.map .ok) = .ok ⟨.operator, lexeme.start :: opened, true⟩ :=
      ih true hinnerTokens hdeep
    rw [List.map_cons, List.map_append,
      Machine.run_of_step (Machine.step_leftParen hlexeme (by omega)),
      Machine.run_append_of_run hinside]
    exact Machine.run_of_step (Machine.step_rightParen hclose) []

/-- Behind a phrase the machine goes on with an operator expected. -/
theorem Derives.run_items {category : Category} {phrase : List Lexeme} {tree : Tree}
    (h : Derives category (phrase.map Lexeme.token) tree) {limit : Nat} {opened : List Nat}
    (started : Bool) (hdeep : deepest opened.length (phrase.map Lexeme.token) ≤ limit)
    (rest : List Lexeme) (fault : Option Unrecognized) (size : Nat) :
    (⟨.operand, opened, started⟩ : Machine).run limit size
        (Scan.items ⟨phrase ++ rest, fault, size⟩) =
      (⟨.operator, opened, true⟩ : Machine).run limit size (Scan.items ⟨rest, fault, size⟩) := by
  rw [Scan.items_append]
  exact Machine.run_append_of_run (h.run_phrase size started rfl hdeep) _

/-! ## What the lexeme ahead decides -/

namespace Cursor.Faces

variable {s s₁ : Cursor} {lexemes : List Lexeme} {fault : Option Unrecognized}
  {size nesting limit : Nat} {found : Fault}

/-- The machine fails with the fault that a look meets. -/
theorem run_of_peek_error (hfaces : s.Faces ⟨lexemes, fault, size⟩ nesting limit)
    (hpeek : s.peek = (.error found, s₁)) (m : Machine) :
    m.run limit size (Scan.items ⟨lexemes, fault, size⟩) = .error found := by
  obtain ⟨rfl, unrecognized, rfl, rfl⟩ := hfaces.of_peek_error hpeek
  exact Machine.run_of_step_error rfl []

/-- The machine fails if it does so at the lexeme ahead. The end of the input is
where the text ends. -/
theorem run_of_ahead {ahead : Lexeme} {m : Machine}
    (hfaces : s.Faces ⟨lexemes, fault, size⟩ nesting limit) (hpeek : s.peek = (.ok ahead, s₁))
    (hstep : (ahead.token = .endOfInput → ahead.start = size) →
      m.step limit size (.ok ahead) = .error found) :
    m.run limit size (Scan.items ⟨lexemes, fault, size⟩) = .error found := by
  obtain ⟨_, ⟨behind, rfl, _⟩ | ⟨rfl, rfl, rfl⟩⟩ := hfaces.of_peek_ok hpeek
  · apply Machine.run_of_step_error
    apply hstep
    intro htoken
    have hreal := hfaces.real ahead (by simp)
    simp [Lexeme.isReal, htoken] at hreal
  · exact Machine.run_of_step_error (hstep fun _ => rfl) []

/-- Where an expression ends, no operator is ahead. -/
theorem ahead_ne_operator {ahead : Lexeme} (hfaces : s.Faces ⟨lexemes, fault, size⟩ nesting limit)
    (hends : Category.expression.Ends ⟨lexemes, fault, size⟩) (hpeek : s.peek = (.ok ahead, s₁))
    (op : Operator) : ahead.token ≠ .operator op := by
  intro htoken
  obtain ⟨_, ⟨behind, rfl, _⟩ | ⟨_, _, rfl⟩⟩ := hfaces.of_peek_ok hpeek
  · cases (hends op (by rw [htoken]; rfl)).2
  · cases htoken

/-- The machine fails where a group is not closed. -/
theorem run_of_close {openedAt : Nat} {inner : Tree} {opened : List Nat} {s' : Cursor}
    (hfaces : s.Faces ⟨lexemes, fault, size⟩ nesting limit)
    (hends : Category.expression.Ends ⟨lexemes, fault, size⟩)
    (hclose : s.close openedAt inner = (.error found, s')) :
    (⟨.operator, openedAt :: opened, true⟩ : Machine).run limit size
      (Scan.items ⟨lexemes, fault, size⟩) = .error found := by
  rcases andThen_eq_error hclose with hpeek | ⟨ahead, s₁, hpeek, hnext⟩
  · exact hfaces.run_of_peek_error hpeek _
  · apply hfaces.run_of_ahead hpeek
    intro hend
    cases htoken : ahead.token with
    | operator op => exact absurd htoken (hfaces.ahead_ne_operator hends hpeek op)
    | rightParen => simp [htoken] at hnext
    | number value =>
      simp only [htoken, Prod.mk.injEq, Except.error.injEq] at hnext
      simp [Machine.step, Machine.read, Machine.readOperator, htoken, hnext.1]
    | leftParen =>
      simp only [htoken, Prod.mk.injEq, Except.error.injEq] at hnext
      simp [Machine.step, Machine.read, Machine.readOperator, htoken, hnext.1]
    | endOfInput =>
      simp only [htoken, hend htoken, Prod.mk.injEq, Except.error.injEq] at hnext
      simp [Machine.step, Machine.read, Machine.readOperator, htoken, hnext.1]

/-- The machine fails where something is left behind a whole expression. -/
theorem run_of_finish {tree : Tree} {s' : Cursor}
    (hfaces : s.Faces ⟨lexemes, fault, size⟩ nesting limit)
    (hends : Category.expression.Ends ⟨lexemes, fault, size⟩)
    (hfinish : s.finish tree = (.error found, s')) :
    (⟨.operator, [], true⟩ : Machine).run limit size (Scan.items ⟨lexemes, fault, size⟩) =
      .error found := by
  rcases andThen_eq_error hfinish with hpeek | ⟨ahead, s₁, hpeek, hnext⟩
  · exact hfaces.run_of_peek_error hpeek _
  · apply hfaces.run_of_ahead hpeek
    intro _
    cases htoken : ahead.token with
    | operator op => exact absurd htoken (hfaces.ahead_ne_operator hends hpeek op)
    | endOfInput => simp [htoken] at hnext
    | number value =>
      simp only [htoken, Prod.mk.injEq, Except.error.injEq] at hnext
      simp [Machine.step, Machine.read, Machine.readOperator, htoken, hnext.1]
    | leftParen =>
      simp only [htoken, Prod.mk.injEq, Except.error.injEq] at hnext
      simp [Machine.step, Machine.read, Machine.readOperator, htoken, hnext.1]
    | rightParen =>
      simp only [htoken, Prod.mk.injEq, Except.error.injEq] at hnext
      simp [Machine.step, Machine.read, Machine.readOperator, htoken, hnext.1]

end Cursor.Faces

/-! ## Rules that fail -/

/-- In front of what the cursor faces, the machine in the mode fails with the
fault, whichever parentheses are open. -/
def Cursor.FailsLike (s : Cursor) (mode : Mode) (found : Fault) : Prop :=
  ∀ ⦃lexemes : List Lexeme⦄ ⦃fault : Option Unrecognized⦄ ⦃size limit : Nat⦄
    ⦃opened : List Nat⦄, s.Faces ⟨lexemes, fault, size⟩ opened.length limit →
    (⟨mode, opened, true⟩ : Machine).run limit size (Scan.items ⟨lexemes, fault, size⟩) =
      .error found

/-- The machine fails behind a phrase as it does behind the cursor that has read
the phrase. -/
theorem Cursor.HasRead.failsLike {s s₁ : Cursor} {category : Category} {tree : Tree}
    {found : Fault} (hread : s.HasRead s₁ category tree) (hfails : s₁.FailsLike .operator found) :
    s.FailsLike .operand found := by
  intro lexemes fault size limit opened hfaces
  obtain ⟨phrase, rest, rfl, hderives, hdeep, hfaces₁, _⟩ := hread hfaces
  rw [hderives.run_items true hdeep]
  exact hfails hfaces₁

/-- The machine fails behind an operator as it does behind the cursor that has
consumed the operator. -/
theorem Cursor.FailsLike.of_operator {s s₁ : Cursor} {ahead : Lexeme} {op : Operator}
    {found : Fault} (hpeek : s.peek = (.ok ahead, s₁)) (hop : ahead.token.operator? = some op)
    (hfails : (s₁.consume ahead).FailsLike .operand found) : s.FailsLike .operator found := by
  intro lexemes fault size limit opened hfaces
  have htoken := Token.eq_operator_of_operator? hop
  obtain ⟨_, ⟨behind, rfl, hconsumed⟩ | ⟨_, _, rfl⟩⟩ := hfaces.of_peek_ok hpeek
  · rw [Scan.items_cons, Machine.run_of_step (Machine.step_operator htoken)]
    exact hfails hconsumed
  · cases htoken

/-- The machine fails on a group as the rules do, if it does so inside. -/
theorem Cursor.failsLike_of_group {s s₁ s' : Cursor} {ahead : Lexeme} {found : Fault}
    (hpeek : s.peek = (.ok ahead, s₁)) (htoken : ahead.token = .leftParen)
    (hgroup : (s₁.consume ahead).group ahead.start = (.error found, s'))
    (hinner : ∀ s₂ s₃, (s₁.consume ahead).openGroup ahead.start = (.ok (), s₂) →
      s₂.chain .additive = (.error found, s₃) → s₂.FailsLike .operand found) :
    s.FailsLike .operand found := by
  intro lexemes fault size limit opened hfaces
  obtain ⟨_, ⟨behind, rfl, hconsumed⟩ | ⟨_, _, rfl⟩⟩ := hfaces.of_peek_ok hpeek
  · rw [Scan.items_cons]
    rcases andThen_eq_error hgroup with hopen | ⟨_, s₂, hopen, hinside⟩
    · obtain ⟨hfull, rfl⟩ := hconsumed.of_openGroup_error hopen
      exact Machine.run_of_step_error
        (Machine.step_leftParen_error htoken (Nat.le_of_eq hfull.symm)) _
    · have hfaces₂ := hconsumed.of_openGroup_ok hopen
      rw [Machine.run_of_step (Machine.step_leftParen htoken hfaces₂.nesting_le)]
      rcases andThen_eq_error hinside with hchain | ⟨inner, s₃, hchain, hclose⟩
      · exact hinner s₂ s' hopen hchain hfaces₂
      · obtain ⟨phrase, rest, rfl, hderives, hdeep, hfaces₃, hends⟩ :=
          rules_sound.1 _ _ _ _ hchain hfaces₂
        have hphrase : (⟨.operand, ahead.start :: opened, true⟩ : Machine).run limit size
            (Scan.items ⟨phrase ++ rest, fault, size⟩) = _ :=
          hderives.run_items true hdeep rest fault size
        rw [hphrase]
        exact hfaces₃.run_of_close hends hclose
  · cases htoken

/-- The machine fails where no operand begins. -/
theorem Cursor.failsLike_of_no_operand {s s₁ s' : Cursor} {ahead : Lexeme} {found : Fault}
    (hpeek : s.peek = (.ok ahead, s₁)) (hnumber : ∀ value, ahead.token ≠ .number value)
    (hleft : ahead.token ≠ .leftParen) (hfactor : s₁.factorAt ahead = (.error found, s')) :
    s.FailsLike .operand found := by
  intro lexemes fault size limit opened hfaces
  apply hfaces.run_of_ahead hpeek
  intro hend
  unfold factorAt at hfactor
  cases htoken : ahead.token with
  | number value => exact absurd htoken (hnumber value)
  | leftParen => exact absurd htoken hleft
  | operator op =>
    simp only [htoken, Prod.mk.injEq, Except.error.injEq] at hfactor
    simp [Machine.step, Machine.read, Machine.readOperand, htoken, hfactor.1]
  | rightParen =>
    simp only [htoken, Prod.mk.injEq, Except.error.injEq] at hfactor
    simp [Machine.step, Machine.read, Machine.readOperand, htoken, hfactor.1]
  | endOfInput =>
    simp only [htoken, hend htoken, Prod.mk.injEq, Except.error.injEq] at hfactor
    simp [Machine.step, Machine.read, Machine.readOperand, htoken, hfactor.1]

/-- Where a rule fails, the machine fails with the same fault. -/
theorem Cursor.rules_failLike :
    (∀ p s found s', Cursor.chain s p = (.error found, s') → s.FailsLike .operand found) ∧
    (∀ p s found s', Cursor.operand s p = (.error found, s') → s.FailsLike .operand found) ∧
    (∀ p left s found s', Cursor.chainRest s p left = (.error found, s') →
      s.FailsLike .operator found) ∧
    ∀ s found s', Cursor.factor s = (.error found, s') → s.FailsLike .operand found := by
  apply descent_induction
  · intro p s ih found s' hchain lexemes fault size limit opened hfaces
    have henter := enter_of_disabled hfaces.disabled p.rule
    rw [chain_eq, henter, andThen_ok] at hchain
    obtain ⟨ihleft, ihrest⟩ := ih s henter
    rcases andThen_eq_error hchain with hleft | ⟨left, s₁, hleft, hrest⟩
    · exact ihleft found s' hleft hfaces
    · have hread := rules_sound.2.1 p s left s₁ hleft
      exact hread.failsLike (ihrest left s₁ hleft found s' hrest) hfaces
  · intro s ih found s' hoperand
    rw [operand_additive] at hoperand
    exact ih found s' hoperand
  · intro s ih found s' hoperand
    rw [operand_multiplicative] at hoperand
    exact ih found s' hoperand
  · intro p left s ih found s' hrest lexemes fault size limit opened hfaces
    rw [chainRest_eq_chainRestAt] at hrest
    rcases andThen_eq_error hrest with hpeek | ⟨ahead, s₁, hpeek, hnext⟩
    · exact hfaces.run_of_peek_error hpeek _
    · rcases ahead.stops_or_goesOn p with hstop | ⟨op, hop, hprecedence⟩
      · have hdisabled := (hfaces.of_peek_ok hpeek).1.disabled
        rw [chainRestAt_of_stop hstop, leave_of_disabled hdisabled] at hnext
        cases hnext
      · rw [chainRestAt_of_operator hop hprecedence] at hnext
        obtain ⟨ihright, ihmore⟩ := ih ahead s₁ op hpeek hop hprecedence
        apply FailsLike.of_operator hpeek hop _ hfaces
        rcases andThen_eq_error hnext with hright | ⟨right, s₂, hright, hmore⟩
        · exact ihright found s' hright
        · have hread := rules_sound.2.1 p _ right s₂ hright
          exact hread.failsLike (ihmore right s₂ hright found s' hmore)
  · intro s ih found s' hfactor lexemes fault size limit opened hfaces
    have henter := enter_of_disabled hfaces.disabled factorRule
    rw [factor_eq_factorAt, henter, andThen_ok] at hfactor
    rcases andThen_eq_error hfactor with hpeek | ⟨ahead, s₁, hpeek, hnext⟩
    · exact hfaces.run_of_peek_error hpeek _
    by_cases hnumber : ∃ value, ahead.token = .number value
    · obtain ⟨value, htoken⟩ := hnumber
      have hread := hasRead_number hpeek htoken
      simp only [factorAt, htoken, leave_of_disabled (hread.disabled hfaces)] at hnext
      cases hnext
    by_cases hleft : ahead.token = .leftParen
    · simp only [factorAt, hleft] at hnext
      rcases andThen_eq_error hnext with hgroup | ⟨tree, s₂, hgroup, hleave⟩
      · apply failsLike_of_group hpeek hleft hgroup _ hfaces
        intro s₂ s₃ hopen hchain
        exact ih s ahead s₁ s₂ henter hpeek hleft hopen found s₃ hchain
      · have hread : s.HasRead s₂ .factor tree := by
          apply hasRead_of_group hpeek hleft hgroup
          intro s₃ inner s₄ _ hchain
          exact rules_sound.1 .additive s₃ inner s₄ hchain
        rw [leave_of_disabled (hread.disabled hfaces)] at hleave
        cases hleave
    · have hne (value : Float) : ahead.token ≠ .number value := fun htoken =>
        hnumber ⟨value, htoken⟩
      exact failsLike_of_no_operand hpeek hne hleft hnext hfaces

/-! ## Whole texts -/

/-- Where reading a whole text fails, the machine fails with the same fault. -/
theorem Cursor.Faces.run_of_expression_error {s s' : Cursor} {lexemes : List Lexeme}
    {fault : Option Unrecognized} {size limit : Nat} {found : Fault}
    (hfaces : s.Faces ⟨lexemes, fault, size⟩ 0 limit)
    (hread : s.expression = (.error found, s')) :
    Machine.initial.run limit size (Scan.items ⟨lexemes, fault, size⟩) = .error found := by
  rw [expression_eq_finish] at hread
  rcases andThen_eq_error hread with hpeek | ⟨ahead, s₁, hpeek, hnext⟩
  · exact hfaces.run_of_peek_error hpeek _
  obtain ⟨hfaces₁, hahead⟩ := hfaces.of_peek_ok hpeek
  rcases hahead with ⟨behind, rfl, _⟩ | ⟨rfl, rfl, rfl⟩
  · have hreal : ahead.isReal = true := hfaces.real ahead (by simp)
    rw [if_pos hreal] at hnext
    rcases andThen_eq_error hnext with hchain | ⟨tree, s₂, hchain, hfinish⟩
    · rw [Scan.items_cons, Machine.run_initial hreal, ← Scan.items_cons]
      have hfails : s₁.FailsLike .operand found := rules_failLike.1 _ _ _ _ hchain
      exact hfails (show s₁.Faces _ ([] : List Nat).length limit from hfaces₁)
    · obtain ⟨phrase, rest, hlexemes, hderives, hdeep, hfaces₂, hends⟩ :=
        rules_sound.1 _ _ _ _ hchain hfaces₁
      have hphrase : Machine.initial.run limit size
          (Scan.items ⟨phrase ++ rest, fault, size⟩) = _ :=
        hderives.run_items false hdeep rest fault size
      rw [hlexemes, hphrase]
      exact hfaces₂.run_of_finish hends hfinish
  · simp only [Lexeme.isReal, Lexeme.atEnd, Bool.false_eq_true, if_false, Prod.mk.injEq,
      Except.error.injEq] at hnext
    rw [← hnext.1]
    exact Machine.run_of_step_error rfl []

/-- Where a whole text is read, the machine accepts it. -/
theorem Cursor.Faces.run_of_expression_ok {s s' : Cursor} {lexemes : List Lexeme}
    {fault : Option Unrecognized} {size limit : Nat} {tree : Tree}
    (hfaces : s.Faces ⟨lexemes, fault, size⟩ 0 limit) (hread : s.expression = (.ok tree, s')) :
    Machine.initial.run limit size (Scan.items ⟨lexemes, fault, size⟩) =
      .ok ⟨.operator, [], true⟩ := by
  obtain ⟨rfl, hderives, hdeep⟩ := hfaces.derives_of_expression hread
  have hphrase : Machine.initial.run limit size (Scan.items ⟨lexemes ++ [], none, size⟩) = _ :=
    hderives.run_items false hdeep [] none size
  rw [List.append_nil] at hphrase
  rw [hphrase]
  exact Machine.run_of_step rfl []

/-- Reading a whole text fails if and only if the machine fails, and then with
the same fault. -/
theorem Cursor.Faces.expression_eq_error_iff {s : Cursor} {lexemes : List Lexeme}
    {fault : Option Unrecognized} {size limit : Nat}
    (hfaces : s.Faces ⟨lexemes, fault, size⟩ 0 limit) (found : Fault) :
    s.expression.1 = .error found ↔
      Machine.initial.run limit size (Scan.items ⟨lexemes, fault, size⟩) = .error found := by
  constructor
  · intro hread
    exact hfaces.run_of_expression_error (Prod.ext hread rfl)
  · intro hrun
    cases hread : s.expression.1 with
    | error found' =>
      rw [hfaces.run_of_expression_error (Prod.ext hread rfl)] at hrun
      cases hrun
      rfl
    | ok tree =>
      rw [hfaces.run_of_expression_ok (Prod.ext hread rfl)] at hrun
      cases hrun

/-- A text is not parsed if the machine fails on the items of its scan. -/
theorem Settings.parse_error_of_run {settings : Settings} {source : String} {scanned : Scan}
    {found : Fault} (hscan : scan source = scanned)
    (hrun : Machine.initial.run settings.limit scanned.size scanned.items = .error found) :
    settings.parse source = .error found := by
  subst hscan
  rw [settings.parse_eq_untraced]
  exact ((Cursor.faces_ofSource source settings.limit).expression_eq_error_iff found).mpr hrun

/-- Parsing a text fails if and only if the flat machine fails on the items of
its scan, and then with the same fault. -/
theorem Settings.parse_eq_error_iff_machine (settings : Settings) (source : String)
    (found : Fault) :
    settings.parse source = .error found ↔
      Machine.initial.run settings.limit source.utf8ByteSize (scan source).items =
        .error found := by
  rw [settings.parse_eq_untraced]
  exact (Cursor.faces_ofSource source settings.limit).expression_eq_error_iff found

end Calculator
