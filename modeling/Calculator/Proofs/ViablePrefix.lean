import Calculator.Proofs.FlatMachine

/-!
# Faults are found as early as possible

A list of tokens is viable if more tokens can make it an expression. What has
been read before a fault is always viable, and a token that is refused is one
that no expression could go on with. So an unrecognized character is reported
only behind a viable text, and a misplaced token only if no unrecognized
character lies in front of it.

The flat machine decides viability. Every state that it reaches can be
completed, by an operand if one is expected and then by the right parentheses
that are missing. Every prefix of an expression is gone over without a fault
once the limit is large enough.
-/

namespace Calculator

/-- The tokens are an expression of the grammar. -/
def Sentence (tokens : List Token) : Prop := ∃ tree, Derives .expression tokens tree

/-- The tokens can be extended to an expression of the grammar. -/
def Viable (tokens : List Token) : Prop := ∃ more, Sentence (tokens ++ more)

/-- Whether a fault was found at the end of the input. -/
def Fault.isAtEnd : Fault → Bool
  | .emptyInput | .unexpectedEnd _ _ | .unclosedGroup _ _ => true
  | _ => false

namespace Machine

variable {m m' : Machine} {limit limit' size : Nat} {lexeme : Lexeme} {lexemes : List Lexeme}
  {found : Fault}

/-! ## A larger limit -/

/-- What is read under a limit is read in the same way under a larger one. -/
theorem step_of_le {item : Except Unrecognized Lexeme} (hle : limit ≤ limit')
    (hstep : m.step limit size item = .ok m') : m.step limit' size item = .ok m' := by
  obtain ⟨mode, opened, started⟩ := m
  obtain unrecognized | lexeme := item
  · cases hstep
  cases mode with
  | operator => exact hstep
  | operand =>
    cases htoken : lexeme.token with
    | leftParen =>
      by_cases hlt : opened.length < limit
      · rw [step_leftParen htoken hlt] at hstep
        rw [step_leftParen htoken (by omega)]
        exact hstep
      · rw [step_leftParen_error htoken (by omega)] at hstep
        cases hstep
    | number value => simpa [step, read, readOperand, htoken] using hstep
    | operator op => simp [step, read, readOperand, htoken] at hstep
    | rightParen => simp [step, read, readOperand, htoken] at hstep
    | endOfInput => cases started <;> simp [step, read, readOperand, htoken] at hstep

/-- A run goes over its first item and then over the others. -/
theorem run_cons_eq_ok {item : Except Unrecognized Lexeme}
    {items : List (Except Unrecognized Lexeme)}
    (hrun : m.run limit size (item :: items) = .ok m') :
    ∃ m₁, m.step limit size item = .ok m₁ ∧ m₁.run limit size items = .ok m' := by
  cases hstep : m.step limit size item with
  | error found =>
    rw [run_of_step_error hstep] at hrun
    cases hrun
  | ok m₁ =>
    rw [run_of_step hstep] at hrun
    exact ⟨m₁, rfl, hrun⟩

/-- A run under a limit is also one under a larger limit. -/
theorem run_of_le {items : List (Except Unrecognized Lexeme)} (hle : limit ≤ limit')
    (hrun : m.run limit size items = .ok m') : m.run limit' size items = .ok m' := by
  induction items generalizing m with
  | nil => exact hrun
  | cons item items ih =>
    obtain ⟨m₁, hstep, hrest⟩ := run_cons_eq_ok hrun
    rw [run_of_step (step_of_le hle hstep)]
    exact ih hrest

/-! ## Completing what has been read -/

/-- Right parentheses close the groups that are open. -/
theorem run_closing (opened : List Nat) (started : Bool) :
    ∃ started', (⟨.operator, opened, started⟩ : Machine).run limit size
      ((placeholders (List.replicate opened.length .rightParen)).map .ok) =
        .ok ⟨.operator, [], started'⟩ := by
  induction opened generalizing started with
  | nil => exact ⟨started, rfl⟩
  | cons openedAt opened ih =>
    obtain ⟨started', hrun⟩ := ih true
    refine ⟨started', ?_⟩
    have hstep : (⟨.operator, openedAt :: opened, started⟩ : Machine).step limit size
        (.ok ⟨.rightParen, 0, 0⟩) = .ok ⟨.operator, opened, true⟩ := step_rightParen rfl
    exact (run_of_step hstep _).trans hrun

/-- From every state some tokens lead to the end of an expression. -/
theorem exists_completion (m : Machine) (limit size : Nat) :
    ∃ more started, (∀ token ∈ more, token ≠ .endOfInput) ∧
      m.run limit size ((placeholders more).map .ok) = .ok ⟨.operator, [], started⟩ := by
  obtain ⟨mode, opened, started⟩ := m
  have hclosing : ∀ token ∈ List.replicate opened.length Token.rightParen, token ≠ .endOfInput := by
    intro token htoken
    rw [List.eq_of_mem_replicate htoken]
    simp
  cases mode with
  | operator =>
    obtain ⟨started', hrun⟩ := run_closing opened started
    exact ⟨_, started', hclosing, hrun⟩
  | operand =>
    obtain ⟨started', hrun⟩ := run_closing opened true
    refine ⟨.number 0 :: List.replicate opened.length .rightParen, started', ?_, ?_⟩
    · intro token htoken
      rcases List.mem_cons.mp htoken with rfl | htoken
      · simp
      · exact hclosing token htoken
    · have hstep : (⟨.operand, opened, started⟩ : Machine).step limit size
          (.ok ⟨.number 0, 0, 0⟩) = .ok ⟨.operator, opened, true⟩ := step_number rfl
      exact (run_of_step hstep _).trans hrun

/-- What the machine accepts is an expression. -/
theorem sentence_of_run {started : Bool} (hreal : ∀ lexeme ∈ lexemes, lexeme.isReal = true)
    (hrun : initial.run limit size (lexemes.map .ok) = .ok ⟨.operator, [], started⟩) :
    Sentence (lexemes.map Lexeme.token) := by
  have hfaces := Cursor.faces_ofLexemes size limit hreal
  cases hread : (Cursor.ofLexemes lexemes size limit).expression.1 with
  | ok tree => exact ⟨tree, (hfaces.derives_of_expression (Prod.ext hread rfl)).2.1⟩
  | error found =>
    have hfails := (hfaces.expression_eq_error_iff found).mp hread
    have haccepts : initial.run limit size (Scan.items ⟨lexemes, none, size⟩) =
        .ok ⟨.operator, [], started⟩ := run_append_of_run hrun [.ok (Lexeme.atEnd size)]
    rw [hfails] at haccepts
    cases haccepts

/-- What the machine has gone over is viable. -/
theorem viable_of_run (hreal : ∀ lexeme ∈ lexemes, lexeme.isReal = true)
    (hrun : initial.run limit size (lexemes.map .ok) = .ok m) :
    Viable (lexemes.map Lexeme.token) := by
  obtain ⟨more, started, hmore, hcompletes⟩ := m.exists_completion limit size
  have hrealMore : ∀ lexeme ∈ placeholders more, lexeme.isReal = true :=
    isReal_of_map_token (by rwa [map_token_placeholders])
  refine ⟨more, ?_⟩
  have haccepts : initial.run limit size ((lexemes ++ placeholders more).map .ok) =
      .ok ⟨.operator, [], started⟩ := by
    rw [List.map_append, run_append_of_run hrun]
    exact hcompletes
  rw [← map_token_placeholders more, ← List.map_append]
  apply sentence_of_run _ haccepts
  intro lexeme hlexeme
  rcases List.mem_append.mp hlexeme with hlexeme | hlexeme
  · exact hreal lexeme hlexeme
  · exact hrealMore lexeme hlexeme

/-! ## Prefixes of expressions -/

/-- An expression is accepted once the limit is large enough. -/
theorem exists_run_of_sentence (hsentence : Sentence (lexemes.map Lexeme.token))
    (limit size : Nat) :
    ∃ limit', limit ≤ limit' ∧
      initial.run limit' size (lexemes.map .ok) = .ok ⟨.operator, [], true⟩ := by
  obtain ⟨tree, hderives⟩ := hsentence
  refine ⟨max limit (nestingDepth (lexemes.map Lexeme.token)), Nat.le_max_left _ _, ?_⟩
  exact hderives.run_phrase size false rfl (Nat.le_max_right _ _)

/-- A token at which the machine fails under every limit is one that no
expression can go on with. -/
theorem not_viable_of_step (hrun : initial.run limit size (lexemes.map .ok) = .ok m)
    (hstep : ∀ limit', m.step limit' size (.ok lexeme) = .error found) :
    ¬ Viable (lexemes.map Lexeme.token ++ [lexeme.token]) := by
  rintro ⟨more, hsentence⟩
  have htokens : (lexemes ++ lexeme :: placeholders more).map Lexeme.token =
      lexemes.map Lexeme.token ++ [lexeme.token] ++ more := by simp
  rw [← htokens] at hsentence
  obtain ⟨limit', hle, haccepts⟩ := exists_run_of_sentence hsentence limit size
  rw [List.map_append, run_append_of_run (run_of_le hle hrun), List.map_cons,
    run_of_step_error (hstep limit')] at haccepts
  cases haccepts

/-- If the machine does not end where an expression would, there is none. -/
theorem not_sentence_of_run (hrun : initial.run limit size (lexemes.map .ok) = .ok m)
    (hne : m ≠ ⟨.operator, [], true⟩) : ¬ Sentence (lexemes.map Lexeme.token) := by
  intro hsentence
  obtain ⟨limit', hle, haccepts⟩ := exists_run_of_sentence hsentence limit size
  rw [run_of_le hle hrun] at haccepts
  cases haccepts
  exact hne rfl

/-! ## Where a run fails -/

/-- A run over the items of a scan fails at a lexeme, at the unrecognized
character behind the lexemes, or at the end of the input. -/
theorem exists_failure {fault : Option Unrecognized}
    (hrun : m.run limit size (Scan.items ⟨lexemes, fault, size⟩) = .error found) :
    (∃ before bad behind m', lexemes = before ++ bad :: behind ∧
      m.run limit size (before.map .ok) = .ok m' ∧
      m'.step limit size (.ok bad) = .error found) ∨
    ∃ m', m.run limit size (lexemes.map .ok) = .ok m' ∧
      ((∃ unrecognized, fault = some unrecognized ∧ found = .unrecognized unrecognized) ∨
        fault = none ∧ m'.step limit size (.ok (Lexeme.atEnd size)) = .error found) := by
  induction lexemes generalizing m with
  | nil =>
    refine Or.inr ⟨m, rfl, ?_⟩
    cases fault with
    | some unrecognized =>
      have hfails : m.run limit size (Scan.items ⟨[], some unrecognized, size⟩) =
          .error (.unrecognized unrecognized) := run_of_step_error rfl []
      rw [hfails] at hrun
      cases hrun
      exact Or.inl ⟨unrecognized, rfl, rfl⟩
    | none =>
      refine Or.inr ⟨rfl, ?_⟩
      cases hstep : m.step limit size (.ok (Lexeme.atEnd size)) with
      | error found' => exact (run_of_step_error hstep []).symm.trans hrun
      | ok m' =>
        have haccepts : m.run limit size (Scan.items ⟨[], none, size⟩) = .ok m' :=
          run_of_step hstep []
        rw [haccepts] at hrun
        cases hrun
  | cons lexeme lexemes ih =>
    rw [Scan.items_cons] at hrun
    cases hstep : m.step limit size (.ok lexeme) with
    | error found' =>
      rw [run_of_step_error hstep] at hrun
      cases hrun
      exact Or.inl ⟨[], lexeme, lexemes, m, rfl, rfl, hstep⟩
    | ok m₁ =>
      rw [run_of_step hstep] at hrun
      rcases ih hrun with ⟨before, bad, behind, m', rfl, hbefore, hbad⟩ | ⟨m', hall, hend⟩
      · refine Or.inl ⟨lexeme :: before, bad, behind, m', rfl, ?_, hbad⟩
        rw [List.map_cons, run_of_step hstep]
        exact hbefore
      · refine Or.inr ⟨m', ?_, hend⟩
        rw [List.map_cons, run_of_step hstep]
        exact hall

/-- Where an operator is expected, a lexeme is refused as misplaced. -/
theorem readOperator_eq_error (hreal : lexeme.isReal = true)
    (hread : m.readOperator size lexeme = .error found) :
    (∃ expected, found = .unexpectedToken expected lexeme.token.text lexeme.start) ∨
      found = .trailingToken lexeme.token.text lexeme.start := by
  unfold readOperator at hread
  split at hread
  · cases hread
  · cases hread
  · cases hread
  · rename_i htoken _
    simp [Lexeme.isReal, htoken] at hreal
  · cases hread
    exact Or.inr rfl
  · cases hread
    exact Or.inl ⟨_, rfl⟩

/-- Where an operand is expected, a lexeme is refused because it opens a group
too many, or else under every limit and as misplaced. -/
theorem readOperand_eq_error (hreal : lexeme.isReal = true)
    (hread : m.readOperand limit size lexeme = .error found) :
    (lexeme.token = .leftParen ∧ found = .nestingTooDeep limit lexeme.start) ∨
    (∀ limit', m.readOperand limit' size lexeme = .error found) ∧
      found = .unexpectedToken "operand" lexeme.token.text lexeme.start := by
  unfold readOperand at hread ⊢
  split at hread
  · cases hread
  · rename_i htoken
    split at hread
    · cases hread
      exact Or.inl ⟨htoken, rfl⟩
    · cases hread
  · rename_i htoken
    simp [Lexeme.isReal, htoken] at hreal
  · cases hread
    right
    simp

/-- A lexeme is refused because it opens a group too many, or else under every
limit and as misplaced. -/
theorem step_eq_error (hreal : lexeme.isReal = true)
    (hstep : m.step limit size (.ok lexeme) = .error found) :
    (m.mode = .operand ∧ lexeme.token = .leftParen ∧
      found = .nestingTooDeep limit lexeme.start) ∨
    (∀ limit', m.step limit' size (.ok lexeme) = .error found) ∧
      ((∃ expected, found = .unexpectedToken expected lexeme.token.text lexeme.start) ∨
        found = .trailingToken lexeme.token.text lexeme.start) := by
  obtain ⟨mode, opened, started⟩ := m
  cases mode with
  | operator => exact Or.inr ⟨fun _ => hstep, readOperator_eq_error hreal hstep⟩
  | operand =>
    rcases readOperand_eq_error hreal hstep with ⟨htoken, hfound⟩ | ⟨hevery, hfound⟩
    · exact Or.inl ⟨rfl, htoken, hfound⟩
    · exact Or.inr ⟨hevery, Or.inl ⟨_, hfound⟩⟩

/-- The end of the input is refused with a fault of its own, and nowhere behind
an expression. -/
theorem step_atEnd_eq_error (hstep : m.step limit size (.ok (Lexeme.atEnd size)) = .error found) :
    found.isAtEnd = true ∧ m ≠ ⟨.operator, [], true⟩ := by
  obtain ⟨mode, opened, started⟩ := m
  cases mode with
  | operand =>
    cases started with
    | false =>
      cases hstep
      exact ⟨rfl, by simp⟩
    | true =>
      cases hstep
      exact ⟨rfl, by simp⟩
  | operator =>
    cases opened with
    | nil => cases hstep
    | cons openedAt opened =>
      cases hstep
      exact ⟨rfl, by simp⟩

/-- A parenthesis too many is still viable. -/
theorem viable_of_leftParen (hreal : ∀ lexeme ∈ lexemes, lexeme.isReal = true)
    (hrun : initial.run limit size (lexemes.map .ok) = .ok m) (hmode : m.mode = .operand)
    (htoken : lexeme.token = .leftParen) :
    Viable (lexemes.map Lexeme.token ++ [.leftParen]) := by
  obtain ⟨mode, opened, started⟩ := m
  cases hmode
  have hlarger := run_of_le (Nat.le_add_right limit (opened.length + 1)) hrun
  have hopens : initial.run (limit + (opened.length + 1)) size ((lexemes ++ [lexeme]).map .ok) =
      .ok ⟨.operand, lexeme.start :: opened, true⟩ := by
    rw [List.map_append, run_append_of_run hlarger]
    exact run_of_step (step_leftParen htoken (by omega)) []
  have hrealAll : ∀ lexeme' ∈ lexemes ++ [lexeme], lexeme'.isReal = true := by
    intro lexeme' hlexeme
    rcases List.mem_append.mp hlexeme with hlexeme | hlexeme
    · exact hreal lexeme' hlexeme
    · rw [List.mem_singleton.mp hlexeme]
      simp [Lexeme.isReal, htoken]
  simpa [htoken] using viable_of_run hrealAll hopens

end Machine

/-! ## What was read before a fault -/

namespace Scan

/-- The tokens of a scan that start in front of an offset. -/
def tokensBefore (scan : Scan) (position : Nat) : List Token :=
  (scan.lexemes.filter fun lexeme => lexeme.start < position).map Lexeme.token

/-- The tokens that had been read when the fault was found. The parenthesis that
opens one group too many is among them. -/
def tokensRead (scan : Scan) : Fault → List Token
  | .unrecognized unrecognized => scan.tokensBefore unrecognized.position
  | .unexpectedToken _ _ position => scan.tokensBefore position
  | .trailingToken _ position => scan.tokensBefore position
  | .nestingTooDeep _ position => scan.tokensBefore (position + 1)
  | .emptyInput | .unexpectedEnd _ _ | .unclosedGroup _ _ => scan.lexemes.map Lexeme.token

/-- The fault was found at the earliest token at which it could be. -/
structure FoundEarly (scan : Scan) (found : Fault) : Prop where
  /-- What had been read can be extended to an expression. -/
  viable : Viable (scan.tokensRead found)
  /-- A misplaced token stands at the reported offset, and with it what had been
  read can no longer be extended. -/
  misplaced : ∀ text position, (∃ expected, found = .unexpectedToken expected text position) ∨
    found = .trailingToken text position →
    ∃ lexeme ∈ scan.lexemes, lexeme.start = position ∧ lexeme.token.text = text ∧
      ¬ Viable (scan.tokensRead found ++ [lexeme.token])
  /-- Only the limit forbids a parenthesis that opens one group too many. -/
  tooDeep : ∀ limit position, found = .nestingTooDeep limit position →
    scan.tokensRead found = scan.tokensBefore position ++ [.leftParen]
  /-- A text that ends too early is no expression. -/
  atEnd : found.isAtEnd = true → scan.fault = none ∧ ¬ Sentence (scan.tokensRead found)
  /-- A character that is reported is the one at which scanning stopped. -/
  lexical : ∀ unrecognized, found = .unrecognized unrecognized → scan.fault = some unrecognized
  /-- Any other fault lies in front of the character at which scanning stopped. -/
  grammatical : found.isLexical = false → ∀ unrecognized, scan.fault = some unrecognized →
    ∃ position, found.position? = some position ∧ position < unrecognized.position

variable {before behind : List Lexeme} {bad : Lexeme} {fault : Option Unrecognized}
  {size position : Nat}

/-- The tokens in front of an offset are those of the lexemes in front of it. -/
theorem tokensBefore_append (hbefore : ∀ lexeme ∈ before, lexeme.start < position)
    (hbehind : ∀ lexeme ∈ behind, position ≤ lexeme.start) :
    tokensBefore ⟨before ++ behind, fault, size⟩ position = before.map Lexeme.token := by
  have hfirst : before.filter (fun lexeme => decide (lexeme.start < position)) = before :=
    List.filter_eq_self.mpr fun lexeme hlexeme => by simpa using hbefore lexeme hlexeme
  have hlast : behind.filter (fun lexeme => decide (lexeme.start < position)) = [] :=
    List.filter_eq_nil_iff.mpr fun lexeme hlexeme => by simpa using hbehind lexeme hlexeme
  unfold tokensBefore
  rw [List.filter_append, hfirst, hlast, List.append_nil]

/-- In front of a lexeme are the tokens of the lexemes before it. -/
theorem Ascending.tokensBefore_start (h : Ascending (before ++ bad :: behind) fault) :
    tokensBefore ⟨before ++ bad :: behind, fault, size⟩ bad.start = before.map Lexeme.token := by
  obtain ⟨_, hrest, hlt⟩ := List.pairwise_append.mp h.starts
  apply tokensBefore_append
  · intro lexeme hlexeme
    exact hlt lexeme hlexeme bad (by simp)
  · intro lexeme hlexeme
    rcases List.mem_cons.mp hlexeme with rfl | hlexeme
    · exact Nat.le_refl _
    · exact Nat.le_of_lt ((List.pairwise_cons.mp hrest).1 lexeme hlexeme)

/-- The lexeme at an offset is in front of the next offset. -/
theorem Ascending.tokensBefore_start_succ (h : Ascending (before ++ bad :: behind) fault) :
    tokensBefore ⟨before ++ bad :: behind, fault, size⟩ (bad.start + 1) =
      before.map Lexeme.token ++ [bad.token] := by
  obtain ⟨_, hrest, hlt⟩ := List.pairwise_append.mp h.starts
  have hsplit : before ++ bad :: behind = (before ++ [bad]) ++ behind := by simp
  rw [hsplit, tokensBefore_append, List.map_append, List.map_singleton]
  · intro lexeme hlexeme
    rcases List.mem_append.mp hlexeme with hlexeme | hlexeme
    · exact Nat.lt_succ_of_lt (hlt lexeme hlexeme bad (by simp))
    · rw [List.mem_singleton.mp hlexeme]
      exact Nat.lt_succ_self _
  · intro lexeme hlexeme
    exact (List.pairwise_cons.mp hrest).1 lexeme hlexeme

/-! ## Faults found early -/

variable {limit : Nat} {m : Machine} {found : Fault}

/-- A misplaced token is found early. -/
theorem foundEarly_of_misplaced (hreal : ∀ lexeme ∈ before, lexeme.isReal = true)
    (hascending : Ascending (before ++ bad :: behind) fault)
    (hrun : Machine.initial.run limit size (before.map .ok) = .ok m)
    (hrefused : ∀ limit', m.step limit' size (.ok bad) = .error found)
    (hfound : (∃ expected, found = .unexpectedToken expected bad.token.text bad.start) ∨
      found = .trailingToken bad.token.text bad.start) :
    FoundEarly ⟨before ++ bad :: behind, fault, size⟩ found := by
  have hread : tokensRead ⟨before ++ bad :: behind, fault, size⟩ found =
      before.map Lexeme.token := by
    rcases hfound with ⟨expected, rfl⟩ | rfl
    · exact hascending.tokensBefore_start
    · exact hascending.tokensBefore_start
  have hposition : found.position? = some bad.start := by
    rcases hfound with ⟨expected, rfl⟩ | rfl
    · rfl
    · rfl
  refine ⟨?_, ?_, ?_, ?_, ?_, ?_⟩
  · rw [hread]
    exact Machine.viable_of_run hreal hrun
  · intro text position hclaimed
    have hbad : bad.start = position ∧ bad.token.text = text := by
      rcases hfound with ⟨expected, rfl⟩ | rfl <;> simp_all
    refine ⟨bad, by simp, hbad.1, hbad.2, ?_⟩
    rw [hread]
    exact Machine.not_viable_of_step hrun hrefused
  · rintro limit' position rfl
    simp at hfound
  · intro hend
    rcases hfound with ⟨expected, rfl⟩ | rfl <;> cases hend
  · rintro unrecognized rfl
    simp at hfound
  · intro _ unrecognized hfault
    exact ⟨bad.start, hposition, hascending.fault_behind unrecognized hfault bad (by simp)⟩

/-- A parenthesis that opens one group too many is found early. -/
theorem foundEarly_of_leftParen (hreal : ∀ lexeme ∈ before, lexeme.isReal = true)
    (hascending : Ascending (before ++ bad :: behind) fault)
    (hrun : Machine.initial.run limit size (before.map .ok) = .ok m) (hmode : m.mode = .operand)
    (htoken : bad.token = .leftParen) :
    FoundEarly ⟨before ++ bad :: behind, fault, size⟩ (.nestingTooDeep limit bad.start) := by
  have hread : tokensRead ⟨before ++ bad :: behind, fault, size⟩
      (.nestingTooDeep limit bad.start) = before.map Lexeme.token ++ [.leftParen] := by
    rw [← htoken]
    exact hascending.tokensBefore_start_succ
  refine ⟨?_, ?_, ?_, ?_, ?_, ?_⟩
  · rw [hread]
    exact Machine.viable_of_leftParen hreal hrun hmode htoken
  · intro text position hclaimed
    simp at hclaimed
  · rintro limit' position heq
    cases heq
    rw [hread, hascending.tokensBefore_start]
  · intro hend
    cases hend
  · intro unrecognized heq
    cases heq
  · intro _ unrecognized hfault
    exact ⟨bad.start, rfl, hascending.fault_behind unrecognized hfault bad (by simp)⟩

/-- The character at which scanning stops is reported early. -/
theorem foundEarly_of_unrecognized {lexemes : List Lexeme} {unrecognized : Unrecognized}
    (hreal : ∀ lexeme ∈ lexemes, lexeme.isReal = true)
    (hascending : Ascending lexemes (some unrecognized))
    (hrun : Machine.initial.run limit size (lexemes.map .ok) = .ok m) :
    FoundEarly ⟨lexemes, some unrecognized, size⟩ (.unrecognized unrecognized) := by
  have hread : tokensRead ⟨lexemes ++ [], some unrecognized, size⟩ (.unrecognized unrecognized) =
      lexemes.map Lexeme.token :=
    tokensBefore_append (hascending.fault_behind unrecognized rfl) (by simp)
  rw [List.append_nil] at hread
  refine ⟨?_, ?_, ?_, ?_, ?_, ?_⟩
  · rw [hread]
    exact Machine.viable_of_run hreal hrun
  · intro text position hclaimed
    simp at hclaimed
  · intro limit' position heq
    cases heq
  · intro hend
    cases hend
  · intro unrecognized' heq
    cases heq
    rfl
  · intro hlexical
    cases hlexical

/-- The end of the input is refused early. -/
theorem foundEarly_of_end {lexemes : List Lexeme}
    (hreal : ∀ lexeme ∈ lexemes, lexeme.isReal = true)
    (hrun : Machine.initial.run limit size (lexemes.map .ok) = .ok m)
    (hstep : m.step limit size (.ok (Lexeme.atEnd size)) = .error found) :
    FoundEarly ⟨lexemes, none, size⟩ found := by
  obtain ⟨hend, hne⟩ := Machine.step_atEnd_eq_error hstep
  have hread : tokensRead ⟨lexemes, none, size⟩ found = lexemes.map Lexeme.token := by
    cases found <;> first | rfl | cases hend
  refine ⟨?_, ?_, ?_, ?_, ?_, ?_⟩
  · rw [hread]
    exact Machine.viable_of_run hreal hrun
  · rintro text position (⟨expected, rfl⟩ | rfl)
    · cases hend
    · cases hend
  · rintro limit' position rfl
    cases hend
  · intro _
    rw [hread]
    exact ⟨rfl, Machine.not_sentence_of_run hrun hne⟩
  · rintro unrecognized rfl
    cases hend
  · intro _ unrecognized hfault
    cases hfault

/-- Whatever the machine reports has been found early. -/
theorem foundEarly_of_run {lexemes : List Lexeme}
    (hreal : ∀ lexeme ∈ lexemes, lexeme.isReal = true) (hascending : Ascending lexemes fault)
    (hrun : Machine.initial.run limit size (items ⟨lexemes, fault, size⟩) = .error found) :
    FoundEarly ⟨lexemes, fault, size⟩ found := by
  rcases Machine.exists_failure hrun with
    ⟨before, bad, behind, m, rfl, hbefore, hstep⟩ | ⟨m, hall, hlast⟩
  · have hrealBefore : ∀ lexeme ∈ before, lexeme.isReal = true := fun lexeme hlexeme =>
      hreal lexeme (List.mem_append_left _ hlexeme)
    rcases Machine.step_eq_error (hreal bad (by simp)) hstep with
      ⟨hmode, htoken, rfl⟩ | ⟨hrefused, hfound⟩
    · exact foundEarly_of_leftParen hrealBefore hascending hbefore hmode htoken
    · exact foundEarly_of_misplaced hrealBefore hascending hbefore hrefused hfound
  · rcases hlast with ⟨unrecognized, rfl, rfl⟩ | ⟨rfl, hstep⟩
    · exact foundEarly_of_unrecognized hreal hascending hall
    · exact foundEarly_of_end hreal hall hstep

end Scan

/-- A fault that parsing reports has been found at the earliest token at which
it could be. -/
theorem Settings.foundEarly_of_parse_error (settings : Settings) (source : String) (found : Fault)
    (hparse : settings.parse source = .error found) : (scan source).FoundEarly found := by
  rw [settings.parse_eq_untraced] at hparse
  have hfaces := Cursor.faces_ofSource source settings.limit
  have hrun := (hfaces.expression_eq_error_iff found).mp hparse
  exact Scan.foundEarly_of_run (scan_isReal source) (scan_ascending source) hrun

/-- The operator at offset 5 is refused before the character behind it is met. -/
theorem Settings.foundEarly_of_parse_error_before_character :
    Settings.parse {} "(1 + * $" = .error (.unexpectedToken "operand" "'*'" 5) ∧
      (scan "(1 + * $").FoundEarly (.unexpectedToken "operand" "'*'" 5) := by
  have hscan : scan "(1 + * $" = ⟨[⟨.leftParen, 0, 1⟩, ⟨.number 1, 1, 2⟩, ⟨.operator .add, 3, 4⟩,
      ⟨.operator .multiply, 5, 6⟩], some ⟨'$', 7⟩, 8⟩ := by decide +kernel
  have hparse : Settings.parse {} "(1 + * $" = .error (.unexpectedToken "operand" "'*'" 5) := by
    rw [Settings.parse_eq_untraced]
    apply ((Cursor.faces_ofSource "(1 + * $" _).expression_eq_error_iff _).mpr
    change Machine.run _ _ _ (scan "(1 + * $").items = _
    rw [hscan]
    rfl
  exact ⟨hparse, Settings.foundEarly_of_parse_error {} _ _ hparse⟩

end Calculator
