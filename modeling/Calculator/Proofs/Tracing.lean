import Calculator.Parse
import Calculator.Proofs.Rules
import Calculator.Proofs.Session

/-!
# Tracing is invisible

An enabled tracer looks at the lexeme ahead whenever a rule is entered or left.
This may fill the lookahead, and may meet the fault of the scan, earlier than
an untraced rule would. The two runs still agree, because whatever follows such
a look begins by looking ahead itself. Only a factor that has been read stands
before a lexeme that nobody has to look at, so factors are compared after one
more look.
-/

namespace Calculator

variable {α β γ : Type}

/-! ## Cursors without their tracers -/

/-- The cursor with a tracer that is disabled and has recorded nothing. -/
def Cursor.quiet (s : Cursor) : Cursor := { s with tracer := {} }

/-- A result with the cursor left behind made quiet. -/
def quietly (r : Except Fault α × Cursor) : Except Fault α × Cursor := (r.1, r.2.quiet)

/-- A result followed by a look ahead, if it is a success. -/
def settled (r : Except Fault α × Cursor) : Except Fault α × Cursor :=
  andThen r fun a s => andThen s.peek fun _ s => (.ok a, s)

/-- Looking ahead does not depend on the tracer. -/
theorem Cursor.quietly_peek (s : Cursor) : quietly s.peek = s.quiet.peek := by
  obtain ⟨_ | ahead, _ | ⟨ahead', rest⟩, _ | fault, size, nesting, limit, tracer⟩ := s <;> rfl

/-- Consuming a lexeme changes nothing but the tracer and the lookahead. -/
theorem Cursor.quiet_consume (s : Cursor) (ahead : Lexeme) :
    (s.consume ahead).quiet = s.quiet.consume ahead := rfl

/-- Opening a group does not depend on the tracer. -/
theorem Cursor.quietly_openGroup (s : Cursor) (position : Nat) :
    quietly (s.openGroup position) = s.quiet.openGroup position := by
  unfold openGroup
  change quietly (if s.limit ≤ s.nesting then _ else _) = if s.limit ≤ s.nesting then _ else _
  split <;> rfl

/-- A quiet cursor enters a rule without a look ahead. -/
theorem Cursor.enter_quiet (s : Cursor) (rule : String) :
    s.quiet.enter rule = (.ok (), s.quiet) := rfl

/-- A quiet cursor leaves a rule without a look ahead. -/
theorem Cursor.leave_quiet (s : Cursor) (rule : String) (tree : Tree) :
    s.quiet.leave rule tree = (.ok tree, s.quiet) := rfl

/-- To compare a sequence with a quiet one it is enough to compare what follows
the first operation. The comparison may be made through any view of results. -/
theorem view_quietly_andThen (view : Except Fault β × Cursor → γ)
    {r : Except Fault α × Cursor} {next next' : α → Cursor → Except Fault β × Cursor}
    (hnext : ∀ a s, r = (.ok a, s) → view (quietly (next a s)) = view (next' a s.quiet)) :
    view (quietly (andThen r next)) = view (andThen (quietly r) next') := by
  obtain ⟨fault | a, s⟩ := r
  · rfl
  · exact hnext a s rfl

/-! ## Operations that look ahead first -/

/-- Looking again gives the same lexeme and changes nothing. -/
theorem Cursor.peek_of_peek {s s₁ : Cursor} {ahead : Lexeme} (hpeek : s.peek = (.ok ahead, s₁)) :
    s₁.peek = (.ok ahead, s₁) := by
  have hahead := lookahead_of_peek hpeek
  unfold peek
  simp [hahead]

/-- Looking ahead leaves the tracer alone. -/
theorem Cursor.tracer_of_peek {s s₁ : Cursor} {r : Except Fault Lexeme}
    (hpeek : s.peek = (r, s₁)) : s₁.tracer = s.tracer := by
  have htracer : s.peek.2.tracer = s.tracer := by
    unfold peek
    split <;> rfl
  rwa [hpeek] at htracer

/-- With an enabled tracer, entering a rule looks ahead. -/
theorem Cursor.enter_of_enabled {s : Cursor} (henabled : s.tracer.enabled = true)
    (rule : String) :
    s.enter rule = andThen s.peek fun ahead s =>
      (.ok (), { s with tracer := s.tracer.enter rule ahead }) := by
  simp [enter, henabled]

/-- An operation that begins by looking ahead, so that a look before it makes
no difference. -/
structure LooksAhead (operation : Cursor → Except Fault α × Cursor) : Prop where
  /-- After a look at a lexeme the operation does what it would have done. -/
  ok : ∀ {s s₁ ahead}, s.peek = (.ok ahead, s₁) → operation s₁ = operation s
  /-- The operation meets the fault that a look meets. -/
  error : ∀ {s s₁ fault}, s.peek = (.error fault, s₁) → operation s = (.error fault, s₁)

/-- A look before an operation that looks ahead first may be left out. -/
theorem LooksAhead.peek_andThen {operation : Cursor → Except Fault α × Cursor}
    (hlooks : LooksAhead operation) (s : Cursor) :
    (Calculator.andThen s.peek fun _ s => operation s) = operation s := by
  cases hpeek : s.peek with
  | mk r s₁ =>
    cases r with
    | error fault => rw [hlooks.error hpeek, andThen_error]
    | ok ahead => rw [andThen_ok, hlooks.ok hpeek]

/-- A sequence that starts with a look ahead looks ahead first. -/
theorem looksAhead_peek (next : Lexeme → Cursor → Except Fault α × Cursor) :
    LooksAhead fun s => andThen s.peek next where
  ok hpeek := by rw [hpeek, Cursor.peek_of_peek hpeek]
  error hpeek := by rw [hpeek, andThen_error]

/-- A sequence looks ahead first if its first operation does. -/
theorem LooksAhead.andThen {operation : Cursor → Except Fault α × Cursor}
    (hlooks : LooksAhead operation) (next : α → Cursor → Except Fault β × Cursor) :
    LooksAhead fun s => Calculator.andThen (operation s) next where
  ok hpeek := by rw [hlooks.ok hpeek]
  error hpeek := by rw [hlooks.error hpeek, andThen_error]

/-- Entering a rule does not keep the rest of it from looking ahead first. -/
theorem LooksAhead.enter {operation : Cursor → Except Fault α × Cursor}
    (hlooks : LooksAhead operation) (rule : String) :
    LooksAhead fun s => Calculator.andThen (s.enter rule) fun _ s => operation s where
  ok := by
    intro s s₁ ahead hpeek
    have htracer := Cursor.tracer_of_peek hpeek
    cases henabled : s.tracer.enabled with
    | false =>
      rw [Cursor.enter_of_disabled henabled, Cursor.enter_of_disabled (by rw [htracer, henabled]),
        andThen_ok, andThen_ok, hlooks.ok hpeek]
    | true =>
      rw [Cursor.enter_of_enabled henabled, Cursor.enter_of_enabled (by rw [htracer, henabled]),
        hpeek, Cursor.peek_of_peek hpeek]
  error := by
    intro s s₁ fault hpeek
    cases henabled : s.tracer.enabled with
    | false => rw [Cursor.enter_of_disabled henabled, andThen_ok, hlooks.error hpeek]
    | true => rw [Cursor.enter_of_enabled henabled, hpeek, andThen_error, andThen_error]

/-- A factor looks ahead first. -/
theorem Cursor.looksAhead_factor : LooksAhead Cursor.factor := by
  have h := (looksAhead_peek fun ahead s => s.factorAt ahead).enter factorRule
  simpa only [← factor_eq_factorAt] using h

/-- What follows an operand of a chain looks ahead first. -/
theorem Cursor.looksAhead_chainRest (p : Precedence) (left : Tree) :
    LooksAhead fun s => s.chainRest p left := by
  simp only [chainRest_eq_chainRestAt]
  exact looksAhead_peek _

/-- A chain looks ahead first if its operands do. -/
theorem Cursor.looksAhead_chain_of_operand {p : Precedence}
    (hoperand : LooksAhead fun s => s.operand p) : LooksAhead fun s => s.chain p := by
  have h := (hoperand.andThen fun left s => s.chainRest p left).enter p.rule
  simpa only [← chain_eq] using h

/-- Chains of either precedence look ahead first. -/
theorem Cursor.looksAhead_chain (p : Precedence) : LooksAhead fun s => s.chain p := by
  have hproduct : LooksAhead fun s => s.chain .multiplicative := by
    apply looksAhead_chain_of_operand
    simpa only [operand_multiplicative] using looksAhead_factor
  cases p with
  | additive =>
    apply looksAhead_chain_of_operand
    simpa only [operand_additive] using hproduct
  | multiplicative => exact hproduct

/-- An operand of a chain looks ahead first. -/
theorem Cursor.looksAhead_operand (p : Precedence) : LooksAhead fun s => s.operand p := by
  cases p with
  | additive => simpa only [operand_additive] using looksAhead_chain .multiplicative
  | multiplicative => simpa only [operand_multiplicative] using looksAhead_factor

/-! ## Rules with and without tracing -/

/-- A rule that has been entered goes on as it would untraced, if what follows
the entry looks ahead first. -/
theorem Cursor.view_quietly_enter (view : Except Fault β × Cursor → γ) {s : Cursor}
    {rule : String} {operation operation' : Cursor → Except Fault β × Cursor}
    (hlooks : LooksAhead operation')
    (hoperation : ∀ s₁, s.enter rule = (.ok (), s₁) →
      view (quietly (operation s₁)) = view (operation' s₁.quiet)) :
    view (quietly (andThen (s.enter rule) fun _ s => operation s)) = view (operation' s.quiet) := by
  cases henabled : s.tracer.enabled with
  | false =>
    have henter := enter_of_disabled henabled rule
    rw [henter, andThen_ok]
    exact hoperation s henter
  | true =>
    have henter := enter_of_enabled henabled rule
    rw [← hlooks.peek_andThen s.quiet, ← quietly_peek]
    rw [henter] at hoperation ⊢
    cases hpeek : s.peek with
    | mk r s₁ =>
      cases r with
      | error fault => rfl
      | ok ahead => exact hoperation _ (by rw [hpeek]; rfl)

/-- Leaving a rule with the lookahead filled changes nothing but the tracer. -/
theorem Cursor.quietly_leave_of_peek {s s₁ : Cursor} {ahead : Lexeme}
    (hpeek : s.peek = (.ok ahead, s₁)) (rule : String) (tree : Tree) :
    quietly (s₁.leave rule tree) = (.ok tree, s₁.quiet) := by
  unfold leave exit
  split
  · rw [peek_of_peek hpeek]
    rfl
  · rfl

/-- Leaving a rule does at most look ahead. -/
theorem Cursor.settled_quietly_leave (s : Cursor) (rule : String) (tree : Tree) :
    settled (quietly (s.leave rule tree)) = settled (.ok tree, s.quiet) := by
  unfold leave exit
  split
  · cases hpeek : s.peek with
    | mk r s₁ =>
      have hquiet := s.quietly_peek
      rw [hpeek] at hquiet
      cases r with
      | error fault =>
        simp only [andThen_error, settled, quietly, andThen_ok, ← hquiet]
      | ok ahead =>
        have hagain : s₁.quiet.peek = (.ok ahead, s₁.quiet) := by
          rw [← quietly_peek, peek_of_peek hpeek]
          rfl
        change andThen s₁.quiet.peek _ = andThen s.quiet.peek _
        rw [hagain, ← hquiet]
        rfl
  · rfl

/-- Closing a group does not depend on the tracer. -/
theorem Cursor.quietly_close (s : Cursor) (openedAt : Nat) (inner : Tree) :
    quietly (s.close openedAt inner) = s.quiet.close openedAt inner := by
  unfold close
  rw [← quietly_peek]
  apply view_quietly_andThen id
  intro ahead s₁ _
  cases ahead.token <;> rfl

/-- What follows a result and looks ahead first cannot tell it from another one
that agrees with it after a look ahead. -/
theorem andThen_eq_of_settled {r r' : Except Fault α × Cursor}
    {next : α → Cursor → Except Fault β × Cursor} (hlooks : ∀ a, LooksAhead (next a))
    (hsettled : settled r = settled r') : andThen r next = andThen r' next := by
  have hpass (r : Except Fault α × Cursor) : andThen (settled r) next = andThen r next := by
    rw [settled, andThen_assoc]
    obtain ⟨fault | a, s⟩ := r
    · rfl
    · rw [andThen_ok, andThen_assoc]
      exact (hlooks a).peek_andThen s
  rw [← hpass r, ← hpass r', hsettled]

/-- An operand and what follows it in a chain go as they would untraced, if both
do by themselves. -/
theorem Cursor.quietly_operand_andThen {s : Cursor} {p : Precedence} (tree : Tree → Tree)
    (hoperand : settled (quietly (s.operand p)) = settled (s.quiet.operand p))
    (hrest : ∀ operand s₁, s.operand p = (.ok operand, s₁) →
      quietly (s₁.chainRest p (tree operand)) = s₁.quiet.chainRest p (tree operand)) :
    quietly (andThen (s.operand p) fun operand s => s.chainRest p (tree operand)) =
      andThen (s.quiet.operand p) fun operand s => s.chainRest p (tree operand) := by
  calc quietly (andThen (s.operand p) fun operand s => s.chainRest p (tree operand))
      = andThen (quietly (s.operand p)) fun operand s => s.chainRest p (tree operand) :=
        view_quietly_andThen id hrest
    _ = andThen (s.quiet.operand p) fun operand s => s.chainRest p (tree operand) :=
        andThen_eq_of_settled (fun operand => looksAhead_chainRest p (tree operand)) hoperand

/-- A group is read as it would be untraced, if the chain inside it is. -/
theorem Cursor.quietly_group {s : Cursor} {openedAt : Nat}
    (hchain : ∀ s₁, s.openGroup openedAt = (.ok (), s₁) →
      quietly (s₁.chain .additive) = s₁.quiet.chain .additive) :
    quietly (s.group openedAt) = s.quiet.group openedAt := by
  unfold group
  rw [← quietly_openGroup]
  apply view_quietly_andThen id
  intro _ s₁ hopen
  rw [← hchain s₁ hopen]
  apply view_quietly_andThen id
  intro inner s₂ _
  exact s₂.quietly_close openedAt inner

/-- Every rule reads the same with and without tracing. Factors and operands
leave the same behind only after a look ahead. -/
theorem Cursor.quietly_rules :
    (∀ p s, quietly (Cursor.chain s p) = s.quiet.chain p) ∧
    (∀ p s, settled (quietly (Cursor.operand s p)) = settled (s.quiet.operand p)) ∧
    (∀ p left s, quietly (Cursor.chainRest s p left) = s.quiet.chainRest p left) ∧
    ∀ s, settled (quietly (Cursor.factor s)) = settled s.quiet.factor := by
  apply descent_induction
  · intro p s ih
    rw [chain_eq, chain_eq s.quiet, enter_quiet, andThen_ok]
    have hlooks := (looksAhead_operand p).andThen fun left s => s.chainRest p left
    apply view_quietly_enter id hlooks
    intro s₁ henter
    obtain ⟨hoperand, hrest⟩ := ih s₁ henter
    exact quietly_operand_andThen id hoperand hrest
  · intro s hchain
    rw [operand_additive, operand_additive, hchain]
  · intro s hfactor
    rw [operand_multiplicative, operand_multiplicative, hfactor]
  · intro p left s ih
    rw [chainRest_eq_chainRestAt, chainRest_eq_chainRestAt s.quiet, ← quietly_peek]
    apply view_quietly_andThen id
    intro ahead s₁ hpeek
    rcases ahead.stops_or_goesOn p with hstop | ⟨op, hop, hprecedence⟩
    · rw [chainRestAt_of_stop hstop, chainRestAt_of_stop hstop, leave_quiet]
      exact quietly_leave_of_peek hpeek p.rule left
    · obtain ⟨hoperand, hrest⟩ := ih ahead s₁ op hpeek hop hprecedence
      rw [chainRestAt_of_operator hop hprecedence, chainRestAt_of_operator hop hprecedence,
        ← quiet_consume]
      exact quietly_operand_andThen (.node op left) hoperand hrest
  · intro s ih
    rw [factor_eq_factorAt, factor_eq_factorAt s.quiet, enter_quiet, andThen_ok]
    apply view_quietly_enter settled (looksAhead_peek _)
    intro s₁ henter
    rw [← quietly_peek]
    apply view_quietly_andThen settled
    intro ahead s₂ hpeek
    unfold factorAt
    cases htoken : ahead.token with
    | number value => exact settled_quietly_leave _ _ _
    | leftParen =>
      rw [← quiet_consume, ← quietly_group (ih s₁ ahead s₂ · henter hpeek htoken)]
      apply view_quietly_andThen settled
      intro tree s₃ _
      exact settled_quietly_leave _ _ _
    | operator op => rfl
    | rightParen => rfl
    | endOfInput => rfl

/-- The end of a text is checked the same with and without tracing. -/
theorem Cursor.quietly_finish (s : Cursor) (tree : Tree) :
    quietly (s.finish tree) = s.quiet.finish tree := by
  unfold finish
  rw [← quietly_peek]
  apply view_quietly_andThen id
  intro ahead s₁ _
  cases ahead.token <;> rfl

/-- A whole text is read the same with and without tracing. -/
theorem Cursor.quietly_expression (s : Cursor) : quietly s.expression = s.quiet.expression := by
  rw [expression_eq_finish, expression_eq_finish s.quiet, ← quietly_peek]
  apply view_quietly_andThen id
  intro ahead s₁ _
  by_cases hreal : ahead.isReal = true
  · simp only [if_pos hreal]
    rw [← quietly_rules.1]
    apply view_quietly_andThen id
    intro tree s₂ _
    exact s₂.quietly_finish tree
  · simp only [if_neg hreal]
    rfl

/-- Taking a lexeme is the same with and without tracing. -/
theorem Cursor.quietly_advance (s : Cursor) : quietly s.advance = s.quiet.advance := by
  unfold advance
  rw [← quietly_peek]
  apply view_quietly_andThen id
  intro ahead s₁ _
  rfl

/-! ## Sessions with and without tracing -/

/-- A call other than the one for a factor answers the same with and without
tracing, and leaves the same behind. -/
theorem Cursor.perform_quiet {call : Call} (hcall : call ≠ .factor) (s : Cursor) :
    s.quiet.perform call = ((s.perform call).1, (s.perform call).2.quiet) := by
  cases call with
  | peek => simp only [perform, ← quietly_peek, quietly]
  | advance => simp only [perform, ← quietly_advance, quietly]
  | chain p => simp only [perform, ← quietly_rules.1, quietly]
  | factor => exact absurd rfl hcall
  | expression => simp only [perform, ← quietly_expression, quietly]

/-- A session without calls for a factor is the same with and without tracing,
call by call. -/
theorem Cursor.session_quiet (s : Cursor) {calls : List Call} (hcalls : .factor ∉ calls) :
    s.quiet.session calls = (s.session calls).map fun step => (step.1, step.2.quiet) := by
  induction calls generalizing s with
  | nil => rfl
  | cons call calls ih =>
    have hcall : call ≠ .factor := fun h => hcalls (by simp [h])
    have hrest : Call.factor ∉ calls := fun h => hcalls (by simp [h])
    simp only [session, List.map_cons, perform_quiet hcall]
    rw [ih _ hrest]

/-- The untraced cursor at the start of a text is the quiet form of the traced
one. -/
theorem Cursor.quiet_ofSource (source : String) (tracer : Tracer) (limit : Nat) :
    (ofSource source tracer limit).quiet = ofSource source {} limit := rfl

/-- Parsing gives the same tree, or the same fault, with and without tracing. -/
theorem Settings.parse_eq_untraced (settings : Settings) (source : String) :
    settings.parse source = (Cursor.ofSource source {} settings.limit).expression.1 := by
  rw [← Cursor.quiet_ofSource source { enabled := settings.traced }, ← Cursor.quietly_expression]
  rfl

/-- Tracing never changes what is parsed. In a session of any calls but the one
for a factor, which goes on after faults, the traced and the untraced cursor
give the same answers and agree after every call on what is ahead and on the
groups that are open, and the untraced one records nothing. The functions on
whole texts therefore do not depend on tracing. -/
theorem session_unchanged_by_tracing (source : String) (limit : Nat) (calls : List Call)
    (hcalls : .factor ∉ calls) :
    let traced := (Cursor.ofSource source { enabled := true } limit).session calls
    let untraced := (Cursor.ofSource source { enabled := false } limit).session calls
    traced.map Prod.fst = untraced.map Prod.fst ∧
    (traced.map fun step => (step.2.lookahead, step.2.upcoming, step.2.fault, step.2.size,
      step.2.nesting)) =
      (untraced.map fun step => (step.2.lookahead, step.2.upcoming, step.2.fault, step.2.size,
        step.2.nesting)) ∧
    (∀ step ∈ untraced, step.2.tracer.records = #[]) ∧
    Settings.parse ⟨true, limit⟩ source = Settings.parse ⟨false, limit⟩ source ∧
    Settings.render ⟨true, limit⟩ source = Settings.render ⟨false, limit⟩ source ∧
    Settings.evaluate ⟨true, limit⟩ source = Settings.evaluate ⟨false, limit⟩ source := by
  intro traced untraced
  have huntraced : untraced = traced.map fun step => (step.1, step.2.quiet) :=
    (Cursor.ofSource source { enabled := true } limit).session_quiet hcalls
  have hparse : Settings.parse ⟨true, limit⟩ source = Settings.parse ⟨false, limit⟩ source := by
    rw [Settings.parse_eq_untraced, Settings.parse_eq_untraced]
  refine ⟨?_, ?_, ?_, hparse, ?_, ?_⟩
  · rw [huntraced, List.map_map]
    rfl
  · rw [huntraced, List.map_map]
    rfl
  · intro step hstep
    rw [huntraced] at hstep
    obtain ⟨step', _, rfl⟩ := List.mem_map.mp hstep
    rfl
  · rw [Settings.render, Settings.render, hparse]
  · rw [Settings.evaluate, Settings.evaluate, hparse]

/-- A session that goes on behind an unrecognized character answers the same
with and without tracing. -/
theorem session_unchanged_by_tracing_at_fault :
    Call.factor ∉ [Call.chain .multiplicative, .peek, .expression, .advance] ∧
      ((Cursor.ofSource "(1 $" { enabled := true } 1).session
          [.chain .multiplicative, .peek, .expression, .advance]).map Prod.fst =
        ((Cursor.ofSource "(1 $" { enabled := false } 1).session
          [.chain .multiplicative, .peek, .expression, .advance]).map Prod.fst := by
  have hcalls : Call.factor ∉ [Call.chain .multiplicative, .peek, .expression, .advance] := by
    decide
  exact ⟨hcalls, (session_unchanged_by_tracing "(1 $" 1 _ hcalls).1⟩

end Calculator
