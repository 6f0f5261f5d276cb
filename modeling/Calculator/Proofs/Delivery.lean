import Calculator.Proofs.Supply

/-!
# What a session delivers

Whatever calls are made on a cursor, also after some have failed, the lexemes
consumed so far and the lookahead are the first of those that the scan supplies.
The fault of the scan is the answer to one call at most, the first that needs to
know what stands behind the last lexeme: a call that does not report the fault
goes the same way whatever stands in its place.
-/

namespace Calculator

/-! ## Calls that do not need what stands behind the lexemes -/

/-- The cursor with something else behind its upcoming lexemes. -/
def Cursor.followedBy (s : Cursor) (more : List Lexeme) (fault : Option Unrecognized) : Cursor :=
  { s with upcoming := s.upcoming ++ more, fault }

section Continuations

variable {α β : Type} {more : List Lexeme} {fault : Option Unrecognized}

/-- Unless the first result reports a character, the second is the same result
with something else ahead. -/
def SameBefore (more : List Lexeme) (fault : Option Unrecognized)
    (r r' : Except Fault α × Cursor) : Prop :=
  (fault? r.1).bind Fault.unrecognized? = none → r' = (r.1, r.2.followedBy more fault)

/-- Sequences are the same if their operations are. -/
theorem SameBefore.andThen {r r' : Except Fault α × Cursor}
    {next : α → Cursor → Except Fault β × Cursor} (hfirst : SameBefore more fault r r')
    (hnext : ∀ a s, r = (.ok a, s) →
      SameBefore more fault (next a s) (next a (s.followedBy more fault))) :
    SameBefore more fault (andThen r next) (andThen r' next) := by
  obtain ⟨found | a, s⟩ := r
  · intro hreport
    rw [hfirst hreport]
    rfl
  · intro hreport
    rw [hfirst rfl]
    exact hnext a s rfl hreport

namespace Cursor

/-- A look ahead that does not meet the fault of the scan finds the same with
something else behind. -/
theorem sameBefore_peek {s : Cursor} (hfault : s.fault ≠ none) :
    SameBefore more fault s.peek (s.followedBy more fault).peek := by
  intro hreport
  rcases s.peek_cases with ⟨ahead, hlookahead, hpeek⟩ |
    ⟨ahead, rest, hlookahead, hupcoming, hpeek⟩ | ⟨cause, _, _, _, hpeek⟩ | ⟨_, _, hnone, _⟩
  · rw [hpeek]
    simp [Cursor.peek, followedBy, hlookahead]
  · rw [hpeek]
    simp [Cursor.peek, followedBy, hlookahead, hupcoming]
  · rw [hpeek] at hreport
    cases hreport
  · exact absurd hnone hfault

/-- A note of the tracer about the lexeme ahead is the same with something else
behind. -/
theorem sameBefore_note {s : Cursor} (hfault : s.fault ≠ none) (note : Lexeme → Tracer → Tracer) :
    SameBefore more fault
      (if s.tracer.enabled then
        andThen s.peek fun ahead s => (.ok (), { s with tracer := note ahead s.tracer })
      else (.ok (), s))
      (if s.tracer.enabled then
        andThen (s.followedBy more fault).peek fun ahead s =>
          (.ok (), { s with tracer := note ahead s.tracer })
      else (.ok (), s.followedBy more fault)) := by
  split
  · apply (sameBefore_peek hfault).andThen
    intro ahead s₁ _ _
    rfl
  · intro _
    rfl

/-- Entering a rule is the same with something else behind. -/
theorem sameBefore_enter {s : Cursor} (hfault : s.fault ≠ none) (rule : String) :
    SameBefore more fault (s.enter rule) ((s.followedBy more fault).enter rule) :=
  sameBefore_note hfault fun ahead tracer => tracer.enter rule ahead

/-- Leaving a rule is the same with something else behind. -/
theorem sameBefore_leave {s : Cursor} (hfault : s.fault ≠ none) (rule : String) (tree : Tree) :
    SameBefore more fault (s.leave rule tree) ((s.followedBy more fault).leave rule tree) := by
  have hexit : SameBefore more fault (s.exit rule) ((s.followedBy more fault).exit rule) :=
    sameBefore_note hfault fun ahead tracer => tracer.exit rule ahead
  apply hexit.andThen
  intro _ s₁ _ _
  rfl

/-- The fault of the scan is still ahead of an operation that has succeeded. -/
theorem fault_of_ok {s s₁ : Cursor} {taken : List Lexeme} {r : Except Fault α × Cursor} {a : α}
    (hholds : Contract.reporting.Holds s taken r) (hok : r = (.ok a, s₁))
    (hfault : s.fault ≠ none) : s₁.fault ≠ none := by
  rw [hok] at hholds
  have hsame : s₁.fault = s.fault := hholds
  rwa [hsame]

/-- Closing a group is the same with something else behind. -/
theorem sameBefore_close {s : Cursor} (hfault : s.fault ≠ none) (openedAt : Nat) (inner : Tree) :
    SameBefore more fault (s.close openedAt inner)
      ((s.followedBy more fault).close openedAt inner) := by
  apply (sameBefore_peek hfault).andThen
  intro ahead s₁ _ _
  cases ahead.token <;> rfl

/-- A group is the same with something else behind, if the chain inside is. -/
theorem sameBefore_group {s : Cursor} (hfault : s.fault ≠ none) {openedAt : Nat}
    (hchain : ∀ s₁, s.openGroup openedAt = (.ok (), s₁) → s₁.fault ≠ none →
      SameBefore more fault (s₁.chain .additive) ((s₁.followedBy more fault).chain .additive)) :
    SameBefore more fault (s.group openedAt) ((s.followedBy more fault).group openedAt) := by
  unfold group
  have hopen : SameBefore more fault (s.openGroup openedAt)
      ((s.followedBy more fault).openGroup openedAt) := by
    intro _
    unfold openGroup
    change (if s.limit ≤ s.nesting then _ else _) = _
    split <;> rfl
  apply hopen.andThen
  intro _ s₁ hopened
  have hfault₁ : s₁.fault ≠ none := by
    rw [eq_of_openGroup hopened]
    exact hfault
  apply (hchain s₁ hopened hfault₁).andThen
  intro inner s₂ hinner
  exact sameBefore_close (fault_of_ok (Contract.reporting_kept.rules.1 _ s₁) hinner hfault₁) _ _

/-- Every rule that does not report the fault of the scan goes the same way with
something else in its place. -/
theorem sameBefore_rules :
    (∀ p s, Cursor.fault s ≠ none →
      SameBefore more fault (s.chain p) ((s.followedBy more fault).chain p)) ∧
    (∀ p s, Cursor.fault s ≠ none →
      SameBefore more fault (s.operand p) ((s.followedBy more fault).operand p)) ∧
    (∀ p left s, Cursor.fault s ≠ none →
      SameBefore more fault (s.chainRest p left) ((s.followedBy more fault).chainRest p left)) ∧
    ∀ s, Cursor.fault s ≠ none →
      SameBefore more fault s.factor (s.followedBy more fault).factor := by
  have hkept := Contract.reporting_kept
  apply descent_induction
  · intro p s ih hfault
    rw [chain_eq, chain_eq (s.followedBy more fault)]
    apply (sameBefore_enter hfault p.rule).andThen
    intro _ s₁ henter
    have hfault₁ := fault_of_ok (hkept.enterRule s (.chain p)) henter hfault
    obtain ⟨hoperand, hrest⟩ := ih s₁ henter
    apply (hoperand hfault₁).andThen
    intro left s₂ hleft
    exact hrest left s₂ hleft (fault_of_ok (hkept.rules.2.1 p s₁) hleft hfault₁)
  · intro s hchain hfault
    rw [operand_additive, operand_additive]
    exact hchain hfault
  · intro s hfactor hfault
    rw [operand_multiplicative, operand_multiplicative]
    exact hfactor hfault
  · intro p left s ih hfault
    rw [chainRest_eq_chainRestAt, chainRest_eq_chainRestAt (s.followedBy more fault)]
    apply (sameBefore_peek hfault).andThen
    intro ahead s₁ hpeek
    have hfault₁ := fault_of_ok (hkept.peek s) hpeek hfault
    rcases ahead.stops_or_goesOn p with hstop | ⟨op, hop, hprecedence⟩
    · rw [chainRestAt_of_stop hstop, chainRestAt_of_stop hstop]
      exact sameBefore_leave hfault₁ p.rule left
    · obtain ⟨hoperand, hrest⟩ := ih ahead s₁ op hpeek hop hprecedence
      rw [chainRestAt_of_operator hop hprecedence, chainRestAt_of_operator hop hprecedence]
      apply (hoperand hfault₁).andThen
      intro right s₂ hright
      exact hrest right s₂ hright (fault_of_ok (hkept.rules.2.1 p _) hright hfault₁)
  · intro s ih hfault
    rw [factor_eq_factorAt, factor_eq_factorAt (s.followedBy more fault)]
    apply (sameBefore_enter hfault factorRule).andThen
    intro _ s₁ henter
    have hfault₁ := fault_of_ok (hkept.enterRule s .factor) henter hfault
    apply (sameBefore_peek hfault₁).andThen
    intro ahead s₂ hpeek
    have hfault₂ := fault_of_ok (hkept.peek s₁) hpeek hfault₁
    have hconsumed : (s₂.consume ahead).fault ≠ none := hfault₂
    unfold factorAt
    cases htoken : ahead.token with
    | number value => exact sameBefore_leave hconsumed factorRule _
    | leftParen =>
      have hgroup := sameBefore_group hconsumed fun s₃ =>
        ih s₁ ahead s₂ s₃ henter hpeek htoken
      apply hgroup.andThen
      intro tree s₃ hread
      have hholds := hkept.grouping (lookahead_of_peek hpeek) htoken fun s₄ _ =>
        hkept.rules.1 _ s₄
      exact sameBefore_leave (fault_of_ok hholds hread hfault₂) factorRule tree
    | operator op => exact fun _ => rfl
    | rightParen => exact fun _ => rfl
    | endOfInput => exact fun _ => rfl

/-- A call that does not report the fault of the scan has not looked at it: with
anything else in its place, the call answers and leaves behind the same. -/
theorem perform_followedBy {s : Cursor} {call : Call} (hfault : s.fault ≠ none)
    (hreport : (s.perform call).1.report? = none) (more : List Lexeme)
    (fault : Option Unrecognized) :
    (s.followedBy more fault).perform call =
      ((s.perform call).1, (s.perform call).2.followedBy more fault) := by
  have hanswer {α : Type} {r r' : Except Fault α × Cursor} (answer : Except Fault α → Answer)
      (hsame : SameBefore more fault r r')
      (hreport : (fault? r.1).bind Fault.unrecognized? = none) :
      (answer r'.1, r'.2) = (answer r.1, r.2.followedBy more fault) := by
    rw [hsame hreport]
  cases call with
  | peek => exact hanswer .lexeme (sameBefore_peek hfault) hreport
  | advance =>
    have hadvance : SameBefore more fault s.advance (s.followedBy more fault).advance :=
      (sameBefore_peek hfault).andThen fun _ _ _ _ => rfl
    exact hanswer .lexeme hadvance hreport
  | chain p => exact hanswer .tree (sameBefore_rules.1 p s hfault) hreport
  | factor => exact hanswer .tree (sameBefore_rules.2.2.2 s hfault) hreport
  | expression =>
    have hexpression : SameBefore more fault s.expression (s.followedBy more fault).expression := by
      rw [expression_eq_finish, expression_eq_finish]
      apply (sameBefore_peek hfault).andThen
      intro ahead s₁ hpeek
      have hfault₁ := fault_of_ok (Contract.reporting_kept.peek s) hpeek hfault
      split
      · apply (sameBefore_rules.1 _ s₁ hfault₁).andThen
        intro tree s₂ hchain
        have hholds := Contract.reporting_kept.rules.1 .additive s₁
        apply (sameBefore_peek (fault_of_ok hholds hchain hfault₁)).andThen
        intro ahead s₃ _ _
        cases ahead.token <;> rfl
      · exact fun _ => rfl
    exact hanswer .tree hexpression hreport

end Cursor

end Continuations

/-! ## The end of the supply -/

section Ending

variable {s : Cursor} {scan : Scan} {consumed : List Lexeme}

/-- The lexeme that a look finds is found by another look, and is the one taken
next. -/
theorem Cursor.peek_after_peek {ahead : Lexeme} (hpeek : s.peek.1 = .ok ahead) :
    s.peek.2.peek.1 = .ok ahead ∧ s.peek.2.advance.1 = .ok ahead := by
  have hagain : s.peek.2.peek = (.ok ahead, s.peek.2) := peek_of_peek (Prod.ext hpeek rfl)
  rw [advance, hagain]
  exact ⟨rfl, rfl⟩

/-- A call that makes the report has consumed all lexemes and leaves nothing
ahead. -/
theorem Cursor.Follows.of_report {call : Call} {cause : Unrecognized}
    (h : s.Follows scan consumed) (hreport : (s.perform call).1.report? = some cause) :
    consumed ++ s.takenBy call = scan.lexemes ∧
      ∃ nesting limit tracer, (s.perform call).2 =
        { lookahead := none, upcoming := [], fault := none, size := scan.size,
          nesting, limit, tracer } := by
  obtain ⟨_, hfault, hlookahead, hupcoming⟩ := fault_of_report hreport
  obtain ⟨hfollows, hall⟩ :=
    (Contract.supply_kept scan).perform (Contract.supply_consume scan) s call consumed h
  refine ⟨hall cause (Answer.fault?_of_report hreport), ?_⟩
  generalize (s.perform call).2 = s' at hfault hlookahead hupcoming hfollows
  refine ⟨s'.nesting, s'.limit, s'.tracer, ?_⟩
  rw [← hlookahead, ← hupcoming, ← hfault, ← hfollows.size_eq]

/-- Where the fault of the scan has been taken off, all lexemes are consumed. -/
theorem Cursor.Follows.of_fault_taken (h : s.Follows scan consumed) (hfault : s.fault = none)
    {cause : Unrecognized} (hcause : scan.fault = some cause) :
    s.upcoming = [] ∧ scan.lexemes <+: consumed := by
  rcases h.ahead with ⟨hsame, _⟩ | ⟨_, hupcoming, _, count, hconsumed⟩
  · rw [hfault, hcause] at hsame
    cases hsame
  · exact ⟨hupcoming, _, hconsumed.symm⟩

end Ending

/-! ## Sessions -/

/-- What holds after a sequence of calls on the cursor at the start of a text. -/
structure Cursor.Delivers (start : Cursor) (source : String) (calls : List Call) : Prop where
  /-- The lexemes consumed so far and the lookahead are the first of the lexemes
  of the text with the end of the input repeated for ever behind them. Those
  that follow are upcoming. -/
  seen : ∃ count, start.taken calls ++ (start.after calls).lookahead.toList ++
      (start.after calls).upcoming =
    (scan source).lexemes ++ List.replicate count (Lexeme.atEnd source.utf8ByteSize)
  /-- An enabled tracer has recorded just these lexemes as consumed. -/
  recorded : start.tracer.enabled = true →
    consumptions (start.after calls).tracer.records.toList = start.taken calls
  /-- A look ahead consumes nothing. -/
  taken_peek : start.taken (calls ++ [.peek]) = start.taken calls
  /-- The lexeme that a look finds is found by another look, and is the one taken
  next. -/
  peek_again : ∀ ahead, (start.after calls).peek.1 = .ok ahead →
    (start.after (calls ++ [.peek])).peek.1 = .ok ahead ∧
      (start.after (calls ++ [.peek])).advance.1 = .ok ahead
  /-- No character is reported but the fault of the scan, and that only once. -/
  reported : start.reports calls = [] ∨
    ∃ cause, (scan source).fault = some cause ∧ start.reports calls = [cause]
  /-- Before the report, nothing behind the lexemes was looked at. The next call
  does not depend on what stands there, unless it makes the report. -/
  unreported : ∀ cause, (scan source).fault = some cause → start.reports calls = [] →
    start.taken calls ++ (start.after calls).lookahead.toList <+: (scan source).lexemes ∧
      ∀ call, ((start.after calls).perform call).1.report? = none → ∀ more fault,
        ((start.after calls).followedBy more fault).perform call =
          (((start.after calls).perform call).1,
            ((start.after calls).perform call).2.followedBy more fault)
  /-- The call that makes the report has consumed all lexemes, and leaves the
  cursor where the text is over. -/
  report : ∀ call cause, ((start.after calls).perform call).1.report? = some cause →
    (scan source).fault = some cause ∧ start.reports calls = [] ∧
      start.taken (calls ++ [call]) = (scan source).lexemes ∧
      ∃ nesting limit tracer, start.after (calls ++ [call]) =
        { lookahead := none, upcoming := [], fault := none, size := source.utf8ByteSize,
          nesting, limit, tracer }
  /-- After the report there is nothing but the end of the input. -/
  ended : start.reports calls ≠ [] → (start.after calls).upcoming = [] ∧
    (start.after calls).fault = none ∧ (start.after calls).size = source.utf8ByteSize ∧
      (scan source).lexemes <+: start.taken calls

/-- A cursor neither loses nor repeats nor reorders lexemes. This holds for every
text, limit and tracing, after every sequence of calls, of which any may have
failed. -/
theorem Cursor.session_delivers (source : String) (traced : Bool) (limit : Nat)
    (calls : List Call) :
    (Cursor.ofSource source { enabled := traced } limit).Delivers source calls := by
  generalize hstart : Cursor.ofSource source { enabled := traced } limit = start
  have hsize : (scan source).size = source.utf8ByteSize := rfl
  have hfault : start.fault = (scan source).fault := by
    rw [← hstart]
    rfl
  have hrecords : consumptions start.tracer.records.toList = [] := by
    rw [← hstart]
    rfl
  have hfollows : (start.after calls).Follows (scan source) (start.taken calls) := by
    rw [← hstart]
    exact (follows_ofSource source { enabled := traced } limit).after calls
  have hcases := start.reports_cases calls
  rw [hfault] at hcases
  constructor
  · rw [← hsize]
    exact hfollows.seen_append_upcoming
  · intro henabled
    rw [consumptions_after henabled, hrecords, List.nil_append]
  · rw [taken_snoc]
    exact List.append_nil _
  · intro ahead hpeek
    rw [after_snoc]
    exact peek_after_peek hpeek
  · rcases hcases with ⟨hreports, _⟩ | ⟨cause, hreports, hcause, _⟩
    · exact Or.inl hreports
    · exact Or.inr ⟨cause, hcause, hreports⟩
  · intro cause hcause hreports
    rcases hcases with ⟨_, hahead⟩ | ⟨cause', hreports', _⟩
    · rw [hcause] at hahead
      refine ⟨hfollows.seen_prefix_of_fault hahead, ?_⟩
      intro call hreport more fault
      exact perform_followedBy (by simp [hahead]) hreport more fault
    · rw [hreports] at hreports'
      cases hreports'
  · intro call cause hreport
    have hahead := (fault_of_report hreport).1
    rcases hcases with ⟨hreports, hsame⟩ | ⟨_, _, _, hover⟩
    · rw [taken_snoc, after_snoc]
      exact ⟨hsame.symm.trans hahead, hreports, hfollows.of_report hreport⟩
    · rw [hahead] at hover
      cases hover
  · intro hreports
    rcases hcases with ⟨hnone, _⟩ | ⟨cause, _, hcause, hover⟩
    · exact absurd hnone hreports
    · obtain ⟨hupcoming, hall⟩ := hfollows.of_fault_taken hover hcause
      exact ⟨hupcoming, hover, hfollows.size_eq, hall⟩

end Calculator
