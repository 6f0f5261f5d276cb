import Calculator.Parse
import Calculator.Proofs.Replay
import Calculator.Proofs.Scanning

/-!
# The trace of a text

The trace of a text that is parsed is the trace of its one derivation. The trace
of a text with a fault breaks off where the fault is found: the rules that were
entered and not left stay open, and what was consumed are the lexemes in front
of the fault. A parenthesis that opens one group too many is consumed as well.
-/

namespace Calculator

/-! ## Where a rule stops with a fault -/

/-- Where a cursor stops with a fault, behind the lexemes consumed. -/
inductive Cursor.StopsAt (s : Cursor) (taken : List Lexeme) : Fault → Prop
  /-- A character that begins no token stands behind the last lexeme. -/
  | unrecognized (cause : Unrecognized) : StopsAt s taken (.unrecognized cause)
  /-- The lexeme ahead is refused. -/
  | refused {ahead : Lexeme} {found : Fault} : s.lookahead = some ahead → ahead.Refused found →
      StopsAt s taken found
  /-- The parenthesis consumed last opens one group too many. -/
  | tooDeep {before : List Lexeme} {paren : Lexeme} (limit : Nat) : s.lookahead = none →
      paren.token = .leftParen → taken = before ++ [paren] →
      StopsAt s taken (.nestingTooDeep limit paren.start)

/-- What was consumed earlier does not matter for where a cursor stops. -/
theorem Cursor.StopsAt.append {s : Cursor} {taken : List Lexeme} {found : Fault}
    (h : s.StopsAt taken found) (first : List Lexeme) : s.StopsAt (first ++ taken) found := by
  cases h with
  | unrecognized cause => exact .unrecognized cause
  | refused hahead hrefused => exact .refused hahead hrefused
  | @tooDeep before paren limit hlookahead htoken htaken =>
    refine .tooDeep limit hlookahead htoken (?_ : _ = (first ++ before) ++ [paren])
    rw [htaken, List.append_assoc]

/-- Only real lexemes are consumed, and the cursor stops where the fault lies. -/
def Contract.stopping : Contract := fun _ taken fault s' =>
  (∀ lexeme ∈ taken, lexeme.isReal = true) ∧ ∀ found, fault = some found → s'.StopsAt taken found

/-- Every rule stops where its fault lies. -/
theorem Contract.stopping_kept : Contract.stopping.Kept where
  nothing s := ⟨by simp, fun _ h => nomatch h⟩
  trans := by
    intro s s₁ s₂ first second fault hfirst hsecond
    constructor
    · intro lexeme hlexeme
      rcases List.mem_append.mp hlexeme with hlexeme | hlexeme
      · exact hfirst.1 lexeme hlexeme
      · exact hsecond.1 lexeme hlexeme
    · intro found hfound
      exact (hsecond.2 found hfound).append first
  peek := by
    intro s
    refine ⟨by simp, ?_⟩
    rcases s.peek_cases with ⟨ahead, _, hpeek⟩ | ⟨ahead, rest, _, _, hpeek⟩ |
      ⟨cause, _, _, _, hpeek⟩ | ⟨_, _, _, hpeek⟩
    · rw [hpeek]
      exact fun _ h => nomatch h
    · rw [hpeek]
      exact fun _ h => nomatch h
    · rw [hpeek]
      rintro _ ⟨⟩
      exact .unrecognized cause
    · rw [hpeek]
      exact fun _ h => nomatch h
  enter _ _ := ⟨by simp, fun _ h => nomatch h⟩
  exit _ _ := ⟨by simp, fun _ h => nomatch h⟩
  consume _ hreal := ⟨by simpa using hreal, fun _ h => nomatch h⟩
  openGroup := by
    intro s ahead _ htoken
    refine ⟨by simp [Lexeme.isReal, htoken], ?_⟩
    rcases (s.consume ahead).openGroup_cases ahead.start with hopen | hopen
    · rw [hopen]
      rintro _ ⟨⟩
      exact .tooDeep _ rfl htoken (List.nil_append _).symm
    · rw [hopen]
      exact fun _ h => nomatch h
  closeGroup s := ⟨by simp, fun _ h => nomatch h⟩
  refuse := by
    intro s ahead fault hahead hrefused
    refine ⟨by simp, ?_⟩
    rintro _ ⟨⟩
    exact .refused hahead hrefused

/-! ## What is consumed in front of a fault -/

/-- What has been consumed of the lexemes when the fault is found: those in front
of it, or all if the text ends too early. -/
def Fault.Consumed (lexemes consumed : List Lexeme) : Fault → Prop
  | .unrecognized cause => consumed = lexemes.filter (·.start < cause.position)
  | .unexpectedToken _ _ position => consumed = lexemes.filter (·.start < position)
  | .trailingToken _ position => consumed = lexemes.filter (·.start < position)
  | .nestingTooDeep _ position => ∃ paren ∈ lexemes, paren.token = .leftParen ∧
      paren.start = position ∧ consumed = lexemes.filter (·.start < position) ++ [paren]
  | .emptyInput | .unexpectedEnd _ _ | .unclosedGroup _ _ => consumed = lexemes

/-- In front of a lexeme are those before it. -/
theorem Scan.Ascending.filter_start {before behind : List Lexeme} {lexeme : Lexeme}
    {fault : Option Unrecognized} (h : Ascending (before ++ lexeme :: behind) fault) :
    (before ++ lexeme :: behind).filter (·.start < lexeme.start) = before := by
  obtain ⟨_, hbehind, hbefore⟩ := List.pairwise_append.mp h.starts
  have hfirst : before.filter (·.start < lexeme.start) = before := by
    rw [List.filter_eq_self]
    intro other hother
    simpa using hbefore other hother lexeme (by simp)
  have hlast : (lexeme :: behind).filter (·.start < lexeme.start) = [] := by
    rw [List.filter_eq_nil_iff]
    intro other hother
    rcases List.mem_cons.mp hother with rfl | hother
    · simp
    · have hlt := (List.pairwise_cons.mp hbehind).1 other hother
      simp only [decide_eq_true_eq]
      omega
  rw [List.filter_append, hfirst, hlast, List.append_nil]

section Stopping

variable {s : Cursor} {scan : Scan} {consumed : List Lexeme} {ahead : Lexeme}

/-- A real lexeme ahead is the one behind those consumed. -/
theorem Cursor.Follows.of_real_ahead (h : s.Follows scan consumed)
    (hahead : s.lookahead = some ahead) (hreal : ahead.isReal = true) :
    consumed ++ ahead :: s.upcoming = scan.lexemes := by
  rcases h.ahead with ⟨_, hlexemes⟩ | ⟨_, _, hend, _⟩
  · simpa [hahead] using hlexemes
  · rw [hend ahead hahead] at hreal
    cases hreal

/-- Where the end of the input is ahead and was not consumed before, all lexemes
are consumed. -/
theorem Cursor.Follows.of_end_ahead (h : s.Follows scan consumed)
    (hlexemes : ∀ lexeme ∈ scan.lexemes, lexeme.isReal = true)
    (hconsumed : ∀ lexeme ∈ consumed, lexeme.isReal = true)
    (hahead : s.lookahead = some ahead) (hend : ahead.isReal = false) :
    ahead = Lexeme.atEnd scan.size ∧ consumed = scan.lexemes := by
  rcases h.ahead with ⟨_, hall⟩ | ⟨_, _, hatEnd, count, hall⟩
  · have hreal : ahead.isReal = true := by
      apply hlexemes
      rw [← hall, hahead]
      simp
    rw [hend] at hreal
    cases hreal
  · refine ⟨hatEnd ahead hahead, ?_⟩
    cases count with
    | zero => simpa using hall
    | succ count =>
      -- The end of the input would have been consumed.
      have hreal : (Lexeme.atEnd scan.size).isReal = true := by
        apply hconsumed
        rw [hall]
        simp
      cases hreal

/-- A lexeme that was consumed last stands behind those consumed before, and in
front of the upcoming ones. -/
theorem Cursor.Follows.of_last_consumed {before : List Lexeme} {last : Lexeme}
    (h : s.Follows scan (before ++ [last])) (hlookahead : s.lookahead = none)
    (hreal : last.isReal = true) : ∃ behind, before ++ last :: behind = scan.lexemes := by
  rcases h.ahead with ⟨_, hall⟩ | ⟨_, _, _, count, hall⟩
  · refine ⟨s.upcoming, ?_⟩
    simpa [hlookahead] using hall
  · cases count with
    | zero => exact ⟨[], by simpa using hall⟩
    | succ count =>
      rw [List.replicate_succ', ← List.append_assoc] at hall
      obtain ⟨_, hlast⟩ := List.append_inj' hall rfl
      cases hlast
      cases hreal

/-- What has been consumed where a cursor stops with a fault. -/
theorem Cursor.Follows.consumed_of_stopsAt {found : Fault} (h : s.Follows scan consumed)
    (hstops : s.StopsAt consumed found)
    (hcause : ∀ cause, found = .unrecognized cause →
      scan.fault = some cause ∧ consumed = scan.lexemes)
    (hconsumed : ∀ lexeme ∈ consumed, lexeme.isReal = true)
    (hascending : Scan.Ascending scan.lexemes scan.fault)
    (hlexemes : ∀ lexeme ∈ scan.lexemes, lexeme.isReal = true) :
    found.Consumed scan.lexemes consumed := by
  cases hstops with
  | unrecognized cause =>
    -- Every lexeme lies in front of the character at which scanning stopped.
    obtain ⟨hfault, rfl⟩ := hcause cause rfl
    have hbehind := hascending.fault_behind cause hfault
    rw [Fault.Consumed, eq_comm, List.filter_eq_self]
    intro lexeme hlexeme
    simpa using hbehind lexeme hlexeme
  | @refused ahead _ hahead hrefused =>
    have hbefore (hreal : ahead.isReal = true) :
        consumed = scan.lexemes.filter (·.start < ahead.start) := by
      rw [← h.of_real_ahead hahead hreal] at hascending ⊢
      exact hascending.filter_start.symm
    have hall (hend : ahead.isReal = false) : consumed = scan.lexemes :=
      (h.of_end_ahead hlexemes hconsumed hahead hend).2
    cases hrefused with
    | misplaced expected hreal => exact hbefore hreal
    | trailing hreal => exact hbefore hreal
    | ended expected hend => exact hall hend
    | unclosed openedAt hend => exact hall hend
    | empty hend => exact hall hend
  | @tooDeep before paren limit hlookahead htoken htaken =>
    subst htaken
    obtain ⟨behind, hsplit⟩ := h.of_last_consumed hlookahead (hconsumed paren (by simp))
    rw [← hsplit] at hascending ⊢
    refine ⟨paren, by simp, htoken, rfl, ?_⟩
    rw [hascending.filter_start]

end Stopping

/-! ## The trace of a text -/

/-- A text that is read with an enabled tracer is gone through as a derivation of
its own lexemes. -/
theorem Cursor.linearises_of_expression {s s' : Cursor} {tree : Tree}
    (henabled : s.tracer.enabled = true) (hread : s.expression = (.ok tree, s')) :
    ∃ (d : Derivation (.phrase .expression)) (next : Lexeme), d.meaning = tree ∧
      next.isReal = false ∧
      s.Stretch s' d.lexemes next s.tracer.depth (d.records s.tracer.depth next) := by
  rw [expression_eq_finish] at hread
  obtain ⟨ahead, s₁, hpeek, hnext⟩ := andThen_eq_ok hread
  have htracer := tracer_of_peek hpeek
  split at hnext
  · obtain ⟨tree', s₂, hchain, hfinish⟩ := andThen_eq_ok hnext
    obtain ⟨d, next, rfl, hstretch⟩ :=
      rules_linearise.1 _ _ _ _ hchain (by rw [htracer, henabled])
    rw [htracer] at hstretch
    unfold finish at hfinish
    rw [Stretch.peek_of_lookahead hstretch.next_eq, andThen_ok] at hfinish
    cases htoken : next.token with
    | endOfInput =>
      simp only [htoken] at hfinish
      cases hfinish
      exact ⟨d, next, rfl, by simp [Lexeme.isReal, htoken], hstretch.of_peek hpeek⟩
    | number value => simp [htoken] at hfinish
    | operator op => simp [htoken] at hfinish
    | leftParen => simp [htoken] at hfinish
    | rightParen => simp [htoken] at hfinish
  · cases hnext

section Texts

variable {source : String} {limit : Nat} {s' : Cursor}

/-- What is consumed while a text is read is recorded, is what its scan supplies,
and is real. -/
theorem Cursor.consumed_of_expression {result : Except Fault Tree}
    (hread : (ofSource source { enabled := true } limit).expression = (result, s')) :
    s'.Follows (scan source) (consumptions s'.tracer.records.toList) ∧
      (∀ lexeme ∈ consumptions s'.tracer.records.toList, lexeme.isReal = true) ∧
      ∀ found, result = .error found →
        s'.StopsAt (consumptions s'.tracer.records.toList) found ∧
        ∀ cause, found = .unrecognized cause → (scan source).fault = some cause ∧
          consumptions s'.tracer.records.toList = (scan source).lexemes := by
  generalize hstart : ofSource source { enabled := true } limit = start at hread
  have henabled : start.tracer.enabled = true := by rw [← hstart]; rfl
  have hnothing : consumptions start.tracer.records.toList = [] := by rw [← hstart]; rfl
  have hfault : start.fault = (scan source).fault := by rw [← hstart]; rfl
  have hfollows : start.Follows (scan source) [] := by
    rw [← hstart]
    exact follows_ofSource source _ limit
  have hrecording := (Contract.recording_kept.expression start).2 henabled
  obtain ⟨hsupplied, hall⟩ := (Contract.supply_kept (scan source)).expression start [] hfollows
  obtain ⟨hreal, hstops⟩ := Contract.stopping_kept.expression start
  have hreporting := Contract.reporting_kept.expression start
  rw [hread] at hrecording hsupplied hall hstops hreporting
  rw [hnothing, List.nil_append] at hrecording
  rw [List.nil_append] at hsupplied hall
  rw [hrecording]
  refine ⟨hsupplied, hreal, ?_⟩
  rintro found rfl
  refine ⟨hstops found rfl, ?_⟩
  rintro cause rfl
  exact ⟨hfault.symm.trans hreporting.1, hall cause rfl⟩

/-- The records of a text that is read are those of a derivation of its
lexemes. -/
theorem Cursor.records_of_expression {tree : Tree}
    (hread : (ofSource source { enabled := true } limit).expression = (.ok tree, s')) :
    ∃ d : Derivation (.phrase .expression), d.lexemes = (scan source).lexemes ∧
      d.meaning = tree ∧
      s'.tracer.records.toList = d.records 0 (Lexeme.atEnd source.utf8ByteSize) := by
  obtain ⟨d, next, hmeaning, hend, hstretch⟩ := linearises_of_expression rfl hread
  obtain ⟨hfollows, hreal, _⟩ := consumed_of_expression hread
  obtain ⟨hnext, hall⟩ :=
    hfollows.of_end_ahead (scan_isReal source) hreal hstretch.next_eq hend
  have hrecords : s'.tracer.records.toList = d.records 0 next := by
    rw [hstretch.tracer_eq]
    simp [Tracer.extended, ofSource]
  rw [hrecords, d.consumptions_records] at hall
  rw [hnext] at hrecords
  exact ⟨d, hall, hmeaning, hrecords⟩

end Texts

/-- The trace of a text goes through its derivation. The records are indented by
two spaces for each rule open around them. If the text is parsed, they are those
of its one derivation, which consumes every lexeme once and in order. If it is
not, every rule that is left is the one entered last of those still open, and
the lexemes consumed are those in front of the fault. -/
theorem Settings.records_of_parse (source : String) (limit : Nat) :
    let records := Settings.records ⟨true, limit⟩ source
    Indented records ∧
    match Settings.parse ⟨true, limit⟩ source with
    | .ok tree =>
      replay? [] records = some [] ∧ consumptions records = (scan source).lexemes ∧
      ∃ d : Derivation (.phrase .expression),
        d.lexemes = (scan source).lexemes ∧ d.meaning = tree ∧
        Derives .expression (d.lexemes.map Lexeme.token) tree ∧
        (∀ d' : Derivation (.phrase .expression), d'.lexemes = (scan source).lexemes → d' = d) ∧
        records = d.records 0 (Lexeme.atEnd source.utf8ByteSize)
    | .error found =>
      (∃ opened, replay? [] records = some opened) ∧
        found.Consumed (scan source).lexemes (consumptions records) := by
  intro records
  rcases hread : Settings.read ⟨true, limit⟩ source with ⟨result, s'⟩
  have hrecords : records = s'.tracer.records.toList := by
    simp only [records, Settings.records, hread]
  have hparse : Settings.parse ⟨true, limit⟩ source = result := by
    simp only [Settings.parse, hread]
  have hopens : (Cursor.ofSource source { enabled := true } limit).Opens [] := ⟨rfl, rfl, rfl⟩
  have hleaves : LeavesOpen [] (result, s') := hread ▸ hopens.expression
  rw [hparse]
  cases result with
  | ok tree =>
    have hreplay : replay? [] records = some [] := by
      rw [hrecords]
      exact hleaves.replay_eq
    obtain ⟨d, hlexemes, rfl, hshape⟩ := Cursor.records_of_expression hread
    rw [← hrecords] at hshape
    have hconsumed : consumptions records = (scan source).lexemes := by
      rw [hshape, d.consumptions_records, hlexemes]
    refine ⟨indented_of_replay? hreplay, hreplay, hconsumed, d, hlexemes, rfl, d.derives, ?_,
      hshape⟩
    intro d' hlexemes'
    exact Derivation.unique (hlexemes'.trans hlexemes.symm)
  | error found =>
    obtain ⟨opened, hopened⟩ := hleaves
    have hreplay : replay? [] records = some opened := by
      rw [hrecords]
      exact hopened.replay_eq
    obtain ⟨hfollows, hreal, hstops⟩ := Cursor.consumed_of_expression hread
    obtain ⟨hwhere, hcause⟩ := hstops found rfl
    refine ⟨indented_of_replay? hreplay, ⟨opened, hreplay⟩, ?_⟩
    rw [hrecords]
    exact hfollows.consumed_of_stopsAt hwhere hcause hreal (scan_ascending source)
      (scan_isReal source)

end Calculator
