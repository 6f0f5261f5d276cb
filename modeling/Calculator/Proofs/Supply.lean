import Calculator.Proofs.Contract
import Calculator.Proofs.Session
import Calculator.Proofs.Tracing

/-!
# What a cursor supplies

A scan supplies its lexemes and then the end of the input for ever, and in
between reports its fault, once. Three contracts follow what the rules do with
this supply: what they consume is the supply in its order, the fault is taken
off where it is met, and an enabled tracer records what is consumed. Each is
carried over to sessions, which go on after calls that failed.
-/

namespace Calculator

/-! ## Sessions -/

/-- The character that a fault reports, if it reports one. -/
def Fault.unrecognized? : Fault → Option Unrecognized
  | .unrecognized cause => some cause
  | _ => none

/-- The fault in an answer. -/
def Answer.fault? : Answer → Option Fault
  | .lexeme result => Calculator.fault? result
  | .tree result => Calculator.fault? result

/-- The unrecognized character that an answer reports. -/
def Answer.report? (answer : Answer) : Option Unrecognized :=
  answer.fault?.bind Fault.unrecognized?

/-- The lexemes consumed among the records, in their order. -/
def consumptions (records : List Record) : List Lexeme :=
  records.filterMap fun record =>
    match record.event with
    | .consume lexeme => some lexeme
    | _ => none

/-- An answer that reports a character has that fault. -/
theorem Answer.fault?_of_report {answer : Answer} {cause : Unrecognized}
    (hreport : answer.report? = some cause) : answer.fault? = some (.unrecognized cause) := by
  obtain ⟨fault, hfault, hcause⟩ := Option.bind_eq_some_iff.mp hreport
  rw [hfault]
  cases fault <;> simp_all [Fault.unrecognized?]

namespace Cursor

/-- The lexemes that a call consumes: the one that is taken, or those that a rule
consumes. -/
def takenBy (s : Cursor) : Call → List Lexeme
  | .peek => []
  | .advance => takenAfter s.advance fun lexeme _ => [lexeme]
  | .chain p => s.chainTaken p
  | .factor => s.factorTaken
  | .expression => s.expressionTaken

/-- The cursor that a sequence of calls leaves behind. -/
def after (s : Cursor) : List Call → Cursor
  | [] => s
  | call :: calls => (s.perform call).2.after calls

/-- The lexemes that a sequence of calls consumes. -/
def taken (s : Cursor) : List Call → List Lexeme
  | [] => []
  | call :: calls => s.takenBy call ++ (s.perform call).2.taken calls

/-- The unrecognized characters that are reported in a session, in order. -/
def reports (s : Cursor) (calls : List Call) : List Unrecognized :=
  (s.session calls).filterMap fun step => step.1.report?

/-- One more call is made on the cursor left behind. -/
theorem after_snoc (s : Cursor) (calls : List Call) (call : Call) :
    s.after (calls ++ [call]) = ((s.after calls).perform call).2 := by
  induction calls generalizing s with
  | nil => rfl
  | cons first calls ih => exact ih (s.perform first).2

/-- One more call adds what it consumes. -/
theorem taken_snoc (s : Cursor) (calls : List Call) (call : Call) :
    s.taken (calls ++ [call]) = s.taken calls ++ (s.after calls).takenBy call := by
  induction calls generalizing s with
  | nil => simp [taken, after]
  | cons first calls ih =>
    simp only [List.cons_append, taken, after, ih, List.append_assoc]

/-- A report of the first call comes before those of the others. -/
theorem reports_cons (s : Cursor) (call : Call) (calls : List Call) :
    s.reports (call :: calls) =
      (s.perform call).1.report?.toList ++ (s.perform call).2.reports calls := by
  simp only [reports, session, List.filterMap_cons]
  cases (s.perform call).1.report? <;> rfl

/-- The outcomes of a look ahead. -/
theorem peek_cases (s : Cursor) :
    (∃ ahead, s.lookahead = some ahead ∧ s.peek = (.ok ahead, s)) ∨
    (∃ ahead rest, s.lookahead = none ∧ s.upcoming = ahead :: rest ∧
      s.peek = (.ok ahead, { s with lookahead := some ahead, upcoming := rest })) ∨
    (∃ cause, s.lookahead = none ∧ s.upcoming = [] ∧ s.fault = some cause ∧
      s.peek = (.error (.unrecognized cause), { s with fault := none })) ∨
    (s.lookahead = none ∧ s.upcoming = [] ∧ s.fault = none ∧ s.peek =
      (.ok (Lexeme.atEnd s.size), { s with lookahead := some (Lexeme.atEnd s.size) })) := by
  unfold peek
  split <;> simp_all

/-- The outcomes of opening a group. Only the count of open groups changes. -/
theorem openGroup_cases (s : Cursor) (position : Nat) :
    s.openGroup position = (.error (.nestingTooDeep s.limit position), s) ∨
      s.openGroup position = (.ok (), { s with nesting := s.nesting + 1 }) := by
  unfold openGroup
  split
  · exact Or.inl rfl
  · exact Or.inr rfl

/-- A group that was opened is counted. -/
theorem eq_of_openGroup {s s₁ : Cursor} {position : Nat}
    (hopen : s.openGroup position = (.ok (), s₁)) : s₁ = { s with nesting := s.nesting + 1 } := by
  rcases s.openGroup_cases position with hcase | hcase
  · rw [hcase] at hopen
    cases hopen
  · rw [hcase] at hopen
    cases hopen
    rfl

end Cursor

/-- A contract that holds across every move holds across every call, if it also
holds where the end of the input is consumed. -/
theorem Contract.Kept.perform {P : Contract} (h : P.Kept)
    (hconsume : ∀ {s ahead}, s.lookahead = some ahead → P s [ahead] none (s.consume ahead))
    (s : Cursor) (call : Call) :
    P s (s.takenBy call) (s.perform call).1.fault? (s.perform call).2 := by
  cases call with
  | peek => exact h.peek s
  | advance => exact h.advance hconsume s
  | chain p => exact h.rules.1 p s
  | factor => exact h.rules.2.2.2 s
  | expression => exact h.expression s

/-! ## The lexemes that are consumed -/

/-- The lexemes consumed so far, the lookahead and the upcoming lexemes are
together what the scan supplies: its lexemes with the fault still to come, or
all of its lexemes and then only the end of the input. -/
structure Cursor.Follows (s : Cursor) (scan : Scan) (consumed : List Lexeme) : Prop where
  /-- The end of the input is where the text ends. -/
  size_eq : s.size = scan.size
  /-- Nothing is lost, repeated or out of order. -/
  ahead : (s.fault = scan.fault ∧ consumed ++ s.lookahead.toList ++ s.upcoming = scan.lexemes) ∨
    (s.fault = none ∧ s.upcoming = [] ∧
      (∀ ahead, s.lookahead = some ahead → ahead = Lexeme.atEnd scan.size) ∧
      ∃ count, consumed = scan.lexemes ++ List.replicate count (Lexeme.atEnd scan.size))

namespace Cursor.Follows

variable {s : Cursor} {scan : Scan} {consumed : List Lexeme}

/-- A look ahead keeps to what the scan supplies, and meets the fault behind the
last lexeme only. -/
theorem peek (h : s.Follows scan consumed) :
    s.peek.2.Follows scan consumed ∧
      ∀ cause, s.peek.1 = .error (.unrecognized cause) → consumed = scan.lexemes := by
  obtain ⟨hsize, hahead⟩ := h
  rcases s.peek_cases with ⟨ahead, hlookahead, hpeek⟩ |
    ⟨ahead, rest, hlookahead, hupcoming, hpeek⟩ |
    ⟨cause, hlookahead, hupcoming, hfault, hpeek⟩ | ⟨hlookahead, hupcoming, hfault, hpeek⟩
  · rw [hpeek]
    exact ⟨⟨hsize, hahead⟩, fun _ h => nomatch h⟩
  · rw [hpeek]
    refine ⟨⟨hsize, ?_⟩, fun _ h => nomatch h⟩
    rcases hahead with ⟨hunread, hlexemes⟩ | ⟨_, hover, _⟩
    · left
      refine ⟨hunread, ?_⟩
      simpa [hlookahead, hupcoming] using hlexemes
    · rw [hupcoming] at hover
      cases hover
  · rw [hpeek]
    rcases hahead with ⟨_, hlexemes⟩ | ⟨hnone, _⟩
    · have hall : consumed = scan.lexemes := by simpa [hlookahead, hupcoming] using hlexemes
      have hend : ∀ ahead, s.lookahead = some ahead → ahead = Lexeme.atEnd scan.size := by
        simp [hlookahead]
      refine ⟨⟨hsize, Or.inr ⟨rfl, hupcoming, hend, 0, ?_⟩⟩, fun _ _ => hall⟩
      rw [hall, List.replicate_zero, List.append_nil]
    · rw [hfault] at hnone
      cases hnone
  · rw [hpeek]
    have hend : ∀ ahead, some (Lexeme.atEnd s.size) = some ahead →
        ahead = Lexeme.atEnd scan.size := by
      rintro ahead ⟨⟩
      rw [hsize]
    refine ⟨⟨hsize, Or.inr ⟨hfault, hupcoming, hend, ?_⟩⟩, fun _ h => nomatch h⟩
    rcases hahead with ⟨_, hlexemes⟩ | ⟨_, _, _, hconsumed⟩
    · refine ⟨0, ?_⟩
      simpa [hlookahead, hupcoming] using hlexemes
    · exact hconsumed

/-- Consuming the lookahead moves it to what is consumed. -/
theorem consume (h : s.Follows scan consumed) {ahead : Lexeme}
    (hlookahead : s.lookahead = some ahead) :
    (s.consume ahead).Follows scan (consumed ++ [ahead]) := by
  obtain ⟨hsize, hahead⟩ := h
  refine ⟨hsize, ?_⟩
  rcases hahead with ⟨hfault, hlexemes⟩ | ⟨hfault, hupcoming, hend, count, hconsumed⟩
  · left
    refine ⟨hfault, ?_⟩
    simpa [Cursor.consume, hlookahead] using hlexemes
  · right
    refine ⟨hfault, hupcoming, ?_, count + 1, ?_⟩
    · rintro _ ⟨⟩
    · rw [hend ahead hlookahead, hconsumed, List.replicate_succ', List.append_assoc]

/-- The lexemes consumed and looked at are the first that the scan supplies, and
the upcoming ones follow. -/
theorem seen_append_upcoming (h : s.Follows scan consumed) :
    ∃ count, consumed ++ s.lookahead.toList ++ s.upcoming =
      scan.lexemes ++ List.replicate count (Lexeme.atEnd scan.size) := by
  rcases h.ahead with ⟨_, hlexemes⟩ | ⟨_, hupcoming, hend, count, hconsumed⟩
  · refine ⟨0, ?_⟩
    rw [hlexemes, List.replicate_zero, List.append_nil]
  · rw [hupcoming, List.append_nil]
    cases hlookahead : s.lookahead with
    | none => exact ⟨count, by simp [hconsumed]⟩
    | some ahead =>
      refine ⟨count + 1, ?_⟩
      simp [hconsumed, hend ahead hlookahead, List.replicate_succ']

/-- Nothing but lexemes was consumed or looked at while the fault is still to
come. -/
theorem seen_prefix_of_fault (h : s.Follows scan consumed) {cause : Unrecognized}
    (hfault : s.fault = some cause) : consumed ++ s.lookahead.toList <+: scan.lexemes := by
  rcases h.ahead with ⟨_, hlexemes⟩ | ⟨hnone, _⟩
  · exact ⟨s.upcoming, hlexemes⟩
  · rw [hfault] at hnone
    cases hnone

end Cursor.Follows

/-- What is consumed is what the scan supplies, and all of its lexemes are
consumed where its fault is met. -/
def Contract.supply (scan : Scan) : Contract := fun s taken fault s' =>
  ∀ consumed, s.Follows scan consumed → s'.Follows scan (consumed ++ taken) ∧
    ∀ cause, fault = some (.unrecognized cause) → consumed ++ taken = scan.lexemes

/-- A lexeme that is consumed is the next one. -/
theorem Contract.supply_consume (scan : Scan) {s : Cursor} {ahead : Lexeme}
    (hahead : s.lookahead = some ahead) :
    Contract.supply scan s [ahead] none (s.consume ahead) := by
  intro consumed h
  exact ⟨h.consume hahead, fun _ h => nomatch h⟩

/-- No rule loses, repeats or reorders lexemes. -/
theorem Contract.supply_kept (scan : Scan) : (Contract.supply scan).Kept where
  nothing := by
    intro s consumed h
    rw [List.append_nil]
    exact ⟨h, fun _ h => nomatch h⟩
  trans := by
    intro s s₁ s₂ first second fault hfirst hsecond consumed h
    -- What the second stretch finds consumed includes what the first consumed.
    rw [← List.append_assoc]
    exact hsecond (consumed ++ first) (hfirst consumed h).1
  peek := by
    intro s consumed h
    rw [List.append_nil]
    refine ⟨h.peek.1, ?_⟩
    intro cause hcause
    apply h.peek.2 cause
    cases hpeek : s.peek.1 with
    | error fault =>
      rw [hpeek] at hcause
      cases hcause
      rfl
    | ok ahead =>
      rw [hpeek] at hcause
      cases hcause
  enter := by
    intro s ahead rule _ hahead consumed h
    rw [List.append_nil]
    exact ⟨⟨h.size_eq, h.ahead⟩, fun _ h => nomatch h⟩
  exit := by
    intro s ahead rule _ hahead consumed h
    rw [List.append_nil]
    exact ⟨⟨h.size_eq, h.ahead⟩, fun _ h => nomatch h⟩
  consume hahead _ := supply_consume scan hahead
  openGroup := by
    intro s ahead hahead _ consumed h
    have hconsumed := h.consume hahead
    rcases (s.consume ahead).openGroup_cases ahead.start with hopen | hopen
    · rw [hopen]
      exact ⟨hconsumed, fun _ h => nomatch h⟩
    · rw [hopen]
      exact ⟨⟨hconsumed.size_eq, hconsumed.ahead⟩, fun _ h => nomatch h⟩
  closeGroup := by
    intro s consumed h
    rw [List.append_nil]
    exact ⟨⟨h.size_eq, h.ahead⟩, fun _ h => nomatch h⟩
  refuse := by
    intro s ahead fault hahead hrefused consumed h
    rw [List.append_nil]
    refine ⟨h, ?_⟩
    rintro cause ⟨⟩
    cases hrefused

/-- With every sequence of calls the cursor goes on through what the scan
supplies. -/
theorem Cursor.Follows.after {s : Cursor} {scan : Scan} {consumed : List Lexeme}
    (h : s.Follows scan consumed) (calls : List Call) :
    (s.after calls).Follows scan (consumed ++ s.taken calls) := by
  induction calls generalizing s consumed with
  | nil =>
    rw [taken, List.append_nil]
    exact h
  | cons call calls ih =>
    have hkept := Contract.supply_kept scan
    have hperform := (hkept.perform (Contract.supply_consume scan) s call consumed h).1
    rw [taken, ← List.append_assoc]
    exact ih hperform

/-- At the start of a text nothing is consumed. -/
theorem Cursor.follows_ofSource (source : String) (tracer : Tracer) (limit : Nat) :
    (ofSource source tracer limit).Follows (scan source) [] where
  size_eq := rfl
  ahead := Or.inl ⟨rfl, rfl⟩

/-! ## The fault of the scan -/

/-- The fault of the scan is met once, and nothing is ahead then. -/
def Contract.reporting : Contract := fun s _ fault s' =>
  match fault.bind Fault.unrecognized? with
  | some cause => s.fault = some cause ∧ s'.fault = none ∧ s'.lookahead = none ∧ s'.upcoming = []
  | none => s'.fault = s.fault

/-- A fault with which a lexeme is refused reports no character. -/
theorem Lexeme.Refused.unrecognized?_eq {ahead : Lexeme} {fault : Fault}
    (hrefused : ahead.Refused fault) : fault.unrecognized? = none := by
  cases hrefused <;> rfl

/-- No rule hides the fault of the scan or reports it twice. -/
theorem Contract.reporting_kept : Contract.reporting.Kept where
  nothing s := rfl
  trans := by
    intro s s₁ s₂ first second fault hfirst hsecond
    have hfault : s₁.fault = s.fault := hfirst
    unfold reporting at hsecond ⊢
    rwa [hfault] at hsecond
  peek := by
    intro s
    rcases s.peek_cases with ⟨ahead, _, hpeek⟩ | ⟨ahead, rest, _, _, hpeek⟩ |
      ⟨cause, hlookahead, hupcoming, hfault, hpeek⟩ | ⟨_, _, _, hpeek⟩
    · rw [hpeek]
      rfl
    · rw [hpeek]
      rfl
    · rw [hpeek]
      exact ⟨hfault, rfl, hlookahead, hupcoming⟩
    · rw [hpeek]
      rfl
  enter _ _ := rfl
  exit _ _ := rfl
  consume _ _ := rfl
  openGroup := by
    intro s ahead _ _
    rcases (s.consume ahead).openGroup_cases ahead.start with hopen | hopen
    · rw [hopen]
      rfl
    · rw [hopen]
      rfl
  closeGroup s := rfl
  refuse := by
    intro s ahead fault _ hrefused
    unfold reporting
    rw [Option.bind_some, hrefused.unrecognized?_eq]

/-- A call that reports a character finds it ahead as the fault of the scan, and
leaves nothing ahead. -/
theorem Cursor.fault_of_report {s : Cursor} {call : Call} {cause : Unrecognized}
    (hreport : (s.perform call).1.report? = some cause) :
    s.fault = some cause ∧ (s.perform call).2.fault = none ∧
      (s.perform call).2.lookahead = none ∧ (s.perform call).2.upcoming = [] := by
  have h := Contract.reporting_kept.perform (fun _ => rfl) s call
  unfold Contract.reporting at h
  rwa [show (s.perform call).1.fault?.bind Fault.unrecognized? = some cause from hreport] at h

/-- A call that reports no character leaves the fault of the scan ahead. -/
theorem Cursor.fault_of_no_report {s : Cursor} {call : Call}
    (hreport : (s.perform call).1.report? = none) : (s.perform call).2.fault = s.fault := by
  have h := Contract.reporting_kept.perform (fun _ => rfl) s call
  unfold Contract.reporting at h
  rwa [show (s.perform call).1.fault?.bind Fault.unrecognized? = none from hreport] at h

/-- In a session the fault of the scan is still ahead, or it was reported
once. -/
theorem Cursor.reports_cases (s : Cursor) (calls : List Call) :
    (s.reports calls = [] ∧ (s.after calls).fault = s.fault) ∨
      ∃ cause, s.reports calls = [cause] ∧ s.fault = some cause ∧ (s.after calls).fault = none := by
  induction calls generalizing s with
  | nil => exact Or.inl ⟨rfl, rfl⟩
  | cons call calls ih =>
    rw [reports_cons]
    cases hreport : (s.perform call).1.report? with
    | none =>
      have hfault := fault_of_no_report hreport
      have hrest := ih (s.perform call).2
      rw [hfault] at hrest
      exact hrest
    | some cause =>
      obtain ⟨hahead, hnone, _⟩ := fault_of_report hreport
      rcases ih (s.perform call).2 with ⟨hreports, hfault⟩ | ⟨cause', _, hfault, _⟩
      · right
        refine ⟨cause, ?_, hahead, hfault.trans hnone⟩
        rw [hreports]
        rfl
      · rw [hnone] at hfault
        cases hfault

/-! ## The records -/

/-- The lexemes consumed in two stretches are those of the first and then those
of the second. -/
@[simp] theorem consumptions_append (first second : List Record) :
    consumptions (first ++ second) = consumptions first ++ consumptions second :=
  List.filterMap_append

/-- What is consumed is recorded, and nothing else is recorded as consumed. -/
def Contract.recording : Contract := fun s taken _ s' =>
  s'.tracer.enabled = s.tracer.enabled ∧ (s.tracer.enabled = true →
    consumptions s'.tracer.records.toList = consumptions s.tracer.records.toList ++ taken)

/-- A note about a rule that is entered records no consumption. -/
theorem Tracer.consumptions_enter (tracer : Tracer) (rule : String) (ahead : Lexeme) :
    (tracer.enter rule ahead).enabled = tracer.enabled ∧
      consumptions (tracer.enter rule ahead).records.toList =
        consumptions tracer.records.toList := by
  unfold enter
  split
  · simp [consumptions]
  · exact ⟨rfl, rfl⟩

/-- A note about a rule that is left records no consumption. -/
theorem Tracer.consumptions_exit (tracer : Tracer) (rule : String) (ahead : Lexeme) :
    (tracer.exit rule ahead).enabled = tracer.enabled ∧
      consumptions (tracer.exit rule ahead).records.toList =
        consumptions tracer.records.toList := by
  unfold exit
  split
  · simp [consumptions]
  · exact ⟨rfl, rfl⟩

/-- A lexeme that is consumed is recorded last. -/
theorem Tracer.consumptions_consume (tracer : Tracer) (lexeme : Lexeme) :
    (tracer.consume lexeme).enabled = tracer.enabled ∧ (tracer.enabled = true →
      consumptions (tracer.consume lexeme).records.toList =
        consumptions tracer.records.toList ++ [lexeme]) := by
  unfold consume
  split
  · simp [consumptions]
  · rename_i hdisabled
    exact ⟨rfl, fun henabled => absurd henabled hdisabled⟩

/-- Every rule records what it consumes. -/
theorem Contract.recording_kept : Contract.recording.Kept where
  nothing s := ⟨rfl, fun _ => by rw [List.append_nil]⟩
  trans := by
    intro s s₁ s₂ first second fault hfirst hsecond
    refine ⟨hsecond.1.trans hfirst.1, ?_⟩
    intro henabled
    rw [hsecond.2 (hfirst.1.trans henabled), hfirst.2 henabled, List.append_assoc]
  peek := by
    intro s
    have htracer : s.peek.2.tracer = s.tracer := Cursor.tracer_of_peek rfl
    unfold Holds recording
    rw [htracer]
    exact ⟨rfl, fun _ => by rw [List.append_nil]⟩
  enter := by
    intro s ahead rule _ _
    obtain ⟨henabled, hsame⟩ := s.tracer.consumptions_enter rule ahead
    exact ⟨henabled, fun _ => by rw [hsame, List.append_nil]⟩
  exit := by
    intro s ahead rule _ _
    obtain ⟨henabled, hsame⟩ := s.tracer.consumptions_exit rule ahead
    exact ⟨henabled, fun _ => by rw [hsame, List.append_nil]⟩
  consume {s ahead} _ _ := s.tracer.consumptions_consume ahead
  openGroup := by
    intro s ahead _ _
    have hconsume := s.tracer.consumptions_consume ahead
    rcases (s.consume ahead).openGroup_cases ahead.start with hopen | hopen
    · rw [hopen]
      exact hconsume
    · rw [hopen]
      exact hconsume
  closeGroup s := ⟨rfl, fun _ => by rw [List.append_nil]; rfl⟩
  refuse _ _ := ⟨rfl, fun _ => by rw [List.append_nil]⟩

/-- An enabled tracer has recorded all that a session has consumed. -/
theorem Cursor.consumptions_after {s : Cursor} (henabled : s.tracer.enabled = true)
    (calls : List Call) :
    consumptions (s.after calls).tracer.records.toList =
      consumptions s.tracer.records.toList ++ s.taken calls := by
  induction calls generalizing s with
  | nil => rw [after, taken, List.append_nil]
  | cons call calls ih =>
    obtain ⟨hsame, hrecords⟩ := Contract.recording_kept.perform
      (fun _ => Tracer.consumptions_consume _ _) s call
    rw [after, ih (hsame.trans henabled), hrecords henabled, taken, List.append_assoc]

end Calculator
