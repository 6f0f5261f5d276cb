import Calculator.Proofs.PlainText

/-!
# What a run of the program reports

A calculation ends with the status and the output that the result of parsing
decides. Its log goes to the error output: the line that announces the
expression, if the level asks for it, then the trace, if it is switched on, and
at last the message of a fault. Switching the trace on adds the lines of the
trace at this place and changes nothing else.
-/

namespace Calculator

/-! ## What is visible of a plain line -/

/-- Outside of sequences, a character that is drawn is shown. -/
theorem Filter.step_of_isDrawn {filter : Filter} {c : Char} (hplace : filter.place = .plain)
    (hdrawn : isDrawn c = true) :
    (filter.step c).place = .plain ∧ (filter.step c).shown = c :: filter.shown := by
  have hshows : (if filter.showing then isDrawn c else filter.place.shows c) = true := by
    rw [hplace]
    simp only [Sequence.shows, hdrawn, ite_self]
  rw [step, if_pos hshows]
  constructor
  · simp only [hplace, ite_self]
  · rfl

/-- Outside of sequences, characters that are drawn are shown. -/
theorem Filter.shown_of_isDrawn {filter : Filter} {chars : List Char}
    (hplace : filter.place = .plain) (hdrawn : ∀ c ∈ chars, isDrawn c = true) :
    (chars.foldl step filter).shown = chars.reverse ++ filter.shown := by
  induction chars generalizing filter with
  | nil => rfl
  | cons c chars ih =>
    obtain ⟨hplace', hshown⟩ := step_of_isDrawn hplace (hdrawn c (by simp))
    rw [List.foldl_cons, ih hplace' fun c' hc => hdrawn c' (List.mem_cons_of_mem c hc), hshown,
      List.reverse_cons, List.append_assoc, List.singleton_append]

/-- A plain line is visible as a whole. -/
theorem Plain.visible_line {text : String} (h : Plain text) :
    visible (text ++ "\n") = text ++ "\n" := by
  have hdrawn : ∀ c ∈ (text ++ "\n").toList, isDrawn c = true := by
    intro c hc
    rw [String.toList_append] at hc
    rcases List.mem_append.mp hc with hc | hc
    · have hplain := h c hc
      simp only [codeBetween, Bool.and_eq_true, decide_eq_true_eq] at hplain
      simp only [isDrawn, Bool.or_eq_true, Bool.and_eq_true, decide_eq_true_eq]
      omega
    · have hnewline : c = '\n' := by simpa using hc
      rw [hnewline]
      rfl
  rw [visible, Filter.shown_of_isDrawn rfl hdrawn, List.append_nil, List.reverse_reverse,
    String.ofList_toList]

/-- Without tracing nothing is recorded. -/
theorem Settings.records_of_untraced {settings : Settings} (hoff : settings.traced = false)
    (source : String) : settings.records source = [] := by
  have hquiet := Cursor.quietly_expression (Cursor.ofSource source {} settings.limit)
  rw [Cursor.quiet_ofSource] at hquiet
  unfold records read
  rw [hoff]
  exact congrArg (fun r : Reading => r.2.tracer.records.toList) hquiet.symm

namespace CommandLine

/-! ## The lines of the trace -/

/-- A message on one line is not indented. -/
theorem indented_of_onOneLine {message : String} (h : OnOneLine message) :
    indented message = message := by
  have hsame (chars : List Char) (hchars : ∀ c ∈ chars, c ≠ '\n') :
      chars.flatMap (fun c => if c = '\n' then ['\n', ' ', ' ', ' ', ' '] else [c]) = chars := by
    induction chars with
    | nil => rfl
    | cons c chars ih =>
      rw [List.flatMap_cons, if_neg (hchars c (by simp)),
        ih fun c' hc => hchars c' (List.mem_cons_of_mem c hc), List.singleton_append]
  rw [indented, hsame message.toList fun c hc => (h c hc).1, String.ofList_toList]

/-- What stands in front of a record in the log. -/
def traceLabel : String := "[DEBUG exprtree::trace] "

/-- A plain record is shown behind its label, on a line of its own, and nothing
of the line is hidden. -/
theorem traceLine_of_plain {record : Record} (h : Plain record.text) :
    traceLine record = traceLabel ++ record.text ++ "\n" ∧
      visible (traceLine record) = traceLine record := by
  have hlabel : "[DEBUG exprtree::trace]" ++ " " = traceLabel := by decide +kernel
  have hline : traceLine record = traceLabel ++ record.text ++ "\n" := by
    rw [traceLine, logLine, hlabel, indented_of_onOneLine h.onOneLine]
  have hplain : Plain (traceLabel ++ record.text) :=
    plain_append.mpr ⟨by decide +kernel, h⟩
  refine ⟨hline, ?_⟩
  rw [hline, hplain.visible_line]

/-! ## Switching the trace on -/

/-- A switch other than that for the trace is set in the same way if the trace is
on already. -/
theorem Options.set_traced {options options' : Options} {switch : Switch}
    (hset : options.set switch = .ok options') (hoff : options'.debug = false) :
    options.debug = false ∧
      { options with debug := true }.set switch = .ok { options' with debug := true } := by
  unfold set at hset ⊢
  cases switch with
  | parse =>
    simp only at hset ⊢
    split at hset
    · cases hset
    · rename_i hparse
      cases hset
      exact ⟨hoff, if_neg hparse⟩
  | debug =>
    simp only at hset
    split at hset
    · cases hset
    · cases hset
      cases hoff
  | help => cases hset
  | version => cases hset

/-- Switches other than that for the trace are set in the same way if the trace is
on already. -/
theorem Options.setAll_traced {options options' : Options} {switches : List Switch}
    (hset : switches.foldlM Options.set options = .ok options') (hoff : options'.debug = false) :
    options.debug = false ∧
      switches.foldlM Options.set { options with debug := true } =
        .ok { options' with debug := true } := by
  induction switches generalizing options with
  | nil =>
    cases hset
    exact ⟨hoff, rfl⟩
  | cons switch switches ih =>
    rw [List.foldlM_cons] at hset ⊢
    cases hfirst : options.set switch with
    | error request =>
      rw [hfirst] at hset
      cases hset
    | ok options₁ =>
      rw [hfirst] at hset
      obtain ⟨hoff₁, hrest⟩ := ih hset
      obtain ⟨hoff₀, htraced⟩ := Options.set_traced hfirst hoff₁
      refine ⟨hoff₀, ?_⟩
      rw [htraced]
      exact hrest

/-- A switch that ends the reading of arguments asks for no calculation. -/
theorem Options.set_eq_error {options : Options} {switch : Switch} {request : Request}
    (hset : options.set switch = .error request) (options' : Options) (expression : String) :
    request ≠ .calculate options' expression := by
  rintro rfl
  unfold set at hset
  cases switch with
  | parse =>
    simp only at hset
    split at hset <;> cases hset
  | debug =>
    simp only at hset
    split at hset <;> cases hset
  | help => cases hset
  | version => cases hset

/-- Switches that end the reading of arguments ask for no calculation. -/
theorem Options.setAll_eq_error {options : Options} {switches : List Switch} {request : Request}
    (hset : switches.foldlM Options.set options = .error request) (options' : Options)
    (expression : String) : request ≠ .calculate options' expression := by
  induction switches generalizing options with
  | nil => cases hset
  | cons switch switches ih =>
    rw [List.foldlM_cons] at hset
    cases hfirst : options.set switch with
    | error request' =>
      rw [hfirst] at hset
      cases hset
      exact Options.set_eq_error hfirst options' expression
    | ok options₁ =>
      rw [hfirst] at hset
      exact ih hset

/-- Arguments that ask for a calculation without the trace ask for the same
calculation with the trace if it is on already. -/
theorem Options.read_traced {options options' : Options} {arguments : List String}
    {expression : String} (hread : options.read arguments = .calculate options' expression)
    (hoff : options'.debug = false) :
    options.debug = false ∧ { options with debug := true }.read arguments =
      .calculate { options' with debug := true } expression := by
  induction arguments generalizing options with
  | nil =>
    cases hread
    exact ⟨hoff, rfl⟩
  | cons argument rest ih =>
    unfold read at hread ⊢
    cases hargument : Argument.ofString argument with
    | separator =>
      simp only [hargument] at hread ⊢
      cases hread
      exact ⟨hoff, rfl⟩
    | piece =>
      simp only [hargument] at hread ⊢
      cases hread
      exact ⟨hoff, rfl⟩
    | valued switch value =>
      simp only [hargument] at hread
      cases hread
    | switches list =>
      simp only [hargument] at hread ⊢
      cases hset : list.foldlM Options.set options with
      | error request =>
        simp only [hset] at hread
        exact absurd hread (Options.setAll_eq_error hset options' expression)
      | ok options₁ =>
        simp only [hset] at hread
        obtain ⟨hoff₁, hrest⟩ := ih hread
        obtain ⟨hoff₀, htraced⟩ := Options.setAll_traced hset hoff₁
        refine ⟨hoff₀, ?_⟩
        simp only [htraced]
        exact hrest

/-- The switch for the trace in front of other arguments turns it on. -/
theorem ofArguments_traced {arguments : List String} {options : Options} {expression : String}
    (hrequest : Request.ofArguments arguments = .calculate options expression)
    (hoff : options.debug = false) :
    Request.ofArguments ("-d" :: arguments) =
      .calculate { options with debug := true } expression := by
  have hswitch : Argument.ofString "-d" = .switches [.debug] := by decide +kernel
  have htraced := (Options.read_traced hrequest hoff).2
  unfold Request.ofArguments Options.read
  simp only [hswitch]
  exact htraced

/-! ## Outcomes -/

/-- The line that announces an expression, if the level asks for it. -/
def announcement (level : Level) (expression : String) : String :=
  if level.showsInfo then infoLine expression else ""

/-- The line about a fault, if there is one. -/
def failureLine : Except Fault Tree → String
  | .ok _ => ""
  | .error found => found.message ++ "\n"

/-- The lines of the trace of an expression, one for each record. -/
def traceLines (expression : String) : String :=
  String.join ((Settings.records { traced := true } expression).map fun record =>
    traceLabel ++ record.text ++ "\n")

/-- What a calculation logs of the trace are its lines, if it is switched on. -/
theorem join_traceLine (options : Options) (expression : String) :
    String.join ((Settings.records { traced := options.debug } expression).map traceLine) =
      if options.debug then traceLines expression else "" := by
  cases options.debug with
  | false =>
    rw [Settings.records_of_untraced rfl]
    rfl
  | true =>
    have hlines : (Settings.records { traced := true } expression).map traceLine =
        (Settings.records { traced := true } expression).map fun record =>
          traceLabel ++ record.text ++ "\n" := by
      apply List.map_congr_left
      intro record hrecord
      exact (traceLine_of_plain (Settings.plain_records _ expression record hrecord)).1
    rw [hlines, if_pos rfl, traceLines]

/-- A calculation parses its expression with the usual limit, traced or not. -/
theorem read_eq_parse (traced : Bool) (expression : String) :
    (Settings.read { traced } expression).1 = Calculator.parse expression := by
  have htraced := Settings.parse_eq_untraced { traced } expression
  have husual := Settings.parse_eq_untraced {} expression
  exact htraced.trans husual.symm

/-- The outcome for an expression that parses. -/
theorem Options.calculate_of_ok {expression : String} {tree : Tree} (options : Options)
    (level : Level) (hparse : Calculator.parse expression = .ok tree) :
    options.calculate level expression =
      { status := 0
        stdout := (if options.parse then tree.render else Number.pointedText tree.evaluate) ++ "\n"
        stderr := announcement level expression ++
          if options.debug then traceLines expression else "" } := by
  have hresult := read_eq_parse options.debug expression
  rw [hparse] at hresult
  rw [← join_traceLine]
  unfold calculate
  simp only [hresult]
  rfl

/-- The outcome for an expression that does not parse. -/
theorem Options.calculate_of_error {expression : String} {found : Fault} (options : Options)
    (level : Level) (hparse : Calculator.parse expression = .error found) :
    options.calculate level expression =
      { status := 1
        stderr := announcement level expression ++
          (if options.debug then traceLines expression else "") ++ found.message ++ "\n" } := by
  have hresult := read_eq_parse options.debug expression
  rw [hparse] at hresult
  rw [← join_traceLine]
  unfold calculate
  simp only [hresult]
  rfl

/-- The log of a calculation: the announcement, the trace if it is switched on,
and the line about a fault. -/
theorem Options.stderr_calculate (options : Options) (level : Level) (expression : String) :
    (options.calculate level expression).stderr =
      announcement level expression ++ (if options.debug then traceLines expression else "") ++
        failureLine (Calculator.parse expression) := by
  cases hparse : Calculator.parse expression with
  | ok tree => rw [options.calculate_of_ok level hparse, failureLine, String.append_empty]
  | error found =>
    rw [options.calculate_of_error level hparse, failureLine, String.append_assoc]

/-- The status and the output of a calculation do not depend on the trace. -/
theorem Options.calculate_traced (options : Options) (level : Level) (expression : String) :
    ({ options with debug := true }.calculate level expression).status =
        (options.calculate level expression).status ∧
      ({ options with debug := true }.calculate level expression).stdout =
        (options.calculate level expression).stdout := by
  cases hparse : Calculator.parse expression with
  | ok tree =>
    rw [options.calculate_of_ok level hparse, Options.calculate_of_ok _ level hparse]
    exact ⟨rfl, rfl⟩
  | error found =>
    rw [options.calculate_of_error level hparse, Options.calculate_of_error _ level hparse]
    exact ⟨rfl, rfl⟩

/-- A calculation ends with status 0 exactly if its expression parses with the
usual limit, and then prints the value or the tree and nothing else. Otherwise it
ends with status 1, prints nothing, and the message about the fault is the last
line of its log. Switching the trace on in front of the other arguments changes
neither the status nor the output. It adds to the log one line for each record of
the trace, behind the announcement and in front of the line about a fault. The
setting is that of the log level, as far as `Level.ofSetting` covers it. -/
theorem run_decided_by_parse (arguments : List String) (setting : Option String)
    (options : Options) (expression : String)
    (hrequest : Request.ofArguments arguments = .calculate options expression) :
    ((run arguments setting).status = 0 ↔ ∃ tree, Calculator.parse expression = .ok tree) ∧
    (∀ tree, Calculator.parse expression = .ok tree →
      (run arguments setting).stdout =
        (if options.parse then tree.render else Number.pointedText tree.evaluate) ++ "\n") ∧
    (∀ found, Calculator.parse expression = .error found →
      (run arguments setting).status = 1 ∧ (run arguments setting).stdout = "" ∧
      (∃ log, (run arguments setting).stderr = log ++ found.message ++ "\n") ∧
      OnOneLine found.message) ∧
    (options.debug = false →
      (run ("-d" :: arguments) setting).status = (run arguments setting).status ∧
      (run ("-d" :: arguments) setting).stdout = (run arguments setting).stdout ∧
      (run arguments setting).stderr =
        announcement (Level.ofSetting setting) expression ++
          failureLine (Calculator.parse expression) ∧
      (run ("-d" :: arguments) setting).stderr =
        announcement (Level.ofSetting setting) expression ++ traceLines expression ++
          failureLine (Calculator.parse expression) ∧
      ∀ record ∈ Settings.records { traced := true } expression,
        OnOneLine record.text ∧ visible (traceLine record) = traceLabel ++ record.text ++ "\n") := by
  have hrun : run arguments setting = options.calculate (Level.ofSetting setting) expression := by
    unfold run
    rw [hrequest]
    rfl
  rw [hrun]
  refine ⟨⟨?_, ?_⟩, ?_, ?_, ?_⟩
  · intro hstatus
    cases hparse : Calculator.parse expression with
    | ok tree => exact ⟨tree, rfl⟩
    | error found =>
      rw [options.calculate_of_error _ hparse] at hstatus
      cases hstatus
  · rintro ⟨tree, hparse⟩
    rw [options.calculate_of_ok _ hparse]
  · intro tree hparse
    rw [options.calculate_of_ok _ hparse]
  · intro found hparse
    rw [options.calculate_of_error _ hparse]
    exact ⟨rfl, rfl, ⟨_, rfl⟩, Settings.onOneLine_message_of_parse hparse⟩
  · intro hoff
    have htraced : run ("-d" :: arguments) setting =
        { options with debug := true }.calculate (Level.ofSetting setting) expression := by
      unfold run
      rw [ofArguments_traced hrequest hoff]
      rfl
    obtain ⟨hstatus, hstdout⟩ := options.calculate_traced (Level.ofSetting setting) expression
    rw [htraced]
    refine ⟨hstatus, hstdout, ?_, ?_, ?_⟩
    · rw [options.stderr_calculate, hoff, if_neg Bool.false_ne_true, String.append_empty]
    · rw [Options.stderr_calculate, if_pos rfl]
    · intro record hrecord
      have hplain := Settings.plain_records _ expression record hrecord
      obtain ⟨hline, hvisible⟩ := traceLine_of_plain hplain
      exact ⟨hplain.onOneLine, hvisible.trans hline⟩

/-- A vertical tab behind a line feed is escaped in the last line of the log, with
and without the trace in front of it. -/
theorem run_decided_by_parse_control :
    Request.ofArguments ["1\n\x0b"] = .calculate {} "1\n\x0b" ∧
      (run ["1\n\x0b"] (some "info")).status = 1 ∧
      (run ["-d", "1\n\x0b"] (some "info")).status = 1 ∧
      (run ["-d", "1\n\x0b"] (some "info")).stderr =
        infoLine "1\n\x0b" ++ traceLines "1\n\x0b" ++
          "Error at position 2: Unrecognized character '\\u\x7bb\x7d'.\n" := by
  have hrequest : Request.ofArguments ["1\n\x0b"] = .calculate {} "1\n\x0b" := by decide +kernel
  have hscan : scan "1\n\x0b" = ⟨[⟨.number 1, 0, 1⟩], some ⟨'\x0b', 2⟩, 3⟩ := by decide +kernel
  have hparse : Calculator.parse "1\n\x0b" = .error (.unrecognized ⟨'\x0b', 2⟩) :=
    Settings.parse_error_of_run hscan rfl
  have hlevel : Level.ofSetting (some "info") = .info := by decide +kernel
  have hmessage : failureLine (.error (.unrecognized ⟨'\x0b', 2⟩)) =
      "Error at position 2: Unrecognized character '\\u\x7bb\x7d'.\n" := by decide +kernel
  obtain ⟨_, _, hfailed, htraced⟩ := run_decided_by_parse _ (some "info") _ _ hrequest
  obtain ⟨hstatus, _, _, _⟩ := hfailed _ hparse
  obtain ⟨hsame, _, _, hlog, _⟩ := htraced rfl
  rw [hparse, hmessage, hlevel] at hlog
  exact ⟨hrequest, hstatus, hsame.trans hstatus, hlog⟩

end CommandLine

end Calculator
