import Calculator.CommandLine.Outcome

/-!
# What a run takes from its arguments

Arguments are leading options, perhaps a double hyphen, and the pieces of an
expression. A run depends on which options are set and on the expression that
the pieces are joined to, and on nothing else: not on the order or the spelling
of the options, and not on how the expression is divided into pieces.
-/

namespace Calculator.CommandLine

/-! ## Arguments -/

/-- The short name of a switch. -/
def Switch.letter : Switch → Char
  | .parse => 'p'
  | .debug => 'd'
  | .help => 'h'
  | .version => 'V'

/-- An argument of switches by their short names. -/
def cluster (switches : List Switch) : String :=
  String.ofList ('-' :: switches.map Switch.letter)

/-- The argument sets the options: one by its long name, or several by their
letters. -/
inductive SetBy : String → List Switch → Prop
  /-- A long name sets its option. -/
  | long {option : Switch} : option.isOption = true → SetBy option.text [option]
  /-- Letters behind one hyphen set their options. -/
  | letters {options : List Switch} : options ≠ [] →
      (∀ option ∈ options, option.isOption = true) → SetBy (cluster options) options

/-- The arguments set the options, in this order. -/
inductive AllSetBy : List String → List Switch → Prop
  | nil : AllSetBy [] []
  | cons {argument : String} {arguments : List String} {options options' : List Switch} :
      SetBy argument options → AllSetBy arguments options' →
      AllSetBy (argument :: arguments) (options ++ options')

/-- The argument begins an expression even without a double hyphen in front of
it. It may start with a hyphen, such as a negative number. -/
structure BeginsExpression (argument : String) : Prop where
  /-- It is not the double hyphen. -/
  ne_separator : argument ≠ "--"
  /-- It does not start with the long name of a switch. -/
  not_long : ∀ switch : Switch, ¬ switch.text.toList <+: argument.toList
  /-- It is not a hyphen with letters of switches only. -/
  not_letters : ∀ switches : List Switch, switches ≠ [] → argument ≠ cluster switches

/-- The arguments set the options, none of them twice, and have the pieces of an
expression behind them. A double hyphen may stand in between, and if it does not,
the first piece begins an expression. The other pieces are arbitrary. -/
structure MadeOf (arguments : List String) (options : List Switch) (pieces : List String) :
    Prop where
  /-- No option is set twice. -/
  nodup : options.Nodup
  /-- The arguments are the leading ones and the pieces. -/
  divided : ∃ leading, AllSetBy leading options ∧
    (arguments = leading ++ "--" :: pieces ∨
      arguments = leading ++ pieces ∧ ∀ first ∈ pieces.head?, BeginsExpression first)

/-! ## Classified arguments -/

/-- A letter is the short name of its switch. -/
theorem Switch.ofLetter?_eq_some_iff {c : Char} {switch : Switch} :
    ofLetter? c = some switch ↔ switch.letter = c := by
  constructor
  · intro hletter
    unfold ofLetter? at hletter
    split at hletter <;> cases hletter <;> rfl
  · rintro rfl
    cases switch <;> rfl

/-- Letters are the short names of their switches. -/
theorem Switch.mapM_ofLetter?_eq_some_iff {letters : List Char} {switches : List Switch} :
    letters.mapM ofLetter? = some switches ↔ switches.map letter = letters := by
  induction letters generalizing switches with
  | nil =>
    rw [List.mapM_nil, List.map_eq_nil_iff]
    exact Option.some_inj.trans eq_comm
  | cons c letters ih =>
    rw [List.mapM_cons, List.map_eq_cons_iff]
    simp only [Option.bind_eq_bind, Option.bind_eq_some_iff, ofLetter?_eq_some_iff, ih,
      Option.pure_def, Option.some.injEq]
    constructor
    · rintro ⟨switch, hletter, rest, hrest, rfl⟩
      exact ⟨switch, rest, rfl, hletter, hrest⟩
    · rintro ⟨switch, rest, rfl, hletter, hrest⟩
      exact ⟨switch, hletter, rest, hrest, rfl⟩

/-- Letters of switches behind one hyphen are recognised. -/
theorem Argument.ofString_cluster {switches : List Switch} (hne : switches ≠ []) :
    ofString (cluster switches) = .switches switches := by
  obtain ⟨first, rest, rfl⟩ := List.exists_cons_of_ne_nil hne
  have hletters : (first.letter :: rest.map Switch.letter).mapM Switch.ofLetter? =
      some (first :: rest) := Switch.mapM_ofLetter?_eq_some_iff.mpr rfl
  have hhyphen : first.letter ≠ '-' := by cases first <;> decide
  unfold ofString cluster
  rw [String.toList_ofList, List.map_cons]
  split
  · rename_i heq
    exact absurd (List.cons.inj (List.cons.inj heq).2).1 hhyphen
  · rename_i heq
    exact absurd (List.cons.inj (List.cons.inj heq).2).1 hhyphen
  · rename_i heq
    cases heq
    rw [hletters]
  · rename_i hother
    exact absurd rfl (hother _ _)

/-- A long name is recognised. -/
theorem Argument.ofString_text (switch : Switch) : ofString switch.text = .switches [switch] := by
  cases switch <;> decide +kernel

/-- A long name stands behind two hyphens. -/
theorem Switch.toList_text (switch : Switch) : switch.text.toList = ['-', '-'] ++ switch.name := by
  rw [text, String.toList_append, String.toList_ofList, String.toList_ofList]

/-- What sets options is recognised as their switches. -/
theorem SetBy.ofString_eq {argument : String} {options : List Switch}
    (h : SetBy argument options) : Argument.ofString argument = .switches options := by
  cases h with
  | long _ => exact Argument.ofString_text _
  | letters hne _ => exact Argument.ofString_cluster hne

/-- What begins an expression is no switch. -/
theorem BeginsExpression.ofString_eq {argument : String} (h : BeginsExpression argument) :
    Argument.ofString argument = .piece := by
  unfold Argument.ofString
  split
  · rename_i heq
    exact absurd (String.toList_inj.mp heq) h.ne_separator
  · rename_i text _ heq
    -- A switch with this name would be the start of the argument.
    have hname : Switch.ofName? (text.takeWhile (· ≠ '=')) = none := by
      rw [Switch.ofName?, List.find?_eq_none]
      intro switch _ hname
      refine h.not_long switch ?_
      rw [heq, switch.toList_text, of_decide_eq_true hname]
      exact (List.prefix_append_right_inj ['-', '-']).mpr (List.takeWhile_prefix _)
    rw [Argument.ofLong, hname]
  · rename_i letter letters _ _ heq
    cases hletters : (letter :: letters).mapM Switch.ofLetter? with
    | none => rfl
    | some switches =>
      have hmap := Switch.mapM_ofLetter?_eq_some_iff.mp hletters
      have hne : switches ≠ [] := by
        rintro rfl
        cases hmap
      refine absurd ?_ (h.not_letters switches hne)
      rw [cluster, hmap, ← heq, String.ofList_toList]
  · rfl

/-! ## Options that are set -/

/-- The options with those of some switches set in addition. -/
def Options.adding (options : Options) (switches : List Switch) : Options where
  parse := options.parse || decide (.parse ∈ switches)
  debug := options.debug || decide (.debug ∈ switches)

/-- Whether a switch is set. -/
def Options.has (options : Options) : Switch → Bool
  | .parse => options.parse
  | .debug => options.debug
  | .help | .version => false

/-- An option that is not set yet can be set. -/
theorem Options.set_of_not_has {options : Options} {option : Switch}
    (hoption : option.isOption = true) (hunset : options.has option = false) :
    options.set option = .ok (options.adding [option]) := by
  cases option with
  | parse => simp_all [set, has, adding]
  | debug => simp_all [set, has, adding]
  | help => cases hoption
  | version => cases hoption

/-- Adding an option sets it and no other one. -/
theorem Options.has_adding {options : Options} {option other : Switch} (hne : other ≠ option) :
    (options.adding [option]).has other = options.has other := by
  cases option <;> cases other <;> simp_all [has, adding]

/-- Options that are added one after the other are added together. -/
theorem Options.adding_cons (options : Options) (option : Switch) (switches : List Switch) :
    (options.adding [option]).adding switches = options.adding (option :: switches) := by
  simp [adding, Bool.or_assoc]

/-- Options that are not set yet can all be set, if none of them occurs twice. -/
theorem Options.setAll_of_not_has {options : Options} {switches : List Switch}
    (hoption : ∀ option ∈ switches, option.isOption = true) (hnodup : switches.Nodup)
    (hunset : ∀ option ∈ switches, options.has option = false) :
    switches.foldlM Options.set options = .ok (options.adding switches) := by
  induction switches generalizing options with
  | nil => simp [adding, pure, Except.pure]
  | cons option switches ih =>
    obtain ⟨hnew, hnodup⟩ := List.nodup_cons.mp hnodup
    have hset := Options.set_of_not_has (hoption option (by simp)) (hunset option (by simp))
    rw [List.foldlM_cons, hset, ← options.adding_cons option switches]
    refine ih (fun other hother => hoption other (List.mem_cons_of_mem _ hother)) hnodup ?_
    intro other hother
    rw [Options.has_adding (ne_of_mem_of_not_mem hother hnew)]
    exact hunset other (List.mem_cons_of_mem _ hother)

/-! ## Reading the arguments -/

/-- Arguments that set options set them in turn, and are followed by the rest. -/
theorem AllSetBy.read_append {leading : List String} {switches : List Switch}
    (h : AllSetBy leading switches) (options : Options) (rest : List String) :
    options.read (leading ++ rest) =
      match switches.foldlM Options.set options with
      | .ok options => options.read rest
      | .error request => request := by
  induction h generalizing options with
  | nil => rfl
  | @cons argument arguments switches switches' hfirst _ ih =>
    rw [List.cons_append, Options.read, List.foldlM_append]
    simp only [hfirst.ofString_eq]
    cases switches.foldlM Options.set options with
    | error request => rfl
    | ok options' => exact ih options'

/-- The switches that arguments set are options. -/
theorem AllSetBy.isOption {leading : List String} {switches : List Switch}
    (h : AllSetBy leading switches) : ∀ option ∈ switches, option.isOption = true := by
  induction h with
  | nil => simp
  | cons hfirst _ ih =>
    intro option hmem
    rcases List.mem_append.mp hmem with hmem | hmem
    · cases hfirst with
      | long hoption => rwa [List.mem_singleton.mp hmem]
      | letters _ hoption => exact hoption option hmem
    · exact ih option hmem

/-- Pieces are read as such if the first of them begins an expression. -/
theorem Options.read_pieces {options : Options} {pieces : List String}
    (hfirst : ∀ first ∈ pieces.head?, BeginsExpression first) :
    options.read pieces = .calculate options (expressionOf pieces) := by
  cases pieces with
  | nil => rfl
  | cons first rest =>
    have hpiece := (hfirst first rfl).ofString_eq
    rw [read]
    simp only [hpiece]

/-- Behind a double hyphen everything is a piece of the expression. -/
theorem Options.read_separator (options : Options) (pieces : List String) :
    options.read ("--" :: pieces) = .calculate options (expressionOf pieces) := by
  have hseparator : Argument.ofString "--" = .separator := by decide +kernel
  rw [read]
  simp only [hseparator]

/-- The request of arguments that are made of options and pieces. -/
theorem MadeOf.ofArguments_eq {arguments : List String} {options : List Switch}
    {pieces : List String} (h : MadeOf arguments options pieces) :
    Request.ofArguments arguments =
      .calculate (Options.adding {} options) (expressionOf pieces) := by
  obtain ⟨hnodup, leading, hleading, hdivided⟩ := h
  have hset : options.foldlM Options.set {} = .ok (Options.adding {} options) := by
    refine Options.setAll_of_not_has hleading.isOption hnodup ?_
    intro option _
    cases option <;> rfl
  rcases hdivided with rfl | ⟨rfl, hfirst⟩
  · rw [Request.ofArguments, hleading.read_append, hset]
    exact Options.read_separator _ pieces
  · rw [Request.ofArguments, hleading.read_append, hset]
    exact Options.read_pieces hfirst

/-- Arguments that are made of options and pieces ask for a calculation. It has
exactly the options that are given in front, and its expression is made of all
the pieces, joined by single spaces, or the usual one if there is no piece at all.
Other arguments with the same options and the same expression have the same
outcome. -/
theorem run_decided_by_options_and_expression {arguments : List String} {options : List Switch}
    {pieces : List String} (h : MadeOf arguments options pieces) :
    Request.ofArguments arguments =
        .calculate { parse := .parse ∈ options, debug := .debug ∈ options }
          (expressionOf pieces) ∧
      expressionOf pieces = (if pieces = [] then "12 * (5 - 6)" else " ".intercalate pieces) ∧
      ∀ {arguments' : List String} {options' : List Switch} {pieces' : List String},
        MadeOf arguments' options' pieces' →
        (∀ option, option ∈ options ↔ option ∈ options') →
        expressionOf pieces = expressionOf pieces' →
        ∀ setting, run arguments setting = run arguments' setting := by
  have hadding (options : List Switch) : Options.adding {} options =
      { parse := .parse ∈ options, debug := .debug ∈ options } := by
    simp [Options.adding]
  refine ⟨?_, ?_, ?_⟩
  · rw [h.ofArguments_eq, hadding]
  · cases pieces with
    | nil => rfl
    | cons first rest => rw [if_neg (List.cons_ne_nil first rest)]; rfl
  · intro arguments' options' pieces' h' hoptions hexpression setting
    rw [run, run, h.ofArguments_eq, h'.ofArguments_eq, hexpression, hadding, hadding]
    simp only [hoptions]

/-- Letters in another order, a double hyphen and other pieces make no difference
to a run, and switches among the pieces are text. -/
theorem run_decided_by_options_and_expression_regrouped :
    MadeOf ["-dp", "-5 +", "--", "--help"] [.debug, .parse] ["-5 +", "--", "--help"] ∧
      MadeOf ["--parse", "-d", "--", "-5", "+ --", "--help"] [.parse, .debug]
        ["-5", "+ --", "--help"] ∧
      Request.ofArguments ["-dp", "-5 +", "--", "--help"] =
        .calculate { parse := true, debug := true } "-5 + -- --help" ∧
      ∀ setting, run ["-dp", "-5 +", "--", "--help"] setting =
        run ["--parse", "-d", "--", "-5", "+ --", "--help"] setting := by
  have hpiece : Argument.ofString "-5 +" = .piece := by decide +kernel
  have hbegins : BeginsExpression "-5 +" := by
    refine ⟨by decide +kernel, by intro switch; cases switch <;> decide +kernel, ?_⟩
    intro switches hne heq
    rw [heq, Argument.ofString_cluster hne] at hpiece
    cases hpiece
  have htexts : "-dp" = cluster [.debug, .parse] ∧ "-d" = cluster [.debug] ∧
      "--parse" = Switch.parse.text := by decide +kernel
  have hpair : SetBy "-dp" [.debug, .parse] := by
    rw [htexts.1]
    exact .letters (by decide) (by decide)
  have hsingle : SetBy "-d" [.debug] := by
    rw [htexts.2.1]
    exact .letters (by decide) (by decide)
  have hlong : SetBy "--parse" [.parse] := by
    rw [htexts.2.2]
    exact .long rfl
  have h : MadeOf ["-dp", "-5 +", "--", "--help"] [.debug, .parse] ["-5 +", "--", "--help"] := by
    refine ⟨by decide, ["-dp"], .cons hpair .nil, Or.inr ⟨rfl, ?_⟩⟩
    rintro first ⟨⟩
    exact hbegins
  have h' : MadeOf ["--parse", "-d", "--", "-5", "+ --", "--help"] [.parse, .debug]
      ["-5", "+ --", "--help"] :=
    ⟨by decide, ["--parse", "-d"], .cons hlong (.cons hsingle .nil), Or.inl rfl⟩
  have hoptions (option : Switch) :
      option ∈ [Switch.debug, .parse] ↔ option ∈ [Switch.parse, .debug] := by
    cases option <;> decide
  obtain ⟨hrequest, _, hsame⟩ := run_decided_by_options_and_expression h
  exact ⟨h, h', hrequest, hsame h' hoptions (by decide +kernel)⟩

end Calculator.CommandLine
