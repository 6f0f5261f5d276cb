import Calculator.CommandLine.Outcome
import Calculator.Proofs.FlatMachine
import Calculator.Proofs.Supply

/-!
# Plain texts

A plain text has only characters that are drawn and take one column each: the
space, and the letters, digits and marks of the basic set. Numbers, tokens and
trace records are written in plain text, so each record stays on one line and no
part of it is hidden. The message about a fault stays on one line too, although
it may show a character that is not plain: those that would break the line are
escaped.
-/

namespace Calculator

/-- The characters are drawn and belong to the basic set. -/
def AllPlain (chars : List Char) : Prop := ∀ c ∈ chars, codeBetween c 0x20 0x7e = true

/-- The text has plain characters only. -/
def Plain (text : String) : Prop := AllPlain text.toList

/-- The text has no character that ends a line. -/
def OnOneLine (text : String) : Prop := ∀ c ∈ text.toList, c ≠ '\n' ∧ c ≠ '\r'

instance (chars : List Char) : Decidable (AllPlain chars) := List.decidableBAll _ chars

instance (text : String) : Decidable (Plain text) :=
  inferInstanceAs (Decidable (AllPlain text.toList))

instance (text : String) : Decidable (OnOneLine text) := List.decidableBAll _ text.toList

/-- Characters that follow one another are plain if all of them are. -/
theorem allPlain_append {first second : List Char} :
    AllPlain (first ++ second) ↔ AllPlain first ∧ AllPlain second :=
  List.forall_mem_append

/-- Texts that follow one another are plain if both are. -/
@[simp] theorem plain_append {first second : String} :
    Plain (first ++ second) ↔ Plain first ∧ Plain second := by
  unfold Plain
  rw [String.toList_append, allPlain_append]

/-- Texts that follow one another stay on one line if both do. -/
@[simp] theorem onOneLine_append {first second : String} :
    OnOneLine (first ++ second) ↔ OnOneLine first ∧ OnOneLine second := by
  unfold OnOneLine
  rw [String.toList_append, List.forall_mem_append]

/-- A plain text stays on one line. -/
theorem Plain.onOneLine {text : String} (h : Plain text) : OnOneLine text := by
  intro c hc
  have hplain := h c hc
  constructor
  · rintro rfl
    cases hplain
  · rintro rfl
    cases hplain

/-! ## Numbers -/

/-- Digits of every base are plain. -/
theorem codeBetween_digitChar (n : Nat) : codeBetween n.digitChar 0x20 0x7e = true := by
  by_cases hsmall : n < 16
  · have hall : ∀ k : Fin 16, codeBetween k.val.digitChar 0x20 0x7e = true := by decide
    exact hall ⟨n, hsmall⟩
  · have hstar : n.digitChar = '*' := Nat.digitChar_eq_star.mpr (by omega)
    rw [hstar]
    decide

/-- A number is written in plain text. -/
theorem allPlain_toDigits {base : Nat} (hbase : 1 < base) (n : Nat) :
    AllPlain (Nat.toDigits base n) := by
  induction n using Nat.strongRecOn with
  | ind n ih =>
    rw [Nat.toDigits_eq_if hbase]
    split
    · intro c hc
      rw [List.mem_singleton.mp hc]
      exact codeBetween_digitChar n
    · rename_i hle
      have hlt : n / base < n := Nat.div_lt_self (by omega) hbase
      refine allPlain_append.mpr ⟨ih _ hlt, ?_⟩
      intro c hc
      rw [List.mem_singleton.mp hc]
      exact codeBetween_digitChar (n % base)

/-- A number is shown in plain text. -/
theorem plain_toString (n : Nat) : Plain (toString n) := by
  unfold Plain
  rw [Nat.toString_eq_ofList_toDigits, String.toList_ofList]
  exact allPlain_toDigits (by decide) n

/-- The same character over and over is plain if it is. -/
theorem allPlain_replicate {c : Char} (hplain : codeBetween c 0x20 0x7e = true) (count : Nat) :
    AllPlain (List.replicate count c) := by
  intro c' hc
  rwa [List.eq_of_mem_replicate hc]

/-- Decimals are written in plain text. -/
theorem Decimal.allPlain_positional (d : Decimal) : AllPlain d.positional := by
  have hdigits : AllPlain (Nat.toDigits 10 d.coefficient) := allPlain_toDigits (by decide) _
  have hzeros (count : Nat) : AllPlain (List.replicate count '0') :=
    allPlain_replicate (by decide) count
  unfold positional
  split
  · exact allPlain_append.mpr ⟨hdigits, hzeros _⟩
  · have hpadded (count : Nat) :
        AllPlain (List.replicate count '0' ++ Nat.toDigits 10 d.coefficient) :=
      allPlain_append.mpr ⟨hzeros count, hdigits⟩
    intro c hc
    rcases List.mem_append.mp hc with hwhole | hrest
    · exact hpadded _ c (List.mem_of_mem_take hwhole)
    · rcases List.mem_cons.mp hrest with rfl | hfraction
      · decide
      · exact hpadded _ c (List.mem_of_mem_drop hfraction)

/-- Numbers are written in plain text, infinities and values that are no numbers
included. -/
theorem Number.plain_text (value : Float) : Plain (text value) := by
  have hmagnitude : AllPlain (if pattern value = Magnitude.infinity then ['i', 'n', 'f']
      else (Magnitude.shortest (pattern value)).positional) := by
    split
    · decide
    · exact Decimal.allPlain_positional _
  have hsigned {magnitude : List Char} (h : AllPlain magnitude) :
      AllPlain (if signBit ≤ value.toBits.toNat then '-' :: magnitude else magnitude) := by
    split
    · exact allPlain_append.mpr ⟨(by decide : AllPlain ['-']), h⟩
    · exact h
  rw [Plain, text, String.toList_ofList]
  by_cases hnan : Magnitude.infinity < pattern value
  · rw [spelled, if_pos hnan]
    decide
  · rw [spelled, if_neg hnan]
    exact hsigned hmagnitude

/-! ## Tokens and trace records -/

/-- Tokens are shown in plain text. -/
theorem Token.plain_text (token : Token) : Plain token.text := by
  cases token with
  | number value => exact Number.plain_text value
  | operator op => cases op <;> decide +kernel
  | leftParen => decide +kernel
  | rightParen => decide +kernel
  | endOfInput => decide +kernel

/-- The kinds of tokens have plain names. -/
theorem Token.plain_kind (token : Token) : Plain token.kind := by
  cases token with
  | number value => exact (by decide +kernel : Plain "NUMBER")
  | operator op => cases op <;> decide +kernel
  | leftParen => decide +kernel
  | rightParen => decide +kernel
  | endOfInput => decide +kernel

/-- Lexemes are described in plain text. -/
theorem Lexeme.plain_description (lexeme : Lexeme) : Plain lexeme.description := by
  simp only [description, plain_append]
  exact ⟨⟨lexeme.token.plain_kind, by decide +kernel⟩, lexeme.token.plain_text⟩

/-- The rules have plain names. -/
theorem IsRule.plain {rule : String} (h : IsRule rule) : Plain rule := by
  cases h with
  | chain p => cases p <;> decide +kernel
  | factor => decide +kernel

/-- Only rules of the grammar are entered and left. -/
def Event.Named : Event → Prop
  | .enter rule _ | .exit rule _ => IsRule rule
  | .consume _ => True

/-- The text of a record is plain if it names a rule of the grammar, or none. -/
theorem Record.plain_text {record : Record} (hnamed : record.event.Named) :
    Plain record.text := by
  have hindent : Plain (String.ofList (List.replicate (2 * record.depth) ' ')) := by
    rw [Plain, String.toList_ofList]
    exact allPlain_replicate (by decide) _
  refine plain_append.mpr ⟨hindent, ?_⟩
  cases hevent : record.event with
  | enter rule ahead =>
    rw [hevent] at hnamed
    simp only [Event.text, plain_append]
    exact ⟨⟨⟨by decide +kernel, IsRule.plain hnamed⟩, by decide +kernel⟩, ahead.plain_description⟩
  | exit rule ahead =>
    rw [hevent] at hnamed
    simp only [Event.text, plain_append]
    exact ⟨⟨⟨by decide +kernel, IsRule.plain hnamed⟩, by decide +kernel⟩, ahead.plain_description⟩
  | consume lexeme =>
    have hat : Plain " at " := by decide +kernel
    have hto : Plain ".." := by decide +kernel
    simp only [Event.text, plain_append]
    exact ⟨⟨by decide +kernel, lexeme.plain_description⟩,
      ⟨⟨hat, plain_toString _⟩, hto⟩, plain_toString _⟩

/-! ## Records of a whole text -/

/-- Every event on record names a rule of the grammar, or none. -/
def Cursor.RecordsNamed (s : Cursor) : Prop :=
  ∀ record ∈ s.tracer.records.toList, record.event.Named

/-- One more record keeps the names proper if it has a proper name. -/
theorem Cursor.RecordsNamed.push {s s' : Cursor} (h : s.RecordsNamed) (record : Record)
    (hnamed : record.event.Named) (hrecords : s'.tracer.records = s.tracer.records.push record) :
    s'.RecordsNamed := by
  intro record' hrecord
  rw [hrecords, Array.toList_push] at hrecord
  rcases List.mem_append.mp hrecord with hold | hnew
  · exact h record' hold
  · rw [List.mem_singleton.mp hnew]
    exact hnamed

/-- What follows records only names of the grammar, if what came before did. -/
def Contract.naming : Contract := fun s _ _ s' => s.RecordsNamed → s'.RecordsNamed

/-- Consuming a lexeme records no name. -/
theorem Cursor.RecordsNamed.consume {s : Cursor} (h : s.RecordsNamed) (ahead : Lexeme) :
    (s.consume ahead).RecordsNamed := by
  unfold Cursor.consume Tracer.consume
  split
  · exact h.push ⟨s.tracer.depth, .consume ahead⟩ trivial rfl
  · exact h

/-- Every rule records names of the grammar only. -/
theorem Contract.naming_kept : Contract.naming.Kept where
  nothing _ := id
  trans hfirst hsecond := hsecond ∘ hfirst
  peek := by
    intro s h
    have htracer : s.peek.2.tracer = s.tracer := Cursor.tracer_of_peek rfl
    unfold Cursor.RecordsNamed
    rw [htracer]
    exact h
  enter := by
    intro s ahead rule hrule _ h
    unfold Tracer.enter
    split
    · exact h.push ⟨s.tracer.depth, .enter rule ahead⟩ hrule rfl
    · exact h
  exit := by
    intro s ahead rule hrule _ h
    unfold Tracer.exit
    split
    · exact h.push ⟨s.tracer.depth - 1, .exit rule ahead⟩ hrule rfl
    · exact h
  consume _ _ h := h.consume _
  openGroup := by
    intro s ahead _ _ h
    rcases (s.consume ahead).openGroup_cases ahead.start with hopen | hopen
    · rw [hopen]
      exact h.consume ahead
    · rw [hopen]
      exact h.consume ahead
  closeGroup _ := id
  refuse _ _ := id

/-- The records of a text are plain. -/
theorem Settings.plain_records (settings : Settings) (source : String) :
    ∀ record ∈ settings.records source, Plain record.text := by
  intro record hrecord
  have hstart : (Cursor.ofSource source { enabled := settings.traced }
      settings.limit).RecordsNamed := by
    intro record' hnone
    cases hnone
  exact Record.plain_text (Contract.naming_kept.expression _ hstart record hrecord)

/-! ## Messages about faults -/

/-- The characters in place of a character do not end a line. -/
theorem onOneLine_escapedChar (c : Char) : OnOneLine (String.ofList (escapedChar c)) := by
  have hplain {chars : List Char} (h : AllPlain chars) : OnOneLine (String.ofList chars) := by
    apply Plain.onOneLine
    rwa [Plain, String.toList_ofList]
  have hhex : AllPlain (['\\', 'u', '\x7b'] ++ hexDigits c ++ ['\x7d']) := by
    simp only [allPlain_append]
    exact ⟨⟨by decide, allPlain_toDigits (by decide) _⟩, by decide⟩
  unfold escapedChar
  by_cases hnull : c = '\x00'
  · exact hplain (by rw [if_pos hnull]; decide)
  by_cases htab : c = '\t'
  · exact hplain (by rw [if_neg hnull, if_pos htab]; decide)
  by_cases hreturn : c = '\r'
  · exact hplain (by rw [if_neg hnull, if_neg htab, if_pos hreturn]; decide)
  by_cases hfeed : c = '\n'
  · exact hplain (by rw [if_neg hnull, if_neg htab, if_neg hreturn, if_pos hfeed]; decide)
  rw [if_neg hnull, if_neg htab, if_neg hreturn, if_neg hfeed]
  split
  · exact hplain (by decide)
  split
  · exact hplain (by decide)
  split
  · exact hplain hhex
  · -- A character that stands for itself is none of those escaped above.
    intro c' hc
    rw [String.toList_ofList, List.mem_singleton] at hc
    rw [hc]
    exact ⟨hfeed, hreturn⟩

/-- The message about an unrecognized character stays on one line. -/
theorem Unrecognized.onOneLine_message (unrecognized : Unrecognized) :
    OnOneLine unrecognized.message := by
  have hquoted : OnOneLine (quotedChar unrecognized.character) := by
    have hescaped := onOneLine_escapedChar unrecognized.character
    rw [quotedChar, List.cons_append, ← List.singleton_append, String.ofList_append,
      String.ofList_append, onOneLine_append, onOneLine_append]
    exact ⟨by decide +kernel, hescaped, by decide +kernel⟩
  unfold message
  simp only [onOneLine_append]
  exact ⟨⟨⟨⟨by decide +kernel, (plain_toString _).onOneLine⟩, by decide +kernel⟩, hquoted⟩,
    by decide +kernel⟩

/-- What the fault shows of the grammar and of tokens is plain. -/
def Fault.Worded : Fault → Prop
  | .unexpectedToken expected found _ => Plain expected ∧ Plain found
  | .unexpectedEnd expected _ => Plain expected
  | .trailingToken token _ => Plain token
  | _ => True

/-- The message about a fault stays on one line. -/
theorem Fault.Worded.onOneLine_message {found : Fault} (h : found.Worded) :
    OnOneLine found.message := by
  have hnumber (n : Nat) : OnOneLine (toString n) := (plain_toString n).onOneLine
  cases found with
  | unrecognized unrecognized => exact unrecognized.onOneLine_message
  | emptyInput => decide +kernel
  | unexpectedToken expected text position =>
    unfold message
    simp only [onOneLine_append]
    exact ⟨⟨⟨⟨⟨⟨by decide +kernel, hnumber _⟩, by decide +kernel⟩, h.1.onOneLine⟩,
      by decide +kernel⟩, h.2.onOneLine⟩, by decide +kernel⟩
  | unexpectedEnd expected position =>
    have hexpected : Plain expected := h
    unfold message
    simp only [onOneLine_append]
    exact ⟨⟨⟨⟨by decide +kernel, hnumber _⟩, by decide +kernel⟩, hexpected.onOneLine⟩,
      by decide +kernel⟩
  | unclosedGroup openedAt position =>
    unfold message
    simp only [onOneLine_append]
    exact ⟨⟨⟨by decide +kernel, hnumber _⟩, by decide +kernel⟩, hnumber _, by decide +kernel⟩
  | trailingToken text position =>
    have htext : Plain text := h
    unfold message
    simp only [onOneLine_append]
    exact ⟨⟨⟨by decide +kernel, hnumber _⟩, by decide +kernel⟩, htext.onOneLine⟩
  | nestingTooDeep limit position =>
    unfold message
    simp only [onOneLine_append]
    exact ⟨⟨⟨⟨by decide +kernel, hnumber _⟩, by decide +kernel⟩, hnumber _⟩, by decide +kernel⟩

/-- The machine reports the texts of the grammar and of tokens only. -/
theorem Machine.worded_of_step {m : Machine} {limit size : Nat} {found : Fault}
    {item : Except Unrecognized Lexeme} (hstep : m.step limit size item = .error found) :
    found.Worded := by
  cases item with
  | error unrecognized =>
    cases hstep
    trivial
  | ok lexeme =>
    obtain ⟨mode, opened, started⟩ := m
    cases mode with
    | operand =>
      simp only [step, read, readOperand] at hstep
      split at hstep
      · cases hstep
      · split at hstep
        · cases hstep
          trivial
        · cases hstep
      · split at hstep
        · cases hstep
          exact (by decide +kernel : Plain "operand")
        · cases hstep
          trivial
      · cases hstep
        exact ⟨by decide +kernel, Token.plain_text _⟩
    | operator =>
      simp only [step, read, readOperator] at hstep
      split at hstep
      · cases hstep
      · cases hstep
      · cases hstep
      · cases hstep
        trivial
      · cases hstep
        exact Token.plain_text _
      · cases hstep
        exact ⟨by decide +kernel, Token.plain_text _⟩

/-- A run reports what one of its steps reports. -/
theorem Machine.worded_of_run {m : Machine} {limit size : Nat} {found : Fault}
    {items : List (Except Unrecognized Lexeme)} (hrun : m.run limit size items = .error found) :
    found.Worded := by
  induction items generalizing m with
  | nil => cases hrun
  | cons item items ih =>
    cases hstep : m.step limit size item with
    | error found' =>
      rw [run_of_step_error hstep] at hrun
      cases hrun
      exact worded_of_step hstep
    | ok m' =>
      rw [run_of_step hstep] at hrun
      exact ih hrun

/-- The message about a text that is no expression stays on one line, whatever
characters the text has. -/
theorem Settings.onOneLine_message_of_parse {settings : Settings} {source : String} {found : Fault}
    (hparse : settings.parse source = .error found) : OnOneLine found.message := by
  rw [settings.parse_eq_untraced] at hparse
  have hfaces := Cursor.faces_ofSource source settings.limit
  have hrun := (hfaces.expression_eq_error_iff found).mp hparse
  exact (Machine.worded_of_run hrun).onOneLine_message

end Calculator
