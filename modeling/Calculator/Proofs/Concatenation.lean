import Calculator.Proofs.Spacing
import Calculator.Proofs.ViablePrefix

/-!
# Texts that follow one another

Where one text follows another, scanning finds the tokens of the first and then
those of the second, unless the last literal of the first goes on into the
second. A blank or a symbol in front of the second text prevents this.

So a fault that was found in a text is final. Whatever follows behind a blank,
the same fault is found at the same place. Only a text that ended too early can
be mended.
-/

namespace Calculator

/-! ## What breaks off a token -/

/-- No literal goes on with the first character of the text, if it has one. -/
def Breaks (text : List Char) : Prop := ∀ c ∈ text.head?, c.isDigit = false ∧ c ≠ '.'

/-- A text that starts with a blank breaks off a token. -/
theorem breaks_of_blank {c : Char} (hblank : isBlank c = true) (text : List Char) :
    Breaks (c :: text) := by
  rintro _ ⟨⟩
  refine ⟨isDigit_of_isBlank hblank, ?_⟩
  rintro rfl
  cases hblank

/-- A text that starts with a symbol breaks off a token. -/
theorem breaks_of_symbol {c : Char} {token : Token} (hsymbol : Token.ofChar? c = some token)
    (text : List Char) : Breaks (c :: text) := by
  rintro _ ⟨⟩
  refine ⟨(Token.Spelled.symbol_facts hsymbol).2.1, ?_⟩
  rintro rfl
  cases hsymbol

/-- The longest spelling at a place stays the longest one if a text follows that
breaks off a token. -/
theorem LongestSpelling.append {token : Token} {part behind rest : List Char}
    (h : LongestSpelling part behind) (hspelled : token.Spelled part) (hbreaks : Breaks rest) :
    LongestSpelling part (behind ++ rest) := by
  intro token' longer hlonger hprefix
  rw [← List.append_assoc] at hprefix
  by_cases hshort : longer.length ≤ (part ++ behind).length
  · exact h hlonger (List.prefix_of_prefix_length_le hprefix ⟨rest, rfl⟩ hshort)
  · -- The longer spelling would reach over the first character of the rest.
    obtain ⟨c, digits, rfl, _⟩ := hspelled.exists_head
    obtain ⟨extra, rfl⟩ : c :: digits ++ behind <+: longer :=
      List.prefix_of_prefix_length_le ⟨rest, rfl⟩ hprefix (by omega)
    have hextra := (List.prefix_append_right_inj _).mp hprefix
    cases extra with
    | nil => simp at hshort
    | cons next more =>
      obtain ⟨more', hrest⟩ := hextra
      have hnext := hbreaks next (by rw [← hrest]; rfl)
      rcases hlonger.literal_or_symbol with ⟨literal, hproper, _, hchars⟩ | ⟨symbol, hchars, _⟩
      · rcases hproper.of_mem_chars (c := next) (by rw [← hchars]; simp) with hdigit | hpoint
        · rw [hnext.1] at hdigit
          cases hdigit
        · exact absurd hpoint hnext.2
      · have hlength := congrArg List.length hchars
        simp only [List.length_append, List.length_cons, List.length_nil] at hlength
        omega

/-! ## Dividing texts that follow one another -/

namespace Tiled

variable {offset : Nat} {text rest : List Char} {lexemes lexemes' : List Lexeme}
  {fault : Option Unrecognized}

/-- A text that is used up is followed by the division of what comes next. -/
theorem append (h : Tiled offset text lexemes none) (hbreaks : Breaks rest)
    (hrest : Tiled (offset + byteSize text) rest lexemes' fault) :
    Tiled offset (text ++ rest) (lexemes ++ lexemes') fault := by
  generalize hnone : (none : Option Unrecognized) = ended at h
  induction h with
  | finished hgap => exact prepend hgap hrest
  | stopped _ _ _ => cases hnone
  | @lexeme offset gap part behind token lexemes _ hgap hspelled hlongest _ ih =>
    have hoffset : offset + byteSize (gap ++ (part ++ behind)) =
        offset + byteSize gap + byteSize part + byteSize behind := by
      simp only [byteSize_append]
      omega
    rw [hoffset] at hrest
    rw [List.append_assoc, List.append_assoc, List.cons_append]
    exact .lexeme hgap hspelled (hlongest.append hspelled hbreaks) (ih hrest hnone)

/-- Where scanning stops, it does not matter what comes next. -/
theorem append_stopped {unrecognized : Unrecognized}
    (h : Tiled offset text lexemes (some unrecognized)) (hbreaks : Breaks rest) :
    Tiled offset (text ++ rest) lexemes (some unrecognized) := by
  generalize hsome : some unrecognized = ended at h ⊢
  induction h with
  | finished _ => cases hsome
  | @stopped offset gap behind c hgap hblank hno =>
    obtain ⟨hdigit, hsymbol⟩ := not_digit_or_symbol hno
    rw [List.append_assoc, List.cons_append]
    exact .stopped hgap hblank fun token part hspelled =>
      hspelled.not_prefix hdigit hsymbol (behind ++ rest)
  | lexeme hgap hspelled hlongest _ ih =>
    rw [List.append_assoc, List.append_assoc]
    exact .lexeme hgap hspelled (hlongest.append hspelled hbreaks) (ih hsome)

end Tiled

/-- The scan of a text begins with the lexemes of a text in front. If scanning
stopped there, it stops at the same character. -/
theorem scan_append (source more : String) (hbreaks : Breaks more.toList) :
    ∃ lexemes fault,
      scan (source ++ more) =
        ⟨(scan source).lexemes ++ lexemes, fault, (source ++ more).utf8ByteSize⟩ ∧
      ∀ unrecognized, (scan source).fault = some unrecognized →
        lexemes = [] ∧ fault = some unrecognized := by
  have htiled := scan_tiled source
  cases hfault : (scan source).fault with
  | some unrecognized =>
    rw [hfault] at htiled
    have hall := htiled.append_stopped hbreaks
    rw [← String.toList_append] at hall
    refine ⟨[], some unrecognized, ?_, ?_⟩
    · rw [List.append_nil]
      exact scan_eq_of_tiled hall
    · rintro _ ⟨⟩
      exact ⟨rfl, rfl⟩
  | none =>
    rw [hfault] at htiled
    obtain ⟨lexemes, _, hmore⟩ := scanFrom_tiled (0 + byteSize source.toList) [] more.toList
    have hall := htiled.append hbreaks hmore
    rw [← String.toList_append] at hall
    exact ⟨lexemes, _, scan_eq_of_tiled hall, fun _ h => nomatch h⟩

/-! ## The machine on a longer text -/

namespace Machine

variable {m m' : Machine} {limit size size' : Nat} {lexemes : List Lexeme} {found : Fault}

/-- Where the text ends matters only at its end. -/
theorem step_of_isReal {lexeme : Lexeme} (hreal : lexeme.isReal = true) (m : Machine)
    (limit size size' : Nat) :
    m.step limit size (.ok lexeme) = m.step limit size' (.ok lexeme) := by
  have hend : lexeme.token ≠ .endOfInput := by
    intro htoken
    simp [Lexeme.isReal, htoken] at hreal
  obtain ⟨mode, opened, started⟩ := m
  cases mode with
  | operand =>
    simp only [step, read, readOperand]
    split
    · rfl
    · rfl
    · exact absurd ‹_› hend
    · rfl
  | operator =>
    simp only [step, read, readOperator]
    split
    · rfl
    · rfl
    · rfl
    · exact absurd ‹_› hend
    · rfl
    · rfl

/-- A run over lexemes does not depend on where the text ends. -/
theorem run_of_isReal (hreal : ∀ lexeme ∈ lexemes, lexeme.isReal = true) (m : Machine)
    (limit size size' : Nat) :
    m.run limit size (lexemes.map .ok) = m.run limit size' (lexemes.map .ok) := by
  induction lexemes generalizing m with
  | nil => rfl
  | cons lexeme lexemes ih =>
    have hstep := step_of_isReal (hreal lexeme (by simp)) m limit size size'
    rw [List.map_cons]
    cases hfirst : m.step limit size (.ok lexeme) with
    | error found => rw [run_of_step_error hfirst, run_of_step_error (hstep ▸ hfirst)]
    | ok m₁ =>
      rw [run_of_step hfirst, run_of_step (hstep ▸ hfirst)]
      exact ih (fun lexeme' hlexeme => hreal lexeme' (List.mem_cons_of_mem _ hlexeme)) m₁

/-- A fault that was met in front of the end is met in every longer text. -/
theorem run_error_append {fault fault' : Option Unrecognized} {more : List Lexeme}
    (hreal : ∀ lexeme ∈ lexemes, lexeme.isReal = true) (hend : found.isAtEnd = false)
    (hstopped : ∀ unrecognized, fault = some unrecognized →
      more = [] ∧ fault' = some unrecognized)
    (hrun : m.run limit size (Scan.items ⟨lexemes, fault, size⟩) = .error found) :
    m.run limit size' (Scan.items ⟨lexemes ++ more, fault', size'⟩) = .error found := by
  rcases exists_failure hrun with
    ⟨before, bad, behind, m', rfl, hbefore, hstep⟩ | ⟨m', hall, hlast⟩
  · have hrealBefore : ∀ lexeme ∈ before, lexeme.isReal = true := fun lexeme hlexeme =>
      hreal lexeme (List.mem_append_left _ hlexeme)
    rw [run_of_isReal hrealBefore m limit size size'] at hbefore
    rw [step_of_isReal (hreal bad (by simp)) m' limit size size'] at hstep
    rw [List.append_assoc, Scan.items_append, run_append_of_run hbefore, List.cons_append,
      Scan.items_cons]
    exact run_of_step_error hstep _
  · rcases hlast with ⟨unrecognized, hfault, rfl⟩ | ⟨_, hstep⟩
    · obtain ⟨rfl, rfl⟩ := hstopped unrecognized hfault
      rw [run_of_isReal hreal m limit size size'] at hall
      rw [Scan.items_append, run_append_of_run hall]
      exact run_of_step_error rfl []
    · rw [(step_atEnd_eq_error hstep).1] at hend
      cases hend

end Machine

/-! ## Faults are final -/

/-- A fault is final. Unless the text ended too early, whatever follows it behind
a blank leaves the fault as it is, with its place and all it says. -/
theorem Settings.parse_append_of_error (settings : Settings) (source more : String)
    (found : Fault) (hparse : settings.parse source = .error found)
    (hend : found.isAtEnd = false)
    (hmore : more = "" ∨ ∃ blank rest, more.toList = blank :: rest ∧ isBlank blank = true) :
    settings.parse (source ++ more) = .error found := by
  have hbreaks : Breaks more.toList := by
    rcases hmore with rfl | ⟨blank, rest, htext, hblank⟩
    · rintro c ⟨⟩
    · rw [htext]
      exact breaks_of_blank hblank rest
  obtain ⟨lexemes, fault, hscan, hstopped⟩ := scan_append source more hbreaks
  rw [settings.parse_eq_untraced] at hparse
  have hfaces := Cursor.faces_ofSource source settings.limit
  have hrun := (hfaces.expression_eq_error_iff found).mp hparse
  exact Settings.parse_error_of_run hscan
    (Machine.run_error_append (scan_isReal source) hend hstopped hrun)

/-- The point that no digit follows is reported, also where a digit follows
behind a blank. -/
theorem Settings.parse_append_of_error_behind_point :
    Settings.parse {} "1." = .error (.unrecognized ⟨'.', 1⟩) ∧
      (Fault.unrecognized ⟨'.', 1⟩).isAtEnd = false ∧
      Settings.parse {} ("1." ++ " 5") = .error (.unrecognized ⟨'.', 1⟩) := by
  have hscan : scan "1." = ⟨[⟨.number 1, 0, 1⟩], some ⟨'.', 1⟩, 2⟩ := by decide +kernel
  have hparse : Settings.parse {} "1." = .error (.unrecognized ⟨'.', 1⟩) :=
    Settings.parse_error_of_run hscan rfl
  have hfinal := Settings.parse_append_of_error {} "1." " 5" _ hparse rfl
    (Or.inr ⟨' ', ['5'], rfl, rfl⟩)
  exact ⟨hparse, rfl, hfinal⟩

end Calculator
