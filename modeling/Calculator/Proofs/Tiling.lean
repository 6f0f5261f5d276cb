import Calculator.Proofs.Scanning
import Calculator.Proofs.Spelling

/-!
# How a scan covers its text

A text is made of gaps of blanks and of spelled tokens in turn. Each token is
the longest one that stands at its place, and the text is used up unless a
character is met that is no blank and begins no token. Only one division of a
text is of this kind, and scanning finds it, so nothing of the text is lost and
every lexeme covers exactly the spelling of its token.
-/

namespace Calculator

/-- The characters are blanks. -/
def AllBlank (chars : List Char) : Prop := ∀ c ∈ chars, isBlank c = true

/-- A text without characters has only blanks. -/
theorem allBlank_nil : AllBlank [] := by
  intro c hc
  cases hc

/-- From a byte offset on, a text is made of gaps and tokens in turn. The tokens
are the lexemes, and the fault is the character at which no token begins. -/
inductive Tiled : Nat → List Char → List Lexeme → Option Unrecognized → Prop
  /-- Only blanks are left. -/
  | finished {offset : Nat} {gap : List Char} : AllBlank gap → Tiled offset gap [] none
  /-- Behind a gap stands a character that is no blank and begins no token. -/
  | stopped {offset : Nat} {gap rest : List Char} {c : Char} :
      AllBlank gap → isBlank c = false →
      (∀ (token : Token) (text : List Char), token.Spelled text → ¬ text <+: c :: rest) →
      Tiled offset (gap ++ c :: rest) [] (some ⟨c, offset + byteSize gap⟩)
  /-- Behind a gap stands a token with the longest spelling there. -/
  | lexeme {offset : Nat} {gap text rest : List Char} {token : Token} {lexemes : List Lexeme}
      {fault : Option Unrecognized} :
      AllBlank gap → token.Spelled text → LongestSpelling text rest →
      Tiled (offset + byteSize gap + byteSize text) rest lexemes fault →
      Tiled offset (gap ++ (text ++ rest))
        (⟨token, offset + byteSize gap, offset + byteSize gap + byteSize text⟩ :: lexemes) fault

/-! ## Scanning divides a text in this way -/

/-- A blank in front of a text widens its first gap. -/
theorem Tiled.cons_blank {offset : Nat} {c : Char} {rest : List Char} {lexemes : List Lexeme}
    {fault : Option Unrecognized} (hblank : isBlank c = true)
    (h : Tiled (offset + 1) rest lexemes fault) : Tiled offset (c :: rest) lexemes fault := by
  have hgap {gap : List Char} (hgap : AllBlank gap) : AllBlank (c :: gap) := by
    intro c' hc'
    rcases List.mem_cons.mp hc' with rfl | hc'
    · exact hblank
    · exact hgap c' hc'
  have hsize (gap : List Char) : offset + 1 + byteSize gap = offset + byteSize (c :: gap) := by
    rw [byteSize_cons, utf8Size_of_isBlank hblank]
    omega
  cases h with
  | finished hblanks => exact .finished (hgap hblanks)
  | @stopped _ gap rest c' hblanks hc hno =>
    rw [hsize, ← List.cons_append]
    exact .stopped (hgap hblanks) hc hno
  | @lexeme _ gap text rest token lexemes _ hblanks hspelled hlongest hrest =>
    rw [hsize] at hrest ⊢
    rw [← List.cons_append]
    exact .lexeme (hgap hblanks) hspelled hlongest hrest

/-- A token in front of a text, without a gap. -/
theorem Tiled.cons_lexeme {offset : Nat} {text rest : List Char} {token : Token}
    {lexemes : List Lexeme} {fault : Option Unrecognized} (hspelled : token.Spelled text)
    (hlongest : LongestSpelling text rest)
    (hrest : Tiled (offset + byteSize text) rest lexemes fault) :
    Tiled offset (text ++ rest) (⟨token, offset, offset + byteSize text⟩ :: lexemes) fault :=
  .lexeme allBlank_nil hspelled hlongest hrest

/-- Where neither a digit nor a symbol stands, no token begins. -/
theorem Token.Spelled.not_prefix {token : Token} {text : List Char} (h : token.Spelled text)
    {c : Char} (hdigit : c.isDigit = false) (hsymbol : Token.ofChar? c = none)
    (rest : List Char) : ¬ text <+: c :: rest := by
  intro hprefix
  obtain ⟨c', behind, rfl, hhead⟩ := h.exists_head
  obtain ⟨rfl, _⟩ := List.cons_prefix_cons.mp hprefix
  rcases hhead with hhead | ⟨symbol, hhead⟩
  · rw [hdigit] at hhead
    cases hhead
  · rw [hsymbol] at hhead
    cases hhead

/-- Whatever was found before, scanning goes on by dividing the text. -/
theorem scanFrom_tiled (offset : Nat) (found : List Lexeme) (text : List Char) :
    ∃ lexemes, (scanFrom offset found text).1 = found.reverse ++ lexemes ∧
      Tiled offset text lexemes (scanFrom offset found text).2 := by
  fun_induction scanFrom offset found text with
  | case1 offset found => exact ⟨[], by simp, .finished allBlank_nil⟩
  | case2 offset found c rest hblank ih =>
    obtain ⟨lexemes, hfound, htiled⟩ := ih
    exact ⟨lexemes, hfound, htiled.cons_blank hblank⟩
  | case3 offset found c rest hblank token htoken ih =>
    obtain ⟨lexemes, hfound, htiled⟩ := ih
    have hsize : byteSize [c] = 1 := by
      rw [byteSize_singleton, (Token.Spelled.symbol_facts htoken).2.2]
    refine ⟨⟨token, offset, offset + 1⟩ :: lexemes, by simpa using hfound, ?_⟩
    rw [← hsize] at htiled ⊢
    exact .cons_lexeme (Token.spelled_of_ofChar? htoken) (longestSpelling_symbol htoken rest) htiled
  | case4 offset found c rest hblank htoken hdigit literal stop ih =>
    obtain ⟨lexemes, hfound, htiled⟩ := ih
    obtain ⟨hproper, htext⟩ := Literal.split_spec rest hdigit
    refine ⟨⟨.number literal.value, offset, stop⟩ :: lexemes, by simpa using hfound, ?_⟩
    have hstop : stop = offset + byteSize literal.chars := congrArg (offset + ·) hproper.size_eq
    rw [hstop] at htiled ⊢
    have hcons := Tiled.cons_lexeme (.number hproper) (longestSpelling_split rest hdigit) htiled
    rwa [htext] at hcons
  | case5 offset found c rest hblank htoken hdigit =>
    refine ⟨[], by simp, ?_⟩
    have hno (token : Token) (text : List Char) (hspelled : token.Spelled text) :
        ¬ text <+: c :: rest := hspelled.not_prefix (by simpa using hdigit) htoken rest
    exact .stopped allBlank_nil (by simpa using hblank) hno

/-! ## A text is divided in one way only -/

/-- Scanning skips a gap. -/
theorem scanFrom_gap {gap : List Char} (hgap : AllBlank gap) (offset : Nat)
    (found : List Lexeme) (rest : List Char) :
    scanFrom offset found (gap ++ rest) = scanFrom (offset + byteSize gap) found rest := by
  induction gap generalizing offset with
  | nil => rfl
  | cons c gap ih =>
    have hblank : isBlank c = true := hgap c (by simp)
    have hrest := ih (fun c' hc' => hgap c' (by simp [hc'])) (offset + 1)
    rw [List.cons_append, scanFrom, if_pos hblank, hrest, byteSize_cons,
      utf8Size_of_isBlank hblank, Nat.add_assoc]

/-- Scanning takes the longest token. -/
theorem scanFrom_spelled {token : Token} {text rest : List Char} (hspelled : token.Spelled text)
    (hlongest : LongestSpelling text rest) (offset : Nat) (found : List Lexeme) :
    scanFrom offset found (text ++ rest) = scanFrom (offset + byteSize text)
      (⟨token, offset, offset + byteSize text⟩ :: found) rest := by
  rcases hspelled.literal_or_symbol with ⟨literal, hproper, rfl, rfl⟩ | ⟨c, rfl, hsymbol⟩
  · obtain ⟨c, digits, hchars, hdigit⟩ := hproper.exists_digit
    have hblank : isBlank c = false := hspelled.isBlank_of_mem (by rw [hchars]; simp)
    have hsymbol : Token.ofChar? c = none := by
      cases hsymbol : Token.ofChar? c with
      | none => rfl
      | some symbol =>
        rw [(Token.Spelled.symbol_facts hsymbol).2.1] at hdigit
        cases hdigit
    have hsplit := hproper.split_of_longest hlongest
    rw [hchars, List.cons_append] at hsplit ⊢
    rw [scanFrom, if_neg (by simp [hblank])]
    simp only [hsymbol, hdigit, dite_true, hsplit, hproper.size_eq]
    rw [hchars]
  · obtain ⟨hblank, _, hsize⟩ := Token.Spelled.symbol_facts hsymbol
    rw [List.singleton_append, scanFrom, if_neg (by simp [hblank])]
    simp only [hsymbol, byteSize_cons, byteSize_nil, hsize]

/-- A character at which no token begins is neither a digit nor a symbol. -/
theorem not_digit_or_symbol {c : Char} {rest : List Char}
    (hno : ∀ (token : Token) (text : List Char), token.Spelled text → ¬ text <+: c :: rest) :
    c.isDigit = false ∧ Token.ofChar? c = none := by
  have hprefix : [c] <+: c :: rest := ⟨rest, rfl⟩
  constructor
  · cases hdigit : c.isDigit with
    | false => rfl
    | true =>
      have hproper : Literal.Proper ⟨[c], []⟩ := ⟨by simp, by simpa using hdigit, by simp⟩
      exact absurd hprefix (hno _ _ (.number hproper))
  · cases hsymbol : Token.ofChar? c with
    | none => rfl
    | some symbol => exact absurd hprefix (hno symbol [c] (Token.spelled_of_ofChar? hsymbol))

/-- Scanning stops where no token begins. -/
theorem scanFrom_stop {c : Char} {rest : List Char} (hblank : isBlank c = false)
    (hno : ∀ (token : Token) (text : List Char), token.Spelled text → ¬ text <+: c :: rest)
    (offset : Nat) (found : List Lexeme) :
    scanFrom offset found (c :: rest) = (found.reverse, some ⟨c, offset⟩) := by
  obtain ⟨hdigit, hsymbol⟩ := not_digit_or_symbol hno
  rw [scanFrom, if_neg (by simp [hblank])]
  simp only [hsymbol, hdigit, Bool.false_eq_true, dite_false]

/-- However a text is divided, scanning finds these lexemes and this fault. -/
theorem Tiled.scanFrom_eq {offset : Nat} {text : List Char} {lexemes : List Lexeme}
    {fault : Option Unrecognized} (h : Tiled offset text lexemes fault) (found : List Lexeme) :
    scanFrom offset found text = (found.reverse ++ lexemes, fault) := by
  induction h generalizing found with
  | @finished offset gap hgap =>
    have hend := scanFrom_gap hgap offset found []
    rw [List.append_nil, scanFrom] at hend
    rw [hend, List.append_nil]
  | @stopped offset gap rest c hgap hblank hno =>
    rw [scanFrom_gap hgap, scanFrom_stop hblank hno, List.append_nil]
  | @lexeme offset gap text rest token lexemes fault hgap hspelled hlongest _ ih =>
    rw [scanFrom_gap hgap, scanFrom_spelled hspelled hlongest, ih, List.reverse_cons,
      List.append_assoc, List.singleton_append]

/-- The lexemes and the fault of a scan divide the text. -/
theorem scan_tiled (source : String) :
    Tiled 0 source.toList (scan source).lexemes (scan source).fault := by
  obtain ⟨lexemes, hfound, htiled⟩ := scanFrom_tiled 0 [] source.toList
  have hlexemes : (scan source).lexemes = lexemes := hfound
  rw [hlexemes]
  exact htiled

/-- A scan is determined by the division of its text. -/
theorem scan_eq_of_tiled {source : String} {lexemes : List Lexeme} {fault : Option Unrecognized}
    (h : Tiled 0 source.toList lexemes fault) :
    scan source = ⟨lexemes, fault, source.utf8ByteSize⟩ := by
  have hscan := h.scanFrom_eq []
  simp only [scan, hscan, List.reverse_nil, List.nil_append]

/-! ## Where the pieces of a text stand -/

/-- In a text that starts at a byte offset, `part` stands from `start` to `stop`
with `behind` after it. -/
def Stands (offset : Nat) (text part behind : List Char) (start stop : Nat) : Prop :=
  ∃ before, text = before ++ (part ++ behind) ∧ offset + byteSize before = start ∧
    start + byteSize part = stop

/-- The ranges of bytes in front of, between and behind lexemes. -/
def gapsAround (start stop : Nat) : List Lexeme → List (Nat × Nat)
  | [] => [(start, stop)]
  | lexeme :: lexemes => (start, lexeme.start) :: gapsAround lexeme.stop stop lexemes

/-- How far a scan has come: to the character at which it stopped, or to the end
of the text. -/
def Scan.reach (scan : Scan) : Nat :=
  match scan.fault with
  | some unrecognized => unrecognized.position
  | none => scan.size

/-- What stands in a text also stands in it behind another piece. -/
theorem Stands.skip {offset start stop : Nat} {first text part behind : List Char}
    (h : Stands (offset + byteSize first) text part behind start stop) :
    Stands offset (first ++ text) part behind start stop := by
  obtain ⟨before, rfl, hstart, hstop⟩ := h
  refine ⟨first ++ before, by rw [List.append_assoc], ?_, hstop⟩
  rw [byteSize_append]
  omega

/-- The first piece of a text stands at its offset. -/
theorem stands_first (offset : Nat) (part behind : List Char) :
    Stands offset (part ++ behind) part behind offset (offset + byteSize part) :=
  ⟨[], rfl, rfl, rfl⟩

/-- What stands in a text ends within it. -/
theorem Stands.stop_le {offset start stop : Nat} {text part behind : List Char}
    (h : Stands offset text part behind start stop) : stop ≤ offset + byteSize text := by
  obtain ⟨before, rfl, hstart, hstop⟩ := h
  simp only [byteSize_append]
  omega

namespace Tiled

variable {offset : Nat} {text : List Char} {lexemes : List Lexeme} {fault : Option Unrecognized}

/-- Lexemes are not empty and lie behind the offset. -/
theorem start_lt_stop (h : Tiled offset text lexemes fault) :
    ∀ lexeme ∈ lexemes, offset ≤ lexeme.start ∧ lexeme.start < lexeme.stop := by
  induction h with
  | finished _ => simp
  | stopped _ _ _ => simp
  | lexeme _ hspelled _ _ ih =>
    have hpos := hspelled.byteSize_pos
    intro lexeme hlexeme
    rcases List.mem_cons.mp hlexeme with rfl | hlexeme
    · constructor
      · exact Nat.le_add_right _ _
      · exact Nat.lt_add_of_pos_right hpos
    · have hrest := ih lexeme hlexeme
      omega

/-- Each lexeme ends before the later ones start. -/
theorem disjoint (h : Tiled offset text lexemes fault) :
    lexemes.Pairwise fun first second => first.stop ≤ second.start := by
  induction h with
  | finished _ => exact .nil
  | stopped _ _ _ => exact .nil
  | lexeme _ _ _ hrest ih =>
    refine List.pairwise_cons.mpr ⟨?_, ih⟩
    intro second hsecond
    exact (hrest.start_lt_stop second hsecond).1

/-- Every lexeme covers the longest spelling that stands at its start, and this
spells its token. -/
theorem spelled (h : Tiled offset text lexemes fault) :
    ∀ lexeme ∈ lexemes, ∃ part behind, Stands offset text part behind lexeme.start lexeme.stop ∧
      lexeme.token.Spelled part ∧ LongestSpelling part behind := by
  induction h with
  | finished _ => simp
  | stopped _ _ _ => simp
  | @lexeme offset gap text rest token lexemes fault _ hspelled hlongest _ ih =>
    intro lexeme hlexeme
    rcases List.mem_cons.mp hlexeme with rfl | hlexeme
    · exact ⟨text, rest, (stands_first _ text rest).skip, hspelled, hlongest⟩
    · obtain ⟨part, behind, hstands, hpart⟩ := ih lexeme hlexeme
      exact ⟨part, behind, hstands.skip.skip, hpart⟩

/-- Only blanks stand in front of, between and behind the lexemes, up to where
scanning ended. -/
theorem blank (h : Tiled offset text lexemes fault) {size : Nat}
    (hsize : offset + byteSize text = size) :
    ∀ gap ∈ gapsAround offset (Scan.reach ⟨lexemes, fault, size⟩) lexemes,
      ∃ part behind, Stands offset text part behind gap.1 gap.2 ∧ AllBlank part := by
  induction h with
  | @finished offset gap hgap =>
    intro range hrange
    rw [List.mem_singleton.mp hrange]
    refine ⟨gap, [], ?_, hgap⟩
    have hstands := stands_first offset gap []
    rwa [List.append_nil, hsize] at hstands
  | @stopped offset gap rest c hgap _ _ =>
    intro range hrange
    rw [List.mem_singleton.mp hrange]
    exact ⟨gap, c :: rest, stands_first offset gap _, hgap⟩
  | @lexeme offset gap text rest token lexemes fault hgap _ _ _ ih =>
    intro range hrange
    rcases List.mem_cons.mp hrange with rfl | hrange
    · exact ⟨gap, text ++ rest, stands_first offset gap _, hgap⟩
    · simp only [byteSize_append] at hsize
      obtain ⟨part, behind, hstands, hpart⟩ := ih (by omega) range hrange
      exact ⟨part, behind, hstands.skip.skip, hpart⟩

/-- The character at which scanning stops stands at its position, is no blank
and begins no token. -/
theorem stopped_at (h : Tiled offset text lexemes fault) {unrecognized : Unrecognized}
    (hfault : fault = some unrecognized) :
    ∃ behind, Stands offset text [unrecognized.character] behind unrecognized.position
        (unrecognized.position + unrecognized.character.utf8Size) ∧
      isBlank unrecognized.character = false ∧
      ∀ (token : Token) (part : List Char), token.Spelled part →
        ¬ part <+: unrecognized.character :: behind := by
  induction h with
  | finished _ => cases hfault
  | @stopped offset gap rest c _ hblank hno =>
    cases hfault
    refine ⟨rest, ?_, hblank, hno⟩
    rw [← byteSize_singleton]
    exact (stands_first _ [c] rest).skip
  | lexeme _ _ _ _ ih =>
    obtain ⟨behind, hstands, hno⟩ := ih hfault
    exact ⟨behind, hstands.skip.skip, hno⟩

end Tiled

/-! ## Exact scans -/

/-- A scan of a text finds every token where it stands, and loses nothing. -/
structure Scan.Exact (scan : Scan) (source : String) : Prop where
  /-- The gaps and the spelled tokens, one behind the other, make up the text as
  far as it was scanned. -/
  tiled : Tiled 0 source.toList scan.lexemes scan.fault
  /-- Lexemes are not empty, and the end of the input is none of them. -/
  nonempty : ∀ lexeme ∈ scan.lexemes, lexeme.isReal = true ∧ lexeme.start < lexeme.stop
  /-- Each lexeme ends before the later ones start. -/
  disjoint : scan.lexemes.Pairwise fun first second => first.stop ≤ second.start
  /-- Each lexeme covers the longest spelling that stands at its start, and this
  spells its token. -/
  spelled : ∀ lexeme ∈ scan.lexemes, ∃ part behind,
    Stands 0 source.toList part behind lexeme.start lexeme.stop ∧
      lexeme.token.Spelled part ∧ LongestSpelling part behind
  /-- Only blanks stand in front of, between and behind the lexemes, up to where
  scanning ended. -/
  blank : ∀ gap ∈ gapsAround 0 scan.reach scan.lexemes, ∃ part behind,
    Stands 0 source.toList part behind gap.1 gap.2 ∧ AllBlank part
  /-- A scan of the whole text delivers the end of the input as its last item. -/
  ended : scan.fault = none → scan.reach = source.utf8ByteSize ∧
    scan.items = scan.lexemes.map .ok ++ [.ok (Lexeme.atEnd source.utf8ByteSize)]
  /-- A scan that stops delivers the character that stands there. It is neither
  a blank nor a digit nor a symbol. -/
  stopped : ∀ unrecognized, scan.fault = some unrecognized →
    scan.reach = unrecognized.position ∧ unrecognized.position < source.utf8ByteSize ∧
    scan.items = scan.lexemes.map .ok ++ [.error unrecognized] ∧
    (∃ behind, Stands 0 source.toList [unrecognized.character] behind unrecognized.position
      (unrecognized.position + unrecognized.character.utf8Size)) ∧
    isBlank unrecognized.character = false ∧ unrecognized.character.isDigit = false ∧
    unrecognized.character ∉ ['+', '-', '*', '/', '(', ')']

/-- Every scan is exact: its lexemes and the blanks between them are the text as
far as it was scanned, each token is the longest one at its place, and the scan
ends with the end of the input or with a character that begins no token. -/
theorem scan_exact (source : String) : (scan source).Exact source := by
  have htiled := scan_tiled source
  have hsize : 0 + byteSize source.toList = source.utf8ByteSize := by
    rw [Nat.zero_add, byteSize_toList]
  refine ⟨htiled, ?_, htiled.disjoint, htiled.spelled, htiled.blank hsize, ?_, ?_⟩
  · intro lexeme hlexeme
    exact ⟨scan_isReal source lexeme hlexeme, (htiled.start_lt_stop lexeme hlexeme).2⟩
  · intro hfault
    simp only [Scan.reach, Scan.items, hfault]
    exact ⟨rfl, rfl⟩
  · intro unrecognized hfault
    obtain ⟨behind, hstands, hblank, hno⟩ := htiled.stopped_at hfault
    obtain ⟨hdigit, hsymbol⟩ := not_digit_or_symbol hno
    have hinside := hstands.stop_le
    have hpos := unrecognized.character.utf8Size_pos
    refine ⟨?_, by omega, ?_, ⟨behind, hstands⟩, hblank, hdigit, ?_⟩
    · simp only [Scan.reach, hfault]
    · simp only [Scan.items, hfault]
    · intro hmem
      simp only [List.mem_cons, List.not_mem_nil, or_false] at hmem
      rcases hmem with hc | hc | hc | hc | hc | hc <;> rw [hc] at hsymbol <;> cases hsymbol

end Calculator
