import Calculator.Scan

/-!
# How tokens are spelled

An operator or a parenthesis is spelled by one character, a number by digits or
by digits around a point. Several spellings may stand at the same place of a
text, since a literal can be broken off early; scanning takes the longest one.
No spelling holds a blank, so a token never reaches over a gap.
-/

namespace Calculator

/-! ## Bytes -/

/-- The number of bytes that characters take in a text. -/
def byteSize (chars : List Char) : Nat := (String.ofList chars).utf8ByteSize

/-- No characters take no bytes. -/
@[simp] theorem byteSize_nil : byteSize [] = 0 := rfl

/-- The bytes of a character come before those of the others. -/
@[simp] theorem byteSize_cons (c : Char) (chars : List Char) :
    byteSize (c :: chars) = c.utf8Size + byteSize chars := by
  simp only [byteSize, String.ofList_cons, String.utf8ByteSize_append,
    String.utf8ByteSize_singleton]

/-- A single character takes its own bytes. -/
theorem byteSize_singleton (c : Char) : byteSize [c] = c.utf8Size := by
  rw [byteSize_cons, byteSize_nil, Nat.add_zero]

/-- The bytes of two stretches of text add up. -/
@[simp] theorem byteSize_append (first second : List Char) :
    byteSize (first ++ second) = byteSize first + byteSize second := by
  simp only [byteSize, String.ofList_append, String.utf8ByteSize_append]

/-- The bytes of the characters of a text are those of the text. -/
theorem byteSize_toList (text : String) : byteSize text.toList = text.utf8ByteSize := by
  simp only [byteSize, String.ofList_toList]

/-- Characters of one byte each take as many bytes as there are characters. -/
theorem byteSize_eq_length {chars : List Char} (hone : ∀ c ∈ chars, c.utf8Size = 1) :
    byteSize chars = chars.length := by
  induction chars with
  | nil => rfl
  | cons c chars ih =>
    have hc : c.utf8Size = 1 := hone c (by simp)
    have hrest := ih fun c' hc' => hone c' (by simp [hc'])
    rw [byteSize_cons, hc, hrest, List.length_cons]
    omega

/-- Only an empty stretch of text takes no bytes. -/
theorem eq_nil_of_byteSize {chars : List Char} (hzero : byteSize chars = 0) : chars = [] := by
  cases chars with
  | nil => rfl
  | cons c chars =>
    have hpos := c.utf8Size_pos
    rw [byteSize_cons] at hzero
    omega

/-- Of two ways to divide a text, the one that takes no more bytes in front
divides the front of the other. -/
theorem exists_append_of_byteSize_le {first rest first' rest' : List Char}
    (htext : first ++ rest = first' ++ rest') (hle : byteSize first ≤ byteSize first') :
    ∃ middle, first' = first ++ middle ∧ rest = middle ++ rest' := by
  rcases List.append_eq_append_iff.mp htext with hlonger | ⟨middle, rfl, rfl⟩
  · exact hlonger
  · have hnil : middle = [] := by
      apply eq_nil_of_byteSize
      rw [byteSize_append] at hle
      omega
    subst hnil
    exact ⟨[], by simp, by simp⟩

/-- A blank takes one byte. -/
theorem utf8Size_of_isBlank {c : Char} (hblank : isBlank c = true) : c.utf8Size = 1 := by
  simp only [isBlank, Bool.or_eq_true, decide_eq_true_eq] at hblank
  rcases hblank with (((rfl | rfl) | rfl) | rfl) | rfl <;> decide

/-- A digit takes one byte. -/
theorem utf8Size_of_isDigit {c : Char} (hdigit : c.isDigit = true) : c.utf8Size = 1 := by
  simp only [Char.isDigit, Bool.and_eq_true, decide_eq_true_eq] at hdigit
  rw [Char.utf8Size_eq_one_iff]
  exact UInt32.le_trans hdigit.2 (by decide)

/-- No blank is a digit. -/
theorem isDigit_of_isBlank {c : Char} (hblank : isBlank c = true) : c.isDigit = false := by
  simp only [isBlank, Bool.or_eq_true, decide_eq_true_eq] at hblank
  rcases hblank with (((rfl | rfl) | rfl) | rfl) | rfl <;> decide

/-! ## Literals -/

/-- A literal holds digits only, and at least one in front of the point. -/
structure Literal.Proper (literal : Literal) : Prop where
  /-- There is a digit in front of the point. -/
  whole_ne_nil : literal.whole ≠ []
  /-- Digits stand in front of the point. -/
  whole_digits : ∀ c ∈ literal.whole, c.isDigit = true
  /-- Digits stand behind the point. -/
  fraction_digits : ∀ c ∈ literal.fraction, c.isDigit = true

namespace Literal

/-- A literal without a fraction is its whole part. -/
theorem chars_whole (whole : List Char) : chars ⟨whole, []⟩ = whole := rfl

/-- A literal with a fraction has a point. -/
theorem chars_pointed (whole : List Char) {fraction : List Char} (hne : fraction ≠ []) :
    chars ⟨whole, fraction⟩ = whole ++ '.' :: fraction := by
  cases fraction with
  | nil => exact absurd rfl hne
  | cons digit digits => rfl

/-- The characters of a literal are digits or the point. -/
theorem Proper.of_mem_chars {literal : Literal} (hproper : literal.Proper) {c : Char}
    (hc : c ∈ literal.chars) : c.isDigit = true ∨ c = '.' := by
  obtain ⟨whole, fraction⟩ := literal
  by_cases hfraction : fraction = []
  · subst hfraction
    exact Or.inl (hproper.whole_digits c hc)
  · rw [chars_pointed whole hfraction] at hc
    rcases List.mem_append.mp hc with hwhole | hrest
    · exact Or.inl (hproper.whole_digits c hwhole)
    · rcases List.mem_cons.mp hrest with rfl | hdigits
      · exact Or.inr rfl
      · exact Or.inl (hproper.fraction_digits c hdigits)

/-- A literal starts with a digit. -/
theorem Proper.exists_digit {literal : Literal} (hproper : literal.Proper) :
    ∃ c rest, literal.chars = c :: rest ∧ c.isDigit = true := by
  obtain ⟨whole, fraction⟩ := literal
  obtain ⟨c, digits, rfl⟩ := List.exists_cons_of_ne_nil hproper.whole_ne_nil
  have hdigit : c.isDigit = true := hproper.whole_digits c (by simp)
  cases fraction with
  | nil => exact ⟨c, digits, rfl, hdigit⟩
  | cons d ds => exact ⟨c, digits ++ '.' :: d :: ds, rfl, hdigit⟩

/-- The size of a literal is the number of bytes of its text. -/
theorem Proper.size_eq {literal : Literal} (hproper : literal.Proper) :
    literal.size = byteSize literal.chars := by
  have hone : ∀ c ∈ literal.chars, c.utf8Size = 1 := by
    intro c hc
    rcases hproper.of_mem_chars hc with hdigit | rfl
    · exact utf8Size_of_isDigit hdigit
    · decide
  rw [byteSize_eq_length hone]
  obtain ⟨whole, fraction⟩ := literal
  cases fraction with
  | nil => rfl
  | cons d ds =>
    have hlength : (chars ⟨whole, d :: ds⟩).length = (whole ++ '.' :: d :: ds).length := rfl
    have hsize : size ⟨whole, d :: ds⟩ = whole.length + 1 + (d :: ds).length := rfl
    rw [hlength, hsize]
    simp only [List.length_append, List.length_cons]
    omega

/-! ## Splitting a literal off a text -/

/-- The digits at the front of a text end where the first other character
stands. -/
theorem takeWhile_isDigit {digits : List Char} (hdigits : ∀ c ∈ digits, c.isDigit = true)
    (rest : List Char) :
    (digits ++ rest).takeWhile Char.isDigit = digits ++ rest.takeWhile Char.isDigit :=
  List.takeWhile_append_of_pos hdigits

/-- Digits in front of a point end there. -/
theorem divide_at_point {digits : List Char} (hdigits : ∀ c ∈ digits, c.isDigit = true)
    (rest : List Char) :
    (digits ++ '.' :: rest).takeWhile Char.isDigit = digits ∧
      (digits ++ '.' :: rest).dropWhile Char.isDigit = '.' :: rest := by
  have hpoint : Char.isDigit '.' = false := by decide
  constructor
  · rw [takeWhile_isDigit hdigits, List.takeWhile_cons_of_neg (by simp [hpoint]),
      List.append_nil]
  · rw [List.dropWhile_append_of_pos hdigits, List.dropWhile_cons_of_neg (by simp [hpoint])]

/-- A fraction is split off a text with its point, or nothing is. -/
theorem splitFraction_cases (text : List Char) :
    (∀ c ∈ (splitFraction text).1, c.isDigit = true) ∧
      (splitFraction text = ([], text) ∨
        (splitFraction text).1 ≠ [] ∧
          text = '.' :: ((splitFraction text).1 ++ (splitFraction text).2)) := by
  unfold splitFraction
  split
  · rename_i rest
    split
    · exact ⟨by simp, Or.inl rfl⟩
    · rename_i hne
      refine ⟨fun c hc => List.all_eq_true.mp List.all_takeWhile c hc, Or.inr ⟨hne, ?_⟩⟩
      rw [List.takeWhile_append_dropWhile]
  · exact ⟨by simp, Or.inl rfl⟩

/-- The digits behind a point are split off as far as they go. -/
theorem splitFraction_digits {d : Char} {ds : List Char} (hdigits : ∀ c ∈ d :: ds, c.isDigit = true)
    (rest : List Char) :
    (splitFraction ('.' :: ((d :: ds) ++ rest))).1 = (d :: ds) ++ rest.takeWhile Char.isDigit := by
  have htake : (d :: (ds ++ rest)).takeWhile Char.isDigit =
      d :: (ds ++ rest.takeWhile Char.isDigit) := takeWhile_isDigit hdigits rest
  simp only [splitFraction, List.cons_append, htake]

/-- The literal split off a text that starts with a digit is proper, and the
text is its characters and what is left. -/
theorem split_spec {c : Char} (rest : List Char) (hdigit : c.isDigit = true) :
    (split (c :: rest)).1.Proper ∧
      (split (c :: rest)).1.chars ++ (split (c :: rest)).2 = c :: rest := by
  have hdivided : (c :: rest).takeWhile Char.isDigit ++ (c :: rest).dropWhile Char.isDigit =
      c :: rest := List.takeWhile_append_dropWhile
  obtain ⟨hfraction, hcases⟩ := splitFraction_cases ((c :: rest).dropWhile Char.isDigit)
  refine ⟨⟨?_, ?_, hfraction⟩, ?_⟩
  · simp [split, hdigit]
  · exact fun c hc => List.all_eq_true.mp List.all_takeWhile c hc
  · rcases hcases with hnone | ⟨hne, hsome⟩
    · simp only [split, hnone, chars_whole]
      exact hdivided
    · simp only [split, chars_pointed _ hne, List.append_assoc, List.cons_append]
      rw [← hsome]
      exact hdivided

/-- No literal at the front of a text is longer than the one split off. -/
theorem Proper.length_le_split {literal : Literal} (hproper : literal.Proper)
    (rest : List Char) :
    literal.chars.length ≤ (split (literal.chars ++ rest)).1.chars.length := by
  have hwhole (literal : Literal) : literal.whole.length ≤ literal.chars.length := by
    obtain ⟨whole, fraction⟩ := literal
    cases fraction with
    | nil => exact Nat.le_refl _
    | cons d ds => simp [chars]
  obtain ⟨whole, fraction⟩ := literal
  by_cases hnone : fraction = []
  · subst hnone
    have htake : (split (whole ++ rest)).1.whole = whole ++ rest.takeWhile Char.isDigit :=
      takeWhile_isDigit hproper.whole_digits rest
    have hle := hwhole (split (whole ++ rest)).1
    rw [htake, List.length_append] at hle
    rw [chars_whole]
    omega
  · obtain ⟨d, ds, rfl⟩ := List.exists_cons_of_ne_nil hnone
    obtain ⟨htake, hdrop⟩ := divide_at_point hproper.whole_digits ((d :: ds) ++ rest)
    have hsplit := splitFraction_digits hproper.fraction_digits rest
    have htext : chars ⟨whole, d :: ds⟩ ++ rest = whole ++ '.' :: ((d :: ds) ++ rest) := by
      rw [chars_pointed whole (by simp), List.append_assoc, List.cons_append]
    rw [htext]
    simp only [split, htake, hdrop, hsplit]
    rw [chars_pointed whole (by simp), chars_pointed whole (by simp)]
    simp only [List.length_append, List.length_cons]
    omega

/-- Two literals with the same text are the same. -/
theorem Proper.eq_of_chars_eq {literal literal' : Literal} (hproper : literal.Proper)
    (hproper' : literal'.Proper) (hchars : literal.chars = literal'.chars) :
    literal = literal' := by
  have hfront {literal : Literal} (hproper : literal.Proper) :
      literal.chars.takeWhile Char.isDigit = literal.whole := by
    obtain ⟨whole, fraction⟩ := literal
    cases fraction with
    | nil => simpa [chars_whole] using takeWhile_isDigit hproper.whole_digits []
    | cons d ds =>
      rw [chars_pointed whole (by simp)]
      exact (divide_at_point hproper.whole_digits (d :: ds)).1
  have hwhole : literal.whole = literal'.whole := by
    rw [← hfront hproper, hchars, hfront hproper']
  obtain ⟨whole, fraction⟩ := literal
  obtain ⟨whole', fraction'⟩ := literal'
  simp only at hwhole
  subst hwhole
  cases fraction with
  | nil =>
    cases fraction' with
    | nil => rfl
    | cons d ds => simp [chars] at hchars
  | cons d ds =>
    cases fraction' with
    | nil => simp [chars] at hchars
    | cons d' ds' => simpa [chars] using hchars

/-- A literal that no other one at the same place exceeds is the one split
off. -/
theorem Proper.split_eq {literal : Literal} (hproper : literal.Proper) {rest : List Char}
    (hlongest : ∀ other : Literal, other.Proper → other.chars <+: literal.chars ++ rest →
      other.chars.length ≤ literal.chars.length) :
    split (literal.chars ++ rest) = (literal, rest) := by
  obtain ⟨c, behind, hstart, hdigit⟩ := hproper.exists_digit
  obtain ⟨hsplit, htext⟩ := split_spec (behind ++ rest) hdigit
  rw [← List.cons_append, ← hstart] at hsplit htext
  have hle := hlongest _ hsplit ⟨_, htext⟩
  have hge := hproper.length_le_split rest
  obtain ⟨hchars, hrest⟩ := List.append_inj htext (by omega)
  exact Prod.ext (hsplit.eq_of_chars_eq hproper hchars) hrest

end Literal

/-! ## Tokens -/

/-- The characters spell the token. The end of the input has no spelling. -/
inductive Token.Spelled : Token → List Char → Prop
  /-- A literal spells its value. -/
  | number {literal : Literal} : literal.Proper → Spelled (.number literal.value) literal.chars
  /-- A symbol spells its operator. -/
  | operator (op : Operator) : Spelled (.operator op) [op.symbol]
  | leftParen : Spelled .leftParen ['(']
  | rightParen : Spelled .rightParen [')']

/-- The character that stands for a token spells it. -/
theorem Token.spelled_of_ofChar? {c : Char} {token : Token}
    (htoken : Token.ofChar? c = some token) : token.Spelled [c] := by
  unfold Token.ofChar? at htoken
  split at htoken <;> cases htoken
  · exact .operator .add
  · exact .operator .subtract
  · exact .operator .multiply
  · exact .operator .divide
  · exact .leftParen
  · exact .rightParen

namespace Token.Spelled

variable {token : Token} {text : List Char}

/-- A token is spelled by a literal, or by the one character that stands for
it. -/
theorem literal_or_symbol (h : token.Spelled text) :
    (∃ literal : Literal, literal.Proper ∧ token = .number literal.value ∧
      text = literal.chars) ∨ ∃ c, text = [c] ∧ Token.ofChar? c = some token := by
  cases h with
  | number hproper => exact Or.inl ⟨_, hproper, rfl, rfl⟩
  | operator op => exact Or.inr ⟨op.symbol, rfl, by cases op <;> rfl⟩
  | leftParen => exact Or.inr ⟨'(', rfl, rfl⟩
  | rightParen => exact Or.inr ⟨')', rfl, rfl⟩

/-- Symbols are neither blanks nor digits, and take one byte. -/
theorem symbol_facts {c : Char} (htoken : Token.ofChar? c = some token) :
    isBlank c = false ∧ c.isDigit = false ∧ c.utf8Size = 1 := by
  unfold Token.ofChar? at htoken
  split at htoken <;> first | exact ⟨by decide, by decide, by decide⟩ | cases htoken

/-- A spelling starts with a digit or with a symbol. -/
theorem exists_head (h : token.Spelled text) :
    ∃ c rest, text = c :: rest ∧ (c.isDigit = true ∨ ∃ symbol, Token.ofChar? c = some symbol) := by
  rcases h.literal_or_symbol with ⟨literal, hproper, _, rfl⟩ | ⟨c, rfl, hsymbol⟩
  · obtain ⟨c, rest, hchars, hdigit⟩ := hproper.exists_digit
    exact ⟨c, rest, hchars, Or.inl hdigit⟩
  · exact ⟨c, [], rfl, Or.inr ⟨token, hsymbol⟩⟩

/-- No spelling holds a blank. -/
theorem isBlank_of_mem (h : token.Spelled text) {c : Char} (hc : c ∈ text) :
    isBlank c = false := by
  rcases h.literal_or_symbol with ⟨literal, hproper, _, rfl⟩ | ⟨symbol, rfl, hsymbol⟩
  · rcases hproper.of_mem_chars hc with hdigit | rfl
    · cases hblank : isBlank c with
      | false => rfl
      | true => rw [isDigit_of_isBlank hblank] at hdigit; cases hdigit
    · decide
  · rw [List.mem_singleton.mp hc]
    exact (symbol_facts hsymbol).1

/-- A spelling takes at least one byte. -/
theorem byteSize_pos (h : token.Spelled text) : 0 < byteSize text := by
  obtain ⟨c, rest, rfl, _⟩ := h.exists_head
  have hpos := c.utf8Size_pos
  rw [byteSize_cons]
  omega

end Token.Spelled

/-! ## Longest spellings -/

/-- Where `text` stands with `rest` behind it, no token has a longer spelling. -/
def LongestSpelling (text rest : List Char) : Prop :=
  ∀ ⦃token : Token⦄ ⦃longer : List Char⦄, token.Spelled longer → longer <+: text ++ rest →
    longer.length ≤ text.length

/-- A symbol is no longer than its one character. -/
theorem longestSpelling_symbol {c : Char} {token : Token} (htoken : Token.ofChar? c = some token)
    (rest : List Char) : LongestSpelling [c] rest := by
  intro token' longer hlonger hprefix
  rcases hlonger.literal_or_symbol with ⟨literal, hproper, _, rfl⟩ | ⟨c', rfl, _⟩
  · obtain ⟨d, digits, hchars, hdigit⟩ := hproper.exists_digit
    rw [hchars, List.singleton_append] at hprefix
    obtain ⟨rfl, _⟩ := List.cons_prefix_cons.mp hprefix
    rw [(Token.Spelled.symbol_facts htoken).2.1] at hdigit
    cases hdigit
  · exact Nat.le_refl _

/-- The literal split off a text that starts with a digit is the longest
spelling. -/
theorem longestSpelling_split {c : Char} (rest : List Char) (hdigit : c.isDigit = true) :
    LongestSpelling (Literal.split (c :: rest)).1.chars (Literal.split (c :: rest)).2 := by
  obtain ⟨hproper, htext⟩ := Literal.split_spec rest hdigit
  intro token longer hlonger hprefix
  rcases hlonger.literal_or_symbol with ⟨literal, hliteral, _, rfl⟩ | ⟨c', rfl, _⟩
  · obtain ⟨behind, hbehind⟩ := hprefix
    have hle := hliteral.length_le_split behind
    rwa [hbehind, htext] at hle
  · obtain ⟨d, digits, hchars, _⟩ := hproper.exists_digit
    simp [hchars]

/-- The longest literal is the one that is split off. -/
theorem Literal.Proper.split_of_longest {literal : Literal} (hproper : literal.Proper)
    {rest : List Char} (hlongest : LongestSpelling literal.chars rest) :
    Literal.split (literal.chars ++ rest) = (literal, rest) :=
  hproper.split_eq fun _ hother => hlongest (.number hother)

end Calculator
