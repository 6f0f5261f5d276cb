import Calculator.Proofs.Leaves
import Calculator.Proofs.ReadBack

/-!
# Formulas

A tree is written as a formula: operators stand between their operands, and an
operand has parentheses only where the formula would mean another tree without
them. If all leaves are numbers that a literal can denote, parsing the formula
gives the tree back. The tokens of the formula are a phrase that denotes the
tree, and scanning finds these tokens, since no digit follows a number.
-/

namespace Calculator

/-! ## Writing formulas -/

/-- How tightly operators of a precedence bind. -/
def Precedence.level : Precedence → Nat
  | .additive => 0
  | .multiplicative => 1

/-- A text, between parentheses if it needs them. -/
def enclosed (needed : Bool) (text : List Char) : List Char :=
  if needed then '(' :: (text ++ [')']) else text

namespace Tree

/-- Whether a tree is a node that binds less tightly than a precedence. -/
def bindsBelow (p : Precedence) : Tree → Bool
  | .leaf _ => false
  | .node op _ _ => op.precedence.level < p.level

/-- Whether a tree is a node that binds no tighter than a precedence. -/
def bindsUpTo (p : Precedence) : Tree → Bool
  | .leaf _ => false
  | .node op _ _ => op.precedence.level ≤ p.level

/-- The characters of a tree's formula. A left operand has parentheses if it
binds less tightly than the operator, a right one also if it binds equally. -/
def formulaChars : Tree → List Char
  | .leaf value => Number.spelled Decimal.pointed value
  | .node op left right =>
    enclosed (left.bindsBelow op.precedence) left.formulaChars ++
      ' ' :: op.symbol :: ' ' ::
        enclosed (right.bindsUpTo op.precedence) right.formulaChars

/-- The formula of a tree, with as few parentheses as its shape allows. -/
def formula (t : Tree) : String := String.ofList t.formulaChars

end Tree

/-- How deep the parentheses of a text nest. -/
def parenthesisDepth (text : String) : Nat := nestingDepth (text.toList.filterMap Token.ofChar?)

/-! ## Texts and their tokens -/

/-- No digit stands at the front of a text. -/
def NoDigitAhead (text : List Char) : Prop := text.takeWhile Char.isDigit = []

/-- A text has exactly these tokens wherever it stands, unless a digit follows
it, and its symbols are those among the tokens. -/
structure Spells (text : List Char) (tokens : List Token) : Prop where
  /-- Scanning the text finds the tokens and goes on behind it. -/
  scanned : ∀ offset found rest, NoDigitAhead rest →
    ∃ lexemes : List Lexeme, lexemes.map Lexeme.token = tokens ∧
      scanFrom offset found (text ++ rest) =
        scanFrom (offset + byteSize text) (lexemes.reverse ++ found) rest
  /-- The symbols of the text are the tokens that are no numbers. -/
  symbols : text.filterMap Token.ofChar? = tokens.filter fun token => token.number?.isNone

/-- A symbol denotes no number. -/
theorem Token.number?_of_ofChar? {c : Char} {token : Token} (hsymbol : ofChar? c = some token) :
    token.number? = none := by
  unfold ofChar? at hsymbol
  split at hsymbol <;> cases hsymbol <;> rfl

/-- A literal with a fraction is split off where no digit follows it. -/
theorem Literal.Proper.split_append {literal : Literal} (hproper : literal.Proper)
    (hfraction : literal.fraction ≠ []) {rest : List Char} (hrest : NoDigitAhead rest) :
    Literal.split (literal.chars ++ rest) = (literal, rest) := by
  obtain ⟨whole, fraction⟩ := literal
  obtain ⟨d, ds, rfl⟩ := List.exists_cons_of_ne_nil hfraction
  obtain ⟨htake, hdrop⟩ := divide_at_point hproper.whole_digits ((d :: ds) ++ rest)
  have hbehind : rest.dropWhile Char.isDigit = rest := by
    have hdivided := @List.takeWhile_append_dropWhile _ Char.isDigit rest
    rwa [hrest, List.nil_append] at hdivided
  have hdigits : (d :: (ds ++ rest)).takeWhile Char.isDigit = d :: ds := by
    rw [← List.cons_append, takeWhile_isDigit hproper.fraction_digits, hrest, List.append_nil]
  have hnext : (d :: (ds ++ rest)).dropWhile Char.isDigit = rest := by
    rw [← List.cons_append, List.dropWhile_append_of_pos hproper.fraction_digits, hbehind]
  have hsplit : splitFraction ('.' :: ((d :: ds) ++ rest)) = (d :: ds, rest) := by
    simp only [splitFraction, List.cons_append, hdigits, hnext]
  rw [chars_pointed whole hfraction, List.append_assoc, List.cons_append, split, htake, hdrop,
    hsplit]

/-- A literal with a fraction is the longest spelling where no digit follows
it. -/
theorem Literal.Proper.longestSpelling {literal : Literal} (hproper : literal.Proper)
    (hfraction : literal.fraction ≠ []) {rest : List Char} (hrest : NoDigitAhead rest) :
    LongestSpelling literal.chars rest := by
  obtain ⟨c, digits, hchars, hdigit⟩ := hproper.exists_digit
  have hlongest := longestSpelling_split (digits ++ rest) hdigit
  rwa [← List.cons_append, ← hchars, hproper.split_append hfraction hrest] at hlongest

namespace Spells

variable {text text' : List Char} {tokens tokens' : List Token}

/-- No characters have no tokens. -/
theorem nil : Spells [] [] := ⟨fun _ _ _ _ => ⟨[], rfl, rfl⟩, rfl⟩

/-- A space in front of a text adds no token. -/
theorem cons_space (h : Spells text tokens) : Spells (' ' :: text) tokens where
  scanned := by
    intro offset found rest hrest
    obtain ⟨lexemes, htokens, hscan⟩ := h.scanned (offset + 1) found rest hrest
    refine ⟨lexemes, htokens, ?_⟩
    rw [List.cons_append, scanFrom, if_pos (by decide), hscan, byteSize_cons, ← Nat.add_assoc]
    rfl
  symbols := h.symbols

/-- A symbol in front of a text adds its token. -/
theorem cons_symbol (h : Spells text tokens) {c : Char} {token : Token}
    (hsymbol : Token.ofChar? c = some token) : Spells (c :: text) (token :: tokens) where
  scanned := by
    intro offset found rest hrest
    have hlongest := longestSpelling_symbol hsymbol (text ++ rest)
    have hfirst := scanFrom_spelled (Token.spelled_of_ofChar? hsymbol) hlongest offset found
    obtain ⟨lexemes, htokens, hscan⟩ := h.scanned (offset + byteSize [c]) _ rest hrest
    refine ⟨⟨token, offset, offset + byteSize [c]⟩ :: lexemes, by rw [List.map_cons, htokens], ?_⟩
    have hsize : byteSize (c :: text) = byteSize [c] + byteSize text := by
      rw [byteSize_cons, byteSize_singleton]
    rw [List.singleton_append] at hfirst
    rw [List.cons_append, hfirst, hscan, hsize, Nat.add_assoc, List.reverse_cons,
      List.append_assoc, List.singleton_append]
  symbols := by
    have hnumber := Token.number?_of_ofChar? hsymbol
    rw [List.filterMap_cons_some hsymbol, h.symbols, List.filter_cons_of_pos (by simp [hnumber])]

/-- A text may be followed by one that does not start with a digit. -/
theorem append {c : Char} (h : Spells text tokens) (h' : Spells (c :: text') tokens')
    (hdigit : c.isDigit = false) : Spells (text ++ c :: text') (tokens ++ tokens') where
  scanned := by
    intro offset found rest hrest
    have hahead : NoDigitAhead (c :: text' ++ rest) := by
      rw [NoDigitAhead, List.cons_append, List.takeWhile_cons_of_neg (by simp [hdigit])]
    obtain ⟨first, hfirst, hscan⟩ := h.scanned offset found _ hahead
    obtain ⟨second, hsecond, hscan'⟩ := h'.scanned (offset + byteSize text) _ rest hrest
    refine ⟨first ++ second, by rw [List.map_append, hfirst, hsecond], ?_⟩
    rw [List.append_assoc, hscan, hscan', byteSize_append, Nat.add_assoc, List.reverse_append,
      List.append_assoc]
  symbols := by rw [List.filterMap_append, h.symbols, h'.symbols, List.filter_append]

/-- A literal with a fraction spells its value. -/
theorem of_literal {literal : Literal} (hproper : literal.Proper)
    (hfraction : literal.fraction ≠ []) :
    Spells literal.chars [.number literal.value] where
  scanned := by
    intro offset found rest hrest
    exact ⟨[⟨.number literal.value, offset, offset + byteSize literal.chars⟩], rfl,
      scanFrom_spelled (.number hproper) (hproper.longestSpelling hfraction hrest) offset found⟩
  symbols := by
    have hnone (c : Char) (hc : c ∈ literal.chars) : Token.ofChar? c = none := by
      cases hsymbol : Token.ofChar? c with
      | none => rfl
      | some symbol =>
        rcases hproper.of_mem_chars hc with hdigit | rfl
        · rw [(Token.Spelled.symbol_facts hsymbol).2.1] at hdigit
          cases hdigit
        · cases hsymbol
    rw [List.filterMap_eq_nil_iff.mpr hnone]
    rfl

/-- Parentheses around a text are the first and the last token. -/
theorem group (h : Spells text tokens) :
    Spells ('(' :: (text ++ [')'])) (.leftParen :: (tokens ++ [.rightParen])) := by
  have hclose : Spells [')'] [.rightParen] := nil.cons_symbol rfl
  exact (h.append hclose (by decide)).cons_symbol rfl

/-- Scanning a whole text gives its tokens. -/
theorem scan_eq (h : Spells text tokens) :
    ∃ lexemes, lexemes.map Lexeme.token = tokens ∧
      scan (String.ofList text) = ⟨lexemes, none, (String.ofList text).utf8ByteSize⟩ := by
  obtain ⟨lexemes, htokens, hscan⟩ := h.scanned 0 [] [] rfl
  rw [List.append_nil, List.append_nil, scanFrom, List.reverse_reverse] at hscan
  exact ⟨lexemes, htokens, by rw [scan, String.toList_ofList, hscan]⟩

/-- Numbers do not nest, so a text is as deep as its tokens. -/
theorem parenthesisDepth_eq (h : Spells text tokens) :
    parenthesisDepth (String.ofList text) = nestingDepth tokens := by
  have hsymbols (opened : Nat) (tokens : List Token) :
      deepest opened (tokens.filter fun token => token.number?.isNone) = deepest opened tokens := by
    induction tokens generalizing opened with
    | nil => rfl
    | cons token rest ih =>
      cases token with
      | number value => exact ih opened
      | operator op => exact ih opened
      | leftParen => exact ih (opened + 1)
      | rightParen => exact congrArg (max opened) (ih (opened - 1))
      | endOfInput => exact ih opened
  rw [parenthesisDepth, String.toList_ofList, h.symbols, nestingDepth, hsymbols, nestingDepth]

end Spells

/-! ## The phrases of formulas -/

/-- The category of a tree's formula. -/
def Tree.category : Tree → Category
  | .leaf _ => .factor
  | .node op _ _ => .chain op.precedence

namespace Derives

variable {tokens : List Token} {t : Tree}

/-- A factor is an operand of every operator. -/
theorem operand_of_factor (h : Derives .factor tokens t) (p : Precedence) :
    Derives p.operands tokens t := by
  cases p with
  | additive => exact of_factor h
  | multiplicative => exact h

/-- A chain is also one of an operator that binds no tighter. -/
theorem chain_of_level_le {p q : Precedence} (h : Derives (.chain q) tokens t)
    (hlevel : p.level ≤ q.level) : Derives (.chain p) tokens t := by
  cases p with
  | additive =>
    cases q with
    | additive => exact h
    | multiplicative => exact .single h
  | multiplicative =>
    cases q with
    | additive => exact absurd hlevel (by decide)
    | multiplicative => exact h

/-- A chain is an operand of an operator that binds less tightly. -/
theorem operand_of_level_lt {p q : Precedence} (h : Derives (.chain q) tokens t)
    (hlevel : p.level < q.level) : Derives p.operands tokens t := by
  cases p with
  | additive =>
    cases q with
    | additive => exact absurd hlevel (by decide)
    | multiplicative => exact h
  | multiplicative => cases q <;> exact absurd hlevel (by decide)

/-- The formula of a tree that does not bind less tightly is a chain. -/
theorem chain_of_category (h : Derives t.category tokens t) {p : Precedence}
    (hbinds : t.bindsBelow p = false) : Derives (.chain p) tokens t := by
  cases t with
  | leaf value => exact of_factor h
  | node op left right => exact chain_of_level_le h (by simpa [Tree.bindsBelow] using hbinds)

/-- The formula of a tree that binds tighter is an operand. -/
theorem operand_of_category (h : Derives t.category tokens t) {p : Precedence}
    (hbinds : t.bindsUpTo p = false) : Derives p.operands tokens t := by
  cases t with
  | leaf value => exact operand_of_factor h p
  | node op left right => exact operand_of_level_lt h (by simpa [Tree.bindsUpTo] using hbinds)

/-- The formula of every tree is an expression. -/
theorem expression_of_category (h : Derives t.category tokens t) :
    Derives .expression tokens t := by
  apply h.chain_of_category
  cases t with
  | leaf value => rfl
  | node op left right => rfl

end Derives

/-- An operand is written as a phrase of a category if it is such a phrase
without parentheses unless it needs them, and factors are such phrases. -/
theorem exists_enclosed {text : List Char} {tokens : List Token} {t : Tree} {needed : Bool}
    {category : Category} (hspells : Spells text tokens) (hderives : Derives t.category tokens t)
    (hplain : needed = false → Derives category tokens t)
    (hgroup : ∀ {tokens}, Derives .factor tokens t → Derives category tokens t) :
    ∃ tokens, Spells (enclosed needed text) tokens ∧ Derives category tokens t := by
  cases needed with
  | false => exact ⟨tokens, hspells, hplain rfl⟩
  | true => exact ⟨_, hspells.group, hgroup (.group hderives.expression_of_category)⟩

/-- A literal can denote the number: it is finite and its sign bit is clear. -/
def Number.Denotable (value : Float) : Prop :=
  value.isFinite = true ∧ value.toBits.toNat < signBit

/-- The text of a number that a literal can denote is such a literal. -/
theorem Number.Denotable.spells {value : Float} (h : Denotable value) :
    Spells (spelled Decimal.pointed value) [.number value] := by
  have hfinite := pattern_lt_of_isFinite h.1
  obtain ⟨literal, hproper, hfraction, hchars, hvalue⟩ := exists_literal hfinite
  have hspells := Spells.of_literal hproper hfraction
  rw [hvalue, ofBits_pattern h.2, hchars] at hspells
  rwa [spelled_eq_magnitudeText hfinite.le, if_neg (Nat.not_le.mpr h.2)]

/-- The formula of a tree has the tokens of a phrase that denotes the tree. -/
theorem Tree.exists_tokens (t : Tree) (hleaves : ∀ value ∈ t.leaves, Number.Denotable value) :
    ∃ tokens, Spells t.formulaChars tokens ∧ Derives t.category tokens t := by
  induction t with
  | leaf value =>
    have hvalue : Number.Denotable value := hleaves value (List.mem_singleton_self value)
    exact ⟨[.number value], hvalue.spells, .number value⟩
  | node op left right ihleft ihright =>
    obtain ⟨_, hspells, hderives⟩ := ihleft fun value h => hleaves value (List.mem_append_left _ h)
    obtain ⟨_, hspells', hderives'⟩ :=
      ihright fun value h => hleaves value (List.mem_append_right _ h)
    obtain ⟨first, hfirst, hchain⟩ :=
      exists_enclosed hspells hderives hderives.chain_of_category Derives.of_factor
    obtain ⟨second, hsecond, hoperand⟩ :=
      exists_enclosed hspells' hderives' hderives'.operand_of_category
        fun hfactor => hfactor.operand_of_factor op.precedence
    have hsymbol : Token.ofChar? op.symbol = some (.operator op) := by cases op <;> rfl
    have hbehind := (hsecond.cons_space.cons_symbol hsymbol).cons_space
    exact ⟨first ++ .operator op :: second, hfirst.append hbehind (by decide),
      .joined hchain rfl hoperand⟩

/-- Parsing a formula gives back its tree, if literals can denote its leaves and
the limit admits its parentheses. -/
theorem Settings.parse_formula (settings : Settings) (t : Tree)
    (hleaves : ∀ value ∈ t.leaves, value.isFinite = true ∧ value.toBits.toNat < Number.signBit)
    (hlimit : parenthesisDepth t.formula ≤ settings.limit) :
    settings.parse t.formula = .ok t := by
  obtain ⟨tokens, hspells, hderives⟩ := t.exists_tokens hleaves
  obtain ⟨lexemes, rfl, hscan⟩ := hspells.scan_eq
  have hdepth := hspells.parenthesisDepth_eq
  apply parse_of_derives hscan hderives.expression_of_category
  rw [← hdepth]
  exact hlimit

/-- Differences are grouped only to the right, and a product encloses them. -/
theorem Settings.parse_formula_groups :
    (Tree.node .multiply (.node .subtract (.leaf 1) (.node .subtract (.leaf 2) (.leaf 0.5)))
        (.leaf 3)).formula = "(1.0 - (2.0 - 0.5)) * 3.0" ∧
      Settings.parse { limit := 2 } "(1.0 - (2.0 - 0.5)) * 3.0" =
        .ok (.node .multiply (.node .subtract (.leaf 1) (.node .subtract (.leaf 2) (.leaf 0.5)))
          (.leaf 3)) := by
  have hformula : (Tree.node .multiply
      (.node .subtract (.leaf 1) (.node .subtract (.leaf 2) (.leaf 0.5)))
      (.leaf 3)).formula = "(1.0 - (2.0 - 0.5)) * 3.0" := by decide +kernel
  refine ⟨hformula, ?_⟩
  rw [← hformula]
  exact Settings.parse_formula { limit := 2 } _ (by decide +kernel) (by decide +kernel)

end Calculator
