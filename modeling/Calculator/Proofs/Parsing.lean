import Calculator.Proofs.Completeness
import Calculator.Proofs.Scanning

/-!
# Parsing accepts exactly the expressions of the grammar

A whole text is parsed into a tree if and only if it scans without a fault, its
tokens are an expression that denotes this tree, and its parentheses keep to
the limit. Since parsing gives one answer, the tree is the only one that the
tokens denote.
-/

namespace Calculator

/-- A phrase has at least one token. -/
theorem Derives.ne_nil {category : Category} {tokens : List Token} {tree : Tree}
    (h : Derives category tokens tree) : tokens ≠ [] := by
  induction h with
  | single _ ih => exact ih
  | joined _ _ _ _ _ => simp
  | number value => simp
  | group _ _ => simp

/-- The end of the input is no token of a phrase. -/
theorem Derives.ne_endOfInput {category : Category} {tokens : List Token} {tree : Tree}
    (h : Derives category tokens tree) : ∀ token ∈ tokens, token ≠ .endOfInput := by
  induction h with
  | single _ ih => exact ih
  | joined _ _ _ ihleft ihright =>
    intro token htoken
    rcases List.mem_append.mp htoken with hleft | hright
    · exact ihleft token hleft
    · rcases List.mem_cons.mp hright with rfl | hright
      · simp
      · exact ihright token hright
  | number value => simp
  | group _ ih =>
    intro token htoken
    rcases List.mem_cons.mp htoken with rfl | htoken
    · simp
    · rcases List.mem_append.mp htoken with hinner | hlast
      · exact ih token hinner
      · rw [List.mem_singleton.mp hlast]
        simp

namespace Cursor.Faces

variable {s : Cursor} {lexemes : List Lexeme} {fault : Option Unrecognized}
  {size nesting limit : Nat}

/-- Nothing is left behind a tree exactly at the end of the text. -/
theorem of_finish_ok {s' : Cursor} {tree tree' : Tree}
    (h : s.Faces ⟨lexemes, fault, size⟩ nesting limit)
    (hfinish : s.finish tree = (.ok tree', s')) : lexemes = [] ∧ fault = none ∧ tree = tree' := by
  obtain ⟨ahead, s₁, hpeek, hnext⟩ := andThen_eq_ok hfinish
  cases htoken : ahead.token with
  | endOfInput =>
    obtain ⟨_, ⟨rest, rfl, _⟩ | ⟨rfl, rfl, _⟩⟩ := h.of_peek_ok hpeek
    · have hreal := h.real ahead (by simp)
      simp [Lexeme.isReal, htoken] at hreal
    · simp only [htoken, Prod.mk.injEq, Except.ok.injEq] at hnext
      exact ⟨rfl, rfl, hnext.1⟩
  | number value => simp [htoken] at hnext
  | operator op => simp [htoken] at hnext
  | leftParen => simp [htoken] at hnext
  | rightParen => simp [htoken] at hnext

/-- A text that is read to its end is an expression of the grammar. -/
theorem derives_of_expression {s' : Cursor} {tree : Tree}
    (h : s.Faces ⟨lexemes, fault, size⟩ 0 limit) (hread : s.expression = (.ok tree, s')) :
    fault = none ∧ Derives .expression (lexemes.map Lexeme.token) tree ∧
      nestingDepth (lexemes.map Lexeme.token) ≤ limit := by
  rw [expression_eq_finish] at hread
  obtain ⟨ahead, s₁, hpeek, hnext⟩ := andThen_eq_ok hread
  by_cases hreal : ahead.isReal = true
  · rw [if_pos hreal] at hnext
    obtain ⟨tree', s₂, hchain, hfinish⟩ := andThen_eq_ok hnext
    obtain ⟨phrase, rest, rfl, hderives, hdeep, hfaces₂, _⟩ :=
      rules_sound.1 _ _ _ _ hchain (h.of_peek_ok hpeek).1
    obtain ⟨rfl, rfl, rfl⟩ := hfaces₂.of_finish_ok hfinish
    rw [List.append_nil]
    exact ⟨rfl, hderives, hdeep⟩
  · rw [if_neg hreal] at hnext
    cases hnext

/-- An expression of the grammar is read to its end. -/
theorem expression_of_derives {tree : Tree} (h : s.Faces ⟨lexemes, fault, size⟩ 0 limit)
    (hfault : fault = none)
    (hderives : Derives .expression (lexemes.map Lexeme.token) tree)
    (hdeep : nestingDepth (lexemes.map Lexeme.token) ≤ limit) :
    ∃ s', s.expression = (.ok tree, s') := by
  subst hfault
  have hstart : ∃ first rest, lexemes = first :: rest :=
    List.exists_cons_of_ne_nil fun hnil => hderives.ne_nil (by rw [hnil]; rfl)
  obtain ⟨first, rest, rfl⟩ := hstart
  obtain ⟨s₁, hpeek, hfaces₁, _⟩ := h.peek_cons
  rw [← List.append_nil (first :: rest)] at hfaces₁
  obtain ⟨s₂, hreads, hfaces₂⟩ := hderives.readsTo rfl hfaces₁ hdeep rfl
  obtain ⟨s₃, hrest, hfaces₃⟩ := hfaces₂.chainRest_of_ends (p := .additive) rfl tree
  obtain ⟨s₄, hpeek₄, _⟩ := hfaces₃.peek_end
  have hchain : s₁.chain .additive = (.ok tree, s₃) := Eq.trans hreads hrest
  refine ⟨s₄, ?_⟩
  rw [expression_eq_finish, hpeek, andThen_ok, if_pos (h.real first (by simp)), hchain, andThen_ok,
    finish, hpeek₄]
  rfl

end Cursor.Faces

/-- The cursor at the start of a text faces its scan. -/
theorem Cursor.faces_ofSource (source : String) (limit : Nat) :
    (ofSource source {} limit).Faces (scan source) 0 limit :=
  ⟨.unseen .., rfl, rfl, rfl, rfl, Nat.zero_le _, scan_isReal source, rfl⟩

/-- A cursor that faces any lexemes, without a fault behind them. -/
def Cursor.ofLexemes (lexemes : List Lexeme) (size limit : Nat) : Cursor :=
  { lookahead := none, upcoming := lexemes, fault := none, size, nesting := 0, limit, tracer := {} }

/-- The lexemes of such a cursor are what it faces. -/
theorem Cursor.faces_ofLexemes {lexemes : List Lexeme} (size limit : Nat)
    (hreal : ∀ lexeme ∈ lexemes, lexeme.isReal = true) :
    (ofLexemes lexemes size limit).Faces ⟨lexemes, none, size⟩ 0 limit :=
  ⟨.unseen .., rfl, rfl, rfl, rfl, Nat.zero_le _, hreal, rfl⟩

/-- Lexemes for tokens that stand in no text. -/
def placeholders (tokens : List Token) : List Lexeme := tokens.map fun token => ⟨token, 0, 0⟩

/-- The tokens of placeholders are those they stand for. -/
@[simp] theorem map_token_placeholders (tokens : List Token) :
    (placeholders tokens).map Lexeme.token = tokens := by
  unfold placeholders
  rw [List.map_map]
  exact List.map_id tokens

/-- Lexemes are real if the end of the input is none of their tokens. -/
theorem isReal_of_map_token {lexemes : List Lexeme}
    (htokens : ∀ token ∈ lexemes.map Lexeme.token, token ≠ .endOfInput) :
    ∀ lexeme ∈ lexemes, lexeme.isReal = true := by
  intro lexeme hlexeme
  have hne := htokens lexeme.token (List.mem_map_of_mem hlexeme)
  unfold Lexeme.isReal
  split
  · rename_i htoken
    exact absurd htoken hne
  · rfl

/-- Tokens denote at most one tree. -/
theorem Derives.tree_unique {tokens : List Token} {tree tree' : Tree}
    (h : Derives .expression tokens tree) (h' : Derives .expression tokens tree') :
    tree = tree' := by
  have htokens := map_token_placeholders tokens
  have hreal : ∀ lexeme ∈ placeholders tokens, lexeme.isReal = true :=
    isReal_of_map_token (by rw [htokens]; exact h.ne_endOfInput)
  have hfaces := Cursor.faces_ofLexemes 0 (nestingDepth tokens) hreal
  have hdeep : nestingDepth ((placeholders tokens).map Lexeme.token) ≤ nestingDepth tokens :=
    Nat.le_of_eq (congrArg nestingDepth htokens)
  rw [← htokens] at h h'
  obtain ⟨s₁, hread⟩ := hfaces.expression_of_derives rfl h hdeep
  obtain ⟨s₂, hread'⟩ := hfaces.expression_of_derives rfl h' hdeep
  rw [hread] at hread'
  cases hread'
  rfl

/-- A scan delivers lexemes and then the end of the input exactly if these are
its lexemes and it met no fault. -/
theorem Scan.items_eq_iff (scan : Scan) (lexemes : List Lexeme) :
    scan.items = lexemes.map .ok ++ [.ok (Lexeme.atEnd scan.size)] ↔
      scan.lexemes = lexemes ∧ scan.fault = none := by
  unfold items
  constructor
  · intro hitems
    obtain ⟨hlexemes, hlast⟩ := List.append_inj' hitems rfl
    refine ⟨(List.map_inj_right fun _ _ => Except.ok.inj).mp hlexemes, ?_⟩
    cases hfault : scan.fault with
    | none => rfl
    | some unrecognized => simp [hfault] at hlast
  · rintro ⟨rfl, hfault⟩
    rw [hfault]

/-- The tokens of a parsed text are an expression that denotes its tree. -/
theorem Settings.derives_of_parse {settings : Settings} {source : String} {tree : Tree}
    (hparse : settings.parse source = .ok tree) :
    Derives .expression ((scan source).lexemes.map Lexeme.token) tree := by
  rw [settings.parse_eq_untraced] at hparse
  exact ((Cursor.faces_ofSource source _).derives_of_expression (Prod.ext hparse rfl)).2.1

/-- A text is parsed if its tokens are an expression that keeps to the limit. -/
theorem Settings.parse_of_derives {settings : Settings} {source : String} {tree : Tree}
    {lexemes : List Lexeme} {size : Nat} (hscan : scan source = ⟨lexemes, none, size⟩)
    (hderives : Derives .expression (lexemes.map Lexeme.token) tree)
    (hdeep : nestingDepth (lexemes.map Lexeme.token) ≤ settings.limit) :
    settings.parse source = .ok tree := by
  have hfaces := Cursor.faces_ofSource source settings.limit
  rw [hscan] at hfaces
  obtain ⟨s', hread⟩ := hfaces.expression_of_derives rfl hderives hdeep
  rw [settings.parse_eq_untraced, hread]

/-- Parsing a text gives a tree if and only if the text scans into lexemes and
the end of the input, the tokens of these lexemes are an expression of the
grammar that denotes the tree, and their parentheses nest no deeper than the
limit. No tokens denote two trees. -/
theorem Settings.parse_eq_ok_iff_derives (settings : Settings) (source : String) (tree : Tree) :
    (settings.parse source = .ok tree ↔
      ∃ lexemes : List Lexeme,
        (scan source).items = lexemes.map .ok ++ [.ok (Lexeme.atEnd source.utf8ByteSize)] ∧
        Derives .expression (lexemes.map Lexeme.token) tree ∧
        nestingDepth (lexemes.map Lexeme.token) ≤ settings.limit) ∧
    ∀ tokens tree₁ tree₂, Derives .expression tokens tree₁ → Derives .expression tokens tree₂ →
      tree₁ = tree₂ := by
  refine ⟨?_, fun _ _ _ => Derives.tree_unique⟩
  have hfaces := Cursor.faces_ofSource source settings.limit
  have hitems := (scan source).items_eq_iff
  rw [settings.parse_eq_untraced]
  constructor
  · intro hparse
    obtain ⟨hfault, hderives, hdeep⟩ := hfaces.derives_of_expression (Prod.ext hparse rfl)
    exact ⟨(scan source).lexemes, (hitems _).mpr ⟨rfl, hfault⟩, hderives, hdeep⟩
  · rintro ⟨lexemes, hscan, hderives, hdeep⟩
    obtain ⟨rfl, hfault⟩ := (hitems lexemes).mp hscan
    obtain ⟨s', hread⟩ := hfaces.expression_of_derives hfault hderives hdeep
    rw [hread]

end Calculator
