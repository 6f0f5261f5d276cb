import Calculator.Proofs.Concatenation
import Calculator.Proofs.Formula
import Calculator.Proofs.PostorderText

/-!
# Expressions made of expressions

A text that parses may be put between parentheses, with blanks anywhere around
the pieces, and two such texts may be joined by an operator. The result parses
into the trees of the pieces, joined in the same way, and has the value that the
operator gives for theirs. One more group may have to be open at once.

A text that does not parse is not mended by parentheses either, as long as it
fails before it is complete. The flat machine shows this: inside a group it takes
the steps that it takes outside, until the group is closed.
-/

namespace Calculator

/-! ## Texts and their tokens -/

/-- Scanning a text finds exactly these tokens and reaches its end. -/
def Scans (text : List Char) (tokens : List Token) : Prop :=
  ∃ lexemes, Tiled 0 text lexemes none ∧ lexemes.map Lexeme.token = tokens

namespace Scans

variable {text text' : List Char} {tokens tokens' : List Token}

/-- A text that is scanned to its end has the tokens that were found. -/
theorem of_scan {source : String} (hfault : (scan source).fault = none) :
    Scans source.toList ((scan source).lexemes.map Lexeme.token) := by
  have htiled := scan_tiled source
  rw [hfault] at htiled
  exact ⟨_, htiled, rfl⟩

/-- The scan of a whole text has its tokens. -/
theorem scan_eq {source : String} (h : Scans source.toList tokens) :
    ∃ lexemes, scan source = ⟨lexemes, none, source.utf8ByteSize⟩ ∧
      lexemes.map Lexeme.token = tokens := by
  obtain ⟨lexemes, htiled, htokens⟩ := h
  exact ⟨lexemes, scan_eq_of_tiled htiled, htokens⟩

/-- A text has one list of tokens only. -/
theorem unique {source : String} (h : Scans source.toList tokens)
    (h' : Scans source.toList tokens') : tokens = tokens' := by
  obtain ⟨lexemes, hscan, rfl⟩ := h.scan_eq
  obtain ⟨lexemes', hscan', rfl⟩ := h'.scan_eq
  rw [hscan] at hscan'
  cases hscan'
  rfl

/-- Wherever the text stands, its tokens are the same. -/
theorem tiled (h : Scans text tokens) (offset : Nat) :
    ∃ lexemes, Tiled offset text lexemes none ∧ lexemes.map Lexeme.token = tokens := by
  obtain ⟨lexemes, htiled, rfl⟩ := h
  have hmoved : Tiled (0 + offset) text (lexemes.map (Lexeme.shift 0 offset)) none :=
    htiled.translate (Nat.le_refl 0)
  rw [Nat.zero_add] at hmoved
  refine ⟨_, hmoved, ?_⟩
  rw [List.map_map]
  exact List.map_congr_left fun lexeme _ => lexeme.token_shift

/-- Blanks have no token. -/
theorem of_allBlank (hblank : AllBlank text) : Scans text [] := ⟨[], .finished hblank, rfl⟩

/-- Blanks in front of a text add no token. -/
theorem prepend (hblank : AllBlank text) (h : Scans text' tokens) :
    Scans (text ++ text') tokens := by
  obtain ⟨lexemes, htiled, htokens⟩ := h.tiled (0 + byteSize text)
  exact ⟨lexemes, htiled.prepend hblank, htokens⟩

/-- A symbol in front of a text adds its token. -/
theorem cons_symbol {c : Char} {token : Token} (hsymbol : Token.ofChar? c = some token)
    (h : Scans text tokens) : Scans (c :: text) (token :: tokens) := by
  obtain ⟨lexemes, htiled, htokens⟩ := h.tiled (0 + byteSize [c])
  have hfirst := Tiled.cons_lexeme (Token.spelled_of_ofChar? hsymbol)
    (longestSpelling_symbol hsymbol text) htiled
  exact ⟨_, hfirst, by rw [List.map_cons, htokens]⟩

/-- The tokens of texts follow one another as the texts do. -/
theorem append (h : Scans text tokens) (h' : Scans text' tokens') (hbreaks : Breaks text') :
    Scans (text ++ text') (tokens ++ tokens') := by
  obtain ⟨lexemes, htiled, rfl⟩ := h
  obtain ⟨lexemes', htiled', rfl⟩ := h'.tiled (0 + byteSize text)
  exact ⟨_, htiled.append hbreaks htiled', List.map_append⟩

end Scans

/-- Blanks in front do not join what they separate. -/
theorem breaks_of_allBlank {gap text : List Char} (hgap : AllBlank gap) (hbreaks : Breaks text) :
    Breaks (gap ++ text) := by
  cases gap with
  | nil => exact hbreaks
  | cons c gap => exact breaks_of_blank (hgap c (by simp)) _

/-! ## Parentheses -/

/-- Texts that consist of blanks. -/
def Blanks : Type := { text : String // AllBlank text.toList }

/-- A pair of parentheses with the blanks on either side of each. -/
structure Parentheses where
  /-- The blanks in front of the left parenthesis. -/
  before : Blanks
  /-- The blanks behind the left parenthesis. -/
  left : Blanks
  /-- The blanks in front of the right parenthesis. -/
  right : Blanks
  /-- The blanks behind the right parenthesis. -/
  behind : Blanks

/-- The text with the parentheses around it. -/
def Parentheses.around (p : Parentheses) (source : String) : String :=
  p.before.1 ++ "(" ++ p.left.1 ++ source ++ p.right.1 ++ ")" ++ p.behind.1

/-- Parentheses around a text are the first and the last token. -/
theorem Parentheses.scans_around (p : Parentheses) {source : String} {tokens : List Token}
    (h : Scans source.toList tokens) :
    Scans (p.around source).toList (.leftParen :: (tokens ++ [.rightParen])) := by
  have hchars : (p.around source).toList = p.before.1.toList ++ '(' ::
      (p.left.1.toList ++ (source.toList ++ (p.right.1.toList ++ ')' :: p.behind.1.toList))) := by
    simp [around, String.toList_append]
  have hclose : Scans (p.right.1.toList ++ ')' :: p.behind.1.toList) [.rightParen] :=
    .prepend p.right.2 (.cons_symbol rfl (.of_allBlank p.behind.2))
  have hbreaks : Breaks (p.right.1.toList ++ ')' :: p.behind.1.toList) :=
    breaks_of_allBlank p.right.2 (breaks_of_symbol rfl _)
  rw [hchars]
  exact .prepend p.before.2 (.cons_symbol rfl (.prepend p.left.2 (h.append hclose hbreaks)))

/-- The token of an operator between two texts stands between their tokens. -/
theorem Scans.joined {left right : String} {tokens tokens' : List Token} (op : Operator)
    (h : Scans left.toList tokens) (h' : Scans right.toList tokens') :
    Scans (left ++ String.singleton op.symbol ++ right).toList
      (tokens ++ .operator op :: tokens') := by
  have hsymbol : Token.ofChar? op.symbol = some (.operator op) := by cases op <;> rfl
  have hchars : (left ++ String.singleton op.symbol ++ right).toList =
      left.toList ++ op.symbol :: right.toList := by
    simp [String.toList_append]
  rw [hchars]
  exact h.append (.cons_symbol hsymbol h') (breaks_of_symbol hsymbol _)

/-! ## Groups and their depth -/

/-- One more open group makes tokens at most one level deeper. -/
theorem deepest_succ_le (opened : Nat) (tokens : List Token) :
    deepest (opened + 1) tokens ≤ deepest opened tokens + 1 := by
  induction tokens generalizing opened with
  | nil => exact Nat.le_refl _
  | cons token rest ih =>
    cases token with
    | leftParen => exact ih (opened + 1)
    | rightParen =>
      simp only [deepest, Nat.add_sub_cancel]
      cases opened with
      | zero =>
        rw [Nat.zero_sub]
        omega
      | succ opened =>
        have hrest := ih opened
        rw [Nat.add_sub_cancel]
        omega
    | number value => exact ih opened
    | operator op => exact ih opened
    | endOfInput => exact ih opened

/-- A group is at most one level deeper than its inside. -/
theorem Derives.nestingDepth_group {tokens : List Token} {tree : Tree}
    (h : Derives .expression tokens tree) :
    nestingDepth (.leftParen :: (tokens ++ [.rightParen])) ≤ nestingDepth tokens + 1 := by
  rw [nestingDepth, h.deepest_group]
  exact deepest_succ_le 0 tokens

/-- Two groups with an operator between them denote the trees of both, joined by
the operator. -/
theorem Derives.joined_groups {tokens tokens' : List Token} {a b : Tree} (op : Operator)
    (h : Derives .expression tokens a) (h' : Derives .expression tokens' b) :
    Derives .expression ((Token.leftParen :: (tokens ++ [Token.rightParen])) ++
      Token.operator op :: (Token.leftParen :: (tokens' ++ [Token.rightParen])))
      (.node op a b) := by
  have hleft : Derives (.chain op.precedence) (.leftParen :: (tokens ++ [.rightParen])) a :=
    .of_factor (.group h)
  have hright : Derives op.precedence.operands (.leftParen :: (tokens' ++ [.rightParen])) b :=
    operand_of_factor (.group h') op.precedence
  have hnode : Derives (Tree.node op a b).category _ (.node op a b) := .joined hleft rfl hright
  exact hnode.expression_of_category

/-- The value of a node is what the operator gives for the values of its
operands. -/
theorem Tree.evaluate_node (op : Operator) (a b : Tree) :
    (Tree.node op a b).evaluate = op.apply a.evaluate b.evaluate := by
  simp only [evaluate, arithmetic.result_eq_fold]
  rfl

/-! ## The machine inside a group -/

namespace Machine

variable {m m' : Machine} {limit size : Nat} {lexeme : Lexeme} {lexemes : List Lexeme}
  {found : Fault}

/-- The machine inside one group more, which is the outermost one. -/
def inside (openedAt : Nat) (m : Machine) : Machine := ⟨m.mode, m.opened ++ [openedAt], true⟩

/-- Inside a group the machine takes the same steps, if one more group may be
open. -/
theorem step_inside (openedAt : Nat) (hreal : lexeme.isReal = true)
    (hstep : m.step limit size (.ok lexeme) = .ok m') :
    (m.inside openedAt).step (limit + 1) size (.ok lexeme) = .ok (m'.inside openedAt) := by
  apply step_eq_ok_iff.mpr
  cases step_eq_ok_iff.mp hstep with
  | number htoken => exact .number htoken
  | @leftParen opened _ htoken hlt =>
    refine .leftParen htoken ?_
    simp only [List.length_append, List.length_singleton]
    omega
  | operator htoken => exact .operator htoken
  | rightParen htoken => exact .rightParen htoken
  | atEnd htoken => simp [Lexeme.isReal, htoken] at hreal

/-- A run takes place inside a group as well. -/
theorem run_inside (openedAt : Nat) (hreal : ∀ lexeme ∈ lexemes, lexeme.isReal = true)
    (hrun : m.run limit size (lexemes.map .ok) = .ok m') :
    (m.inside openedAt).run (limit + 1) size (lexemes.map .ok) = .ok (m'.inside openedAt) := by
  induction lexemes generalizing m with
  | nil =>
    cases hrun
    rfl
  | cons lexeme lexemes ih =>
    obtain ⟨m₁, hstep, hrest⟩ := run_cons_eq_ok hrun
    rw [List.map_cons, run_of_step (step_inside openedAt (hreal lexeme (by simp)) hstep)]
    exact ih (fun lexeme' hlexeme => hreal lexeme' (List.mem_cons_of_mem _ hlexeme)) hrest

/-- What is refused is refused inside a group too, unless it is left over. -/
theorem step_inside_ne_ok (openedAt : Nat) (hreal : lexeme.isReal = true)
    (hstep : m.step limit size (.ok lexeme) = .error found)
    (hfound : ∀ text position, found ≠ .trailingToken text position) (m' : Machine) :
    (m.inside openedAt).step (limit + 1) size (.ok lexeme) ≠ .ok m' := by
  intro hinside
  obtain ⟨mode, opened, started⟩ := m
  have hgoes := step_eq_ok_iff.mp hinside
  unfold inside at hgoes
  generalize hopened : opened ++ [openedAt] = all at hgoes
  cases hgoes with
  | number htoken =>
    rw [step_number htoken] at hstep
    cases hstep
  | leftParen htoken hlt =>
    rw [← hopened, List.length_append, List.length_singleton] at hlt
    rw [step_leftParen htoken (by omega)] at hstep
    cases hstep
  | operator htoken =>
    rw [step_operator htoken] at hstep
    cases hstep
  | rightParen htoken =>
    cases opened with
    | nil =>
      -- The parenthesis that closes the outer group is left over without it.
      simp only [step, read, readOperator, htoken] at hstep
      cases hstep
      exact hfound _ _ rfl
    | cons first opened =>
      rw [step_rightParen htoken] at hstep
      cases hstep
  | atEnd htoken => simp [Lexeme.isReal, htoken] at hreal

/-- Where the text may not end, a group does not end the text either. -/
theorem run_close_ne_ok (openedAt : Nat) (close : Lexeme)
    (hstep : m.step limit size (.ok (Lexeme.atEnd size)) = .error found) :
    (m.inside openedAt).run (limit + 1) size [.ok close] ≠ .ok ⟨.operator, [], true⟩ := by
  intro hclose
  obtain ⟨m₁, hclosed, hdone⟩ := run_cons_eq_ok hclose
  cases hdone
  obtain ⟨mode, opened, started⟩ := m
  have hgoes := step_eq_ok_iff.mp hclosed
  unfold inside at hgoes
  generalize hopened : opened ++ [openedAt] = all at hgoes
  cases hgoes with
  | rightParen _ =>
    -- No other group is open, so the end of the text would be accepted.
    cases opened with
    | nil => cases hstep
    | cons first opened => simp at hopened
  | number _ => simp at hopened
  | atEnd _ => simp at hopened

/-- A text that fails before it is complete fails between parentheses as well. -/
theorem run_group_ne_ok {paren : Lexeme} (hparen : paren.token = .leftParen) (close : Lexeme)
    (hreal : ∀ lexeme ∈ lexemes, lexeme.isReal = true)
    (hrun : initial.run limit size (Scan.items ⟨lexemes, none, size⟩) = .error found)
    (hfound : ∀ text position, found ≠ .trailingToken text position) :
    initial.run (limit + 1) size ((paren :: (lexemes ++ [close])).map .ok) ≠
      .ok ⟨.operator, [], true⟩ := by
  have hopen : initial.step (limit + 1) size (.ok paren) = .ok (initial.inside paren.start) :=
    step_leftParen hparen (Nat.succ_pos limit)
  rw [List.map_cons, run_of_step hopen, List.map_append]
  rcases exists_failure hrun with
    ⟨before, bad, behind, m', rfl, hbefore, hstep⟩ | ⟨m', hall, ⟨_, hfault, _⟩ | ⟨_, hstep⟩⟩
  · have hrealBefore : ∀ lexeme ∈ before, lexeme.isReal = true := fun lexeme hlexeme =>
      hreal lexeme (List.mem_append_left _ hlexeme)
    rw [List.map_append, List.append_assoc,
      run_append_of_run (run_inside paren.start hrealBefore hbefore), List.map_cons,
      List.cons_append]
    intro hrest
    obtain ⟨m₁, hinside, _⟩ := run_cons_eq_ok hrest
    exact step_inside_ne_ok paren.start (hreal bad (by simp)) hstep hfound m₁ hinside
  · cases hfault
  · rw [run_append_of_run (run_inside paren.start hreal hall)]
    exact run_close_ne_ok paren.start close hstep

end Machine

/-! ## Parsing what is composed -/

section Composed

variable {limit : Nat} {s t : String}

/-- The tokens of a parsed text, and how deep they nest. -/
theorem Settings.scans_of_parse {settings : Settings} {tree : Tree}
    (hparse : settings.parse s = .ok tree) :
    ∃ tokens, Scans s.toList tokens ∧ Derives .expression tokens tree ∧
      nestingDepth tokens ≤ settings.limit := by
  rw [settings.parse_eq_untraced] at hparse
  obtain ⟨hfault, hderives, hdeep⟩ :=
    (Cursor.faces_ofSource s settings.limit).derives_of_expression (Prod.ext hparse rfl)
  exact ⟨_, .of_scan hfault, hderives, hdeep⟩

/-- A text is parsed if its tokens are an expression that keeps to the limit. -/
theorem Settings.parse_of_scans {settings : Settings} {tree : Tree} {tokens : List Token}
    (h : Scans s.toList tokens) (hderives : Derives .expression tokens tree)
    (hdeep : nestingDepth tokens ≤ settings.limit) : settings.parse s = .ok tree := by
  obtain ⟨lexemes, hscan, rfl⟩ := h.scan_eq
  exact Settings.parse_of_derives hscan hderives hdeep

/-- Between parentheses a text is parsed into the same tree. -/
theorem Settings.parse_around {traced traced' : Bool} {a : Tree} (p : Parentheses)
    (hparse : Settings.parse ⟨traced, limit⟩ s = .ok a) :
    Settings.parse ⟨traced', limit + 1⟩ (p.around s) = .ok a := by
  obtain ⟨tokens, hscans, hderives, hdeep⟩ := Settings.scans_of_parse hparse
  apply Settings.parse_of_scans (p.scans_around hscans) (.of_factor (.group hderives))
  exact Nat.le_trans hderives.nestingDepth_group (Nat.succ_le_succ hdeep)

/-- Texts between parentheses that are joined by an operator are parsed into
their trees, joined by the operator. -/
theorem Settings.parse_joined {traced traced' : Bool} {a b : Tree} (op : Operator)
    (p q : Parentheses) (hs : Settings.parse ⟨traced, limit⟩ s = .ok a)
    (ht : Settings.parse ⟨traced, limit⟩ t = .ok b) :
    Settings.parse ⟨traced', limit + 1⟩ (p.around s ++ String.singleton op.symbol ++ q.around t) =
      .ok (.node op a b) := by
  obtain ⟨tokens, hscans, hderives, hdeep⟩ := Settings.scans_of_parse hs
  obtain ⟨tokens', hscans', hderives', hdeep'⟩ := Settings.scans_of_parse ht
  apply Settings.parse_of_scans ((p.scans_around hscans).joined op (q.scans_around hscans'))
    (hderives.joined_groups op hderives')
  have hleft := hderives.nestingDepth_group
  have hright := hderives'.nestingDepth_group
  have hchain : Derives (.chain op.precedence) (.leftParen :: (tokens ++ [.rightParen])) a :=
    .of_factor (.group hderives)
  unfold nestingDepth at hdeep hdeep' hleft hright ⊢
  rw [hchain.deepest_joined]
  simp only at hdeep hdeep' ⊢
  omega

/-- Parentheses mend no text that fails before it is complete. -/
theorem Settings.parse_around_error {traced traced' : Bool} {found : Fault} (p : Parentheses)
    (hfault : (scan s).fault = none)
    (hparse : Settings.parse ⟨traced, limit⟩ s = .error found)
    (hfound : ∀ text position, found ≠ .trailingToken text position) :
    ∃ found', Settings.parse ⟨traced', limit + 1⟩ (p.around s) = .error found' := by
  cases hgroup : Settings.parse ⟨traced', limit + 1⟩ (p.around s) with
  | error found' => exact ⟨found', rfl⟩
  | ok tree =>
    obtain ⟨tokens, hscans, hderives, hdeep⟩ := Settings.scans_of_parse hgroup
    obtain rfl := hscans.unique (p.scans_around (Scans.of_scan hfault))
    rw [Settings.parse_eq_untraced] at hparse
    have hrun := ((Cursor.faces_ofSource s limit).expression_eq_error_iff found).mp hparse
    change Machine.run _ _ _ (Scan.items ⟨_, (scan s).fault, _⟩) = _ at hrun
    rw [hfault] at hrun
    -- Only the tokens decide whether the machine accepts, so any offsets will do.
    let group : List Lexeme := ⟨.leftParen, 0, 0⟩ :: ((scan s).lexemes ++ [⟨.rightParen, 0, 0⟩])
    have htokens : group.map Lexeme.token =
        .leftParen :: ((scan s).lexemes.map Lexeme.token ++ [.rightParen]) := by
      simp [group]
    have haccepted : Machine.initial.run (limit + 1) s.utf8ByteSize (group.map .ok) =
        .ok ⟨.operator, [], true⟩ := hderives.run_phrase _ false htokens hdeep
    exact absurd haccepted (Machine.run_group_ne_ok rfl _ (scan_isReal s) hrun hfound)

/-- Parsing and evaluating are compositional. Between parentheses, and with any
blanks around the pieces, a text is parsed into its own tree, and two texts that
an operator joins are parsed into their trees, joined by the operator. The values
follow the trees. Parentheses mend no text whose tokens fail before they are a
complete expression. In each case one more group may be open at once. -/
theorem Settings.parse_composed (limit : Nat) (traced traced' : Bool) (s t : String)
    (op : Operator) (p q : Parentheses) :
    (∀ a, Settings.parse ⟨traced, limit⟩ s = .ok a →
      Settings.parse ⟨traced', limit + 1⟩ (p.around s) = .ok a ∧
      Settings.evaluate ⟨traced', limit + 1⟩ (p.around s) = .ok a.evaluate) ∧
    (∀ a b, Settings.parse ⟨traced, limit⟩ s = .ok a →
      Settings.parse ⟨traced, limit⟩ t = .ok b →
      Settings.parse ⟨traced', limit + 1⟩
          (p.around s ++ String.singleton op.symbol ++ q.around t) = .ok (.node op a b) ∧
      Settings.evaluate ⟨traced', limit + 1⟩
          (p.around s ++ String.singleton op.symbol ++ q.around t) =
        .ok (op.apply a.evaluate b.evaluate)) ∧
    ∀ found, (scan s).fault = none → Settings.parse ⟨traced, limit⟩ s = .error found →
      (∀ text position, found ≠ .trailingToken text position) →
      ∃ found', Settings.parse ⟨traced', limit + 1⟩ (p.around s) = .error found' := by
  refine ⟨?_, ?_, fun _ => Settings.parse_around_error p⟩
  · intro a hs
    have hparse : Settings.parse ⟨traced', limit + 1⟩ (p.around s) = .ok a :=
      Settings.parse_around p hs
    refine ⟨hparse, ?_⟩
    rw [Settings.evaluate, hparse]
    rfl
  · intro a b hs ht
    have hparse : Settings.parse ⟨traced', limit + 1⟩
        (p.around s ++ String.singleton op.symbol ++ q.around t) = .ok (.node op a b) :=
      Settings.parse_joined op p q hs ht
    refine ⟨hparse, ?_⟩
    rw [Settings.evaluate, hparse, ← Tree.evaluate_node]
    rfl

/-- Numbers that need no group become the operands of a product of two groups, and
a sum that lacks an operand lacks it between parentheses too. -/
theorem Settings.parse_composed_product :
    Settings.parse ⟨false, 0⟩ "1" = .ok (.leaf 1) ∧ Settings.parse ⟨false, 0⟩ "2" = .ok (.leaf 2) ∧
      Settings.parse ⟨false, 1⟩ " ( 1 ) * ( 2 ) " = .ok (.node .multiply (.leaf 1) (.leaf 2)) ∧
      Settings.parse ⟨false, 0⟩ "1+" = .error (.unexpectedEnd "operand" 2) ∧
      ∃ found, Settings.parse ⟨false, 1⟩ " ( 1+ ) " = .error found := by
  have hblank : AllBlank " ".toList := by simp [AllBlank, isBlank]
  let p : Parentheses := ⟨⟨" ", hblank⟩, ⟨" ", hblank⟩, ⟨" ", hblank⟩, ⟨" ", hblank⟩⟩
  have hone : scan "1" = ⟨[⟨.number 1, 0, 1⟩], none, 1⟩ := by decide +kernel
  have htwo : scan "2" = ⟨[⟨.number 2, 0, 1⟩], none, 1⟩ := by decide +kernel
  have hsum : scan "1+" = ⟨[⟨.number 1, 0, 1⟩, ⟨.operator .add, 1, 2⟩], none, 2⟩ := by
    decide +kernel
  have hleft : Settings.parse ⟨false, 0⟩ "1" = .ok (.leaf 1) :=
    Settings.parse_of_derives hone (.of_factor (.number 1)) (by decide)
  have hright : Settings.parse ⟨false, 0⟩ "2" = .ok (.leaf 2) :=
    Settings.parse_of_derives htwo (.of_factor (.number 2)) (by decide)
  have hlacks : Settings.parse ⟨false, 0⟩ "1+" = .error (.unexpectedEnd "operand" 2) :=
    Settings.parse_error_of_run hsum rfl
  have hproduct :=
    (Settings.parse_composed 0 false false "1" "2" .multiply p p).2.1 _ _ hleft hright
  have hgroup := (Settings.parse_composed 0 false false "1+" "2" .multiply p p).2.2 _
    (by rw [hsum]) hlacks (by simp)
  exact ⟨hleft, hright, hproduct.1, hlacks, hgroup⟩

end Composed

end Calculator
