import Calculator.Proofs.Derivation

/-!
# Traces go through derivations

A rule that succeeds with an enabled tracer has gone through a derivation from
the left: what it records are the records of the derivation. With tracing every
rule ends with a look at the lexeme behind it, so each stretch of a trace ends
with a known lexeme ahead, which is where the next stretch begins.
-/

namespace Calculator

/-! ## Extending a trace -/

/-- The enabled tracer with more records and another depth. -/
def Tracer.extended (tracer : Tracer) (depth : Nat) (records : List Record) : Tracer :=
  { enabled := true, depth, records := tracer.records ++ records.toArray }

namespace Tracer

variable {tracer : Tracer}

/-- Two extensions in a row are one. -/
theorem extended_extended (depth depth' : Nat) (records records' : List Record) :
    (tracer.extended depth records).extended depth' records' =
      tracer.extended depth' (records ++ records') := by
  simp [extended]

/-- Entering a rule adds a record and opens the rule. -/
theorem enter_eq_extended (henabled : tracer.enabled = true) (rule : String) (ahead : Lexeme) :
    tracer.enter rule ahead =
      tracer.extended (tracer.depth + 1) [⟨tracer.depth, .enter rule ahead⟩] := by
  simp [enter, extended, henabled]

/-- Leaving a rule closes the rule and adds a record. -/
theorem exit_eq_extended (henabled : tracer.enabled = true) (rule : String) (ahead : Lexeme) :
    tracer.exit rule ahead =
      tracer.extended (tracer.depth - 1) [⟨tracer.depth - 1, .exit rule ahead⟩] := by
  simp [exit, extended, henabled]

/-- Consuming a lexeme adds a record. -/
theorem consume_eq_extended (henabled : tracer.enabled = true) (lexeme : Lexeme) :
    tracer.consume lexeme = tracer.extended tracer.depth [⟨tracer.depth, .consume lexeme⟩] := by
  simp [consume, extended, henabled]

end Tracer

/-! ## Stretches of a trace -/

namespace Cursor

/-- A lexeme that is consumed behind a look is recorded. -/
theorem tracer_of_consume {s s₁ : Cursor} {ahead : Lexeme} (hpeek : s.peek = (.ok ahead, s₁))
    (henabled : s.tracer.enabled = true) :
    (s₁.consume ahead).tracer =
      s.tracer.extended s.tracer.depth [⟨s.tracer.depth, .consume ahead⟩] := by
  rw [← Tracer.consume_eq_extended henabled, ← tracer_of_peek hpeek]
  rfl

/-- Consuming a lexeme leaves the tracer enabled. -/
theorem enabled_of_consume {s s₁ : Cursor} {ahead : Lexeme} (hpeek : s.peek = (.ok ahead, s₁))
    (henabled : s.tracer.enabled = true) : (s₁.consume ahead).tracer.enabled = true := by
  rw [tracer_of_consume hpeek henabled]
  rfl

/-- Consuming a lexeme opens and closes no rule. -/
theorem depth_of_consume {s s₁ : Cursor} {ahead : Lexeme} (hpeek : s.peek = (.ok ahead, s₁))
    (henabled : s.tracer.enabled = true) : (s₁.consume ahead).tracer.depth = s.tracer.depth := by
  rw [tracer_of_consume hpeek henabled]
  rfl

/-- The cursor with another number of open groups. -/
def withNesting (s : Cursor) (nesting : Nat) : Cursor := { s with nesting }

/-- What a look finds does not depend on the open groups. -/
theorem peek_withNesting (s : Cursor) (nesting : Nat) :
    (s.withNesting nesting).peek.1 = s.peek.1 := by
  obtain ⟨_ | ahead, _ | ⟨ahead', rest⟩, _ | cause, size, nesting', limit, tracer⟩ := s <;> rfl

/-- From one cursor to the other the records were made, which go through the
lexemes, and now `next` is ahead and `depth` rules are open. -/
structure Stretch (s s' : Cursor) (lexemes : List Lexeme) (next : Lexeme) (depth : Nat)
    (records : List Record) : Prop where
  /-- The first lexeme was ahead. -/
  first : s.peek.1 = .ok (lexemes.headD next)
  /-- The next lexeme has been looked at. -/
  next_eq : s'.lookahead = some next
  /-- The records were made. -/
  tracer_eq : s'.tracer = s.tracer.extended depth records

namespace Stretch

variable {s s₁ s₂ s' : Cursor} {lexemes more : List Lexeme} {ahead next : Lexeme}
  {depth depth' : Nat} {records records' : List Record}

/-- A look finds what has been looked at. -/
theorem peek_of_lookahead (hlookahead : s.lookahead = some ahead) : s.peek = (.ok ahead, s) := by
  unfold peek
  rw [hlookahead]

/-- Behind a stretch the tracer is enabled. -/
theorem enabled (h : s.Stretch s' lexemes next depth records) : s'.tracer.enabled = true := by
  rw [h.tracer_eq]
  rfl

/-- The rules that are open behind a stretch are counted. -/
theorem depth_eq (h : s.Stretch s' lexemes next depth records) : s'.tracer.depth = depth := by
  rw [h.tracer_eq]
  rfl

/-- The next stretch begins with the lexeme that is ahead. -/
theorem next_eq_headD (h : s.Stretch s₁ lexemes ahead depth records)
    (h' : s₁.Stretch s₂ more next depth' records') : ahead = more.headD next := by
  have hfirst := h'.first
  rw [peek_of_lookahead h.next_eq] at hfirst
  cases hfirst
  rfl

/-- Two stretches in a row are one. -/
theorem trans (h : s.Stretch s₁ lexemes ahead depth records)
    (h' : s₁.Stretch s₂ more next depth' records') :
    s.Stretch s₂ (lexemes ++ more) next depth' (records ++ records') where
  first := by
    have hfirst := h.first
    rw [h.next_eq_headD h'] at hfirst
    cases lexemes with
    | nil => exact hfirst
    | cons lexeme lexemes => exact hfirst
  next_eq := h'.next_eq
  tracer_eq := by rw [h'.tracer_eq, h.tracer_eq, Tracer.extended_extended]

/-- A stretch begins as well at a cursor that differs in the open groups only. -/
theorem of_withNesting {nesting : Nat}
    (h : (s.withNesting nesting).Stretch s' lexemes next depth records) :
    s.Stretch s' lexemes next depth records :=
  ⟨(s.peek_withNesting nesting).symm.trans h.first, h.next_eq, h.tracer_eq⟩

/-- A stretch may begin with a look ahead. -/
theorem of_peek (hpeek : s.peek = (.ok ahead, s₁))
    (h : s₁.Stretch s' lexemes next depth records) :
    s.Stretch s' lexemes next depth records where
  first := by rw [← h.first, peek_of_peek hpeek, hpeek]
  next_eq := h.next_eq
  tracer_eq := by rw [h.tracer_eq, tracer_of_peek hpeek]

/-- A stretch may begin with the consumption of a lexeme. -/
theorem of_consume (hpeek : s.peek = (.ok ahead, s₁)) (henabled : s.tracer.enabled = true)
    (h : (s₁.consume ahead).Stretch s' lexemes next depth records) :
    s.Stretch s' (ahead :: lexemes) next depth
      (⟨s.tracer.depth, .consume ahead⟩ :: records) where
  first := by
    rw [hpeek]
    rfl
  next_eq := h.next_eq
  tracer_eq := by
    rw [h.tracer_eq, tracer_of_consume hpeek henabled, Tracer.extended_extended]
    rfl

/-- A rule that is entered makes a stretch. -/
theorem of_enter {rule : String} (henabled : s.tracer.enabled = true)
    (henter : s.enter rule = (.ok (), s₁)) :
    ∃ ahead, s.Stretch s₁ [] ahead (s.tracer.depth + 1)
      [⟨s.tracer.depth, .enter rule ahead⟩] := by
  rw [enter_of_enabled henabled] at henter
  obtain ⟨ahead, s₂, hpeek, hnote⟩ := andThen_eq_ok henter
  cases hnote
  have hlookahead := lookahead_of_peek hpeek
  refine ⟨ahead, ?_, hlookahead, ?_⟩
  · rw [hpeek]
    rfl
  · change s₂.tracer.enter rule ahead = _
    rw [tracer_of_peek hpeek, Tracer.enter_eq_extended henabled]

/-- A rule that is left makes a stretch, and hands over its tree. -/
theorem of_leave {rule : String} {tree tree' : Tree} (henabled : s.tracer.enabled = true)
    (hleave : s.leave rule tree = (.ok tree', s')) :
    tree = tree' ∧ ∃ ahead, s.Stretch s' [] ahead (s.tracer.depth - 1)
      [⟨s.tracer.depth - 1, .exit rule ahead⟩] := by
  obtain ⟨_, s₁, hexit, hhand⟩ := andThen_eq_ok hleave
  cases hhand
  rw [exit, if_pos henabled] at hexit
  obtain ⟨ahead, s₂, hpeek, hnote⟩ := andThen_eq_ok hexit
  cases hnote
  have hlookahead := lookahead_of_peek hpeek
  refine ⟨rfl, ahead, ?_, hlookahead, ?_⟩
  · rw [hpeek]
    rfl
  · change s₂.tracer.exit rule ahead = _
    rw [tracer_of_peek hpeek, Tracer.exit_eq_extended henabled]

end Stretch

/-! ## Rules -/

/-- Between two cursors a phrase was read by going through a derivation of it. -/
def Linearises (s s' : Cursor) (category : Category) (tree : Tree) : Prop :=
  s.tracer.enabled = true → ∃ (d : Derivation (.phrase category)) (next : Lexeme),
    d.meaning = tree ∧
      s.Stretch s' d.lexemes next s.tracer.depth (d.records s.tracer.depth next)

/-- Between two cursors the rest of a chain was read by going through a
derivation of it, and the chain was left. -/
def LinearisesRest (s s' : Cursor) (p : Precedence) (left tree : Tree) : Prop :=
  s.tracer.enabled = true → ∃ (d : Derivation (.tail p)) (next : Lexeme),
    d.meaning left = tree ∧
      s.Stretch s' d.lexemes next (s.tracer.depth - 1)
        (d.records s.tracer.depth next ++ [⟨s.tracer.depth - 1, .exit p.rule next⟩])

/-- A chain goes through its operand and its tail. -/
theorem linearises_chain {s s₁ s₂ s' : Cursor} {p : Precedence} {left tree : Tree}
    (henter : s.enter p.rule = (.ok (), s₁)) (hleft : s₁.Linearises s₂ p.operands left)
    (hrest : s₂.LinearisesRest s' p left tree) : s.Linearises s' (.chain p) tree := by
  intro henabled
  obtain ⟨ahead, hentered⟩ := Stretch.of_enter henabled henter
  obtain ⟨first, ahead₁, rfl, hfirst⟩ := hleft hentered.enabled
  obtain ⟨tail, next, rfl, htail⟩ := hrest hfirst.enabled
  rw [hentered.depth_eq] at hfirst
  rw [hfirst.depth_eq, Nat.add_sub_cancel] at htail
  have hinside := hfirst.trans htail
  refine ⟨.chain first tail, next, rfl, ?_⟩
  -- The lexemes looked at on the way are the first ones of what comes next.
  have hahead := hentered.next_eq_headD hinside
  have hnext := hfirst.next_eq_headD htail
  subst hahead hnext
  have hwhole := hentered.trans hinside
  rw [← List.append_assoc (first.records _ _)] at hwhole
  exact hwhole

/-- The rest of a chain that is left has an empty tail. -/
theorem linearisesRest_stop {s s₁ s' : Cursor} {p : Precedence} {ahead : Lexeme} {left tree : Tree}
    (hpeek : s.peek = (.ok ahead, s₁)) (hleave : s₁.leave p.rule left = (.ok tree, s')) :
    s.LinearisesRest s' p left tree := by
  intro henabled
  have htracer := tracer_of_peek hpeek
  obtain ⟨rfl, next, hleft⟩ := Stretch.of_leave (by rw [htracer, henabled]) hleave
  rw [htracer] at hleft
  exact ⟨.stop, next, rfl, hleft.of_peek hpeek⟩

/-- The rest of a chain goes through an operator, an operand and a tail. -/
theorem linearisesRest_more {s s₁ s₂ s' : Cursor} {p : Precedence} {op : Operator} {ahead : Lexeme}
    {left right tree : Tree} (hpeek : s.peek = (.ok ahead, s₁))
    (hop : ahead.token.operator? = some op) (hprecedence : op.precedence = p)
    (hright : (s₁.consume ahead).Linearises s₂ p.operands right)
    (hrest : s₂.LinearisesRest s' p (.node op left right) tree) :
    s.LinearisesRest s' p left tree := by
  intro henabled
  obtain ⟨operand, ahead₁, rfl, hoperand⟩ := hright (enabled_of_consume hpeek henabled)
  obtain ⟨tail, next, rfl, htail⟩ := hrest hoperand.enabled
  rw [depth_of_consume hpeek henabled] at hoperand
  rw [hoperand.depth_eq] at htail
  have hnext := hoperand.next_eq_headD htail
  subst hnext
  have htoken := Token.eq_operator_of_operator? hop
  refine ⟨.more ahead op htoken hprecedence operand tail, next, rfl, ?_⟩
  have hwhole := (hoperand.trans htail).of_consume hpeek henabled
  rw [← List.append_assoc (operand.records _ _)] at hwhole
  exact hwhole

/-- A factor goes through what lies between entering and leaving it. -/
theorem Stretch.factor {s s₁ s' : Cursor} {ahead next : Lexeme} {lexemes : List Lexeme}
    {inside : List Record}
    (hentered : s.Stretch s₁ [] ahead (s.tracer.depth + 1)
      [⟨s.tracer.depth, .enter factorRule ahead⟩])
    (hinside : s₁.Stretch s' lexemes next s.tracer.depth
      (inside ++ [⟨s.tracer.depth, .exit factorRule next⟩])) :
    s.Stretch s' lexemes next s.tracer.depth
      (nodeRecords factorRule s.tracer.depth lexemes next inside) := by
  have hahead := hentered.next_eq_headD hinside
  subst hahead
  exact hentered.trans hinside

/-- A lexeme is consumed and the factor that it ends is left. It may close a
group. -/
theorem Stretch.of_last {s s₁ s' : Cursor} {ahead : Lexeme} {tree tree' : Tree}
    {depth nesting : Nat} (hpeek : s.peek = (.ok ahead, s₁))
    (henabled : s.tracer.enabled = true) (hdepth : s.tracer.depth = depth + 1)
    (hleave : ((s₁.consume ahead).withNesting nesting).leave factorRule tree = (.ok tree', s')) :
    tree = tree' ∧ ∃ next, s.Stretch s' [ahead] next depth
      ([⟨depth + 1, .consume ahead⟩] ++ [⟨depth, .exit factorRule next⟩]) := by
  have henabled₁ : ((s₁.consume ahead).withNesting nesting).tracer.enabled = true :=
    enabled_of_consume hpeek henabled
  have hdepth₁ : ((s₁.consume ahead).withNesting nesting).tracer.depth = depth + 1 :=
    (depth_of_consume hpeek henabled).trans hdepth
  obtain ⟨rfl, next, hleft⟩ := Stretch.of_leave henabled₁ hleave
  have hleft := hleft.of_withNesting
  rw [hdepth₁, Nat.add_sub_cancel] at hleft
  have hlast := hleft.of_consume hpeek henabled
  rw [hdepth] at hlast
  exact ⟨rfl, next, hlast⟩

/-- A factor goes through its number. -/
theorem linearises_number {s s₁ s₂ s' : Cursor} {ahead : Lexeme} {value : Float} {tree : Tree}
    (henter : s.enter factorRule = (.ok (), s₁)) (hpeek : s₁.peek = (.ok ahead, s₂))
    (htoken : ahead.token = .number value)
    (hleave : (s₂.consume ahead).leave factorRule (.leaf value) = (.ok tree, s')) :
    s.Linearises s' .factor tree := by
  intro henabled
  obtain ⟨_, hentered⟩ := Stretch.of_enter henabled henter
  have hleave : ((s₂.consume ahead).withNesting s₂.nesting).leave factorRule (.leaf value) =
      (.ok tree, s') := hleave
  obtain ⟨rfl, next, hlast⟩ :=
    Stretch.of_last hpeek hentered.enabled hentered.depth_eq hleave
  exact ⟨.number ahead value htoken, next, rfl, hentered.factor hlast⟩

/-- A factor goes through the group between its parentheses. -/
theorem linearises_group {s s₁ s₂ s₃ s' : Cursor} {ahead : Lexeme} {tree tree' : Tree}
    (henter : s.enter factorRule = (.ok (), s₁)) (hpeek : s₁.peek = (.ok ahead, s₂))
    (htoken : ahead.token = .leftParen)
    (hgroup : (s₂.consume ahead).group ahead.start = (.ok tree, s₃))
    (hleave : s₃.leave factorRule tree = (.ok tree', s'))
    (hinner : ∀ s₄ inner s₅, (s₂.consume ahead).openGroup ahead.start = (.ok (), s₄) →
      s₄.chain .additive = (.ok inner, s₅) → s₄.Linearises s₅ .expression inner) :
    s.Linearises s' .factor tree' := by
  intro henabled
  obtain ⟨_, hentered⟩ := Stretch.of_enter henabled henter
  obtain ⟨_, s₄, hopen, hinside⟩ := andThen_eq_ok hgroup
  obtain ⟨inner, s₅, hchain, hclose⟩ := andThen_eq_ok hinside
  obtain ⟨close, s₆, hpeek₅, hright, rfl, rfl⟩ := close_eq_ok hclose
  have hopened : s₄ = (s₂.consume ahead).withNesting (s₂.nesting + 1) := eq_of_openGroup hopen
  have henabled₄ : s₄.tracer.enabled = true := by
    rw [hopened]
    exact enabled_of_consume hpeek hentered.enabled
  have hdepth₄ : s₄.tracer.depth = s.tracer.depth + 1 := by
    rw [hopened]
    exact (depth_of_consume hpeek hentered.enabled).trans hentered.depth_eq
  obtain ⟨d, ahead₁, rfl, hread⟩ := hinner s₄ inner s₅ hopen hchain henabled₄
  rw [hdepth₄] at hread
  have hleave : ((s₆.consume close).withNesting (s₆.nesting - 1)).leave factorRule d.meaning =
      (.ok tree', s') := hleave
  obtain ⟨rfl, next, hlast⟩ := Stretch.of_last hpeek₅ hread.enabled hread.depth_eq hleave
  have hclosed : ahead₁ = close := hread.next_eq_headD hlast
  subst hclosed
  refine ⟨.group ahead d ahead₁ htoken hright, next, rfl, ?_⟩
  have hbehind := hread.trans hlast
  rw [hopened] at hbehind
  have hinside := hbehind.of_withNesting.of_consume hpeek hentered.enabled
  rw [hentered.depth_eq, ← List.append_assoc, ← List.cons_append] at hinside
  exact hentered.factor hinside

/-- Every rule that succeeds with an enabled tracer goes through a derivation of
what it has read. -/
theorem rules_linearise :
    (∀ p s tree s', Cursor.chain s p = (.ok tree, s') → s.Linearises s' (.chain p) tree) ∧
    (∀ p s tree s', Cursor.operand s p = (.ok tree, s') → s.Linearises s' p.operands tree) ∧
    (∀ p left s tree s', Cursor.chainRest s p left = (.ok tree, s') →
      s.LinearisesRest s' p left tree) ∧
    ∀ s tree s', Cursor.factor s = (.ok tree, s') → s.Linearises s' .factor tree := by
  apply descent_induction
  · intro p s ih tree s' hchain
    rw [chain_eq] at hchain
    obtain ⟨_, s₁, henter, hinside⟩ := andThen_eq_ok hchain
    obtain ⟨left, s₂, hleft, hrest⟩ := andThen_eq_ok hinside
    obtain ⟨ihleft, ihrest⟩ := ih s₁ henter
    exact linearises_chain henter (ihleft left s₂ hleft) (ihrest left s₂ hleft tree s' hrest)
  · intro s ih tree s' hoperand
    rw [operand_additive] at hoperand
    exact ih tree s' hoperand
  · intro s ih tree s' hoperand
    rw [operand_multiplicative] at hoperand
    exact ih tree s' hoperand
  · intro p left s ih tree s' hrest
    rw [chainRest_eq_chainRestAt] at hrest
    obtain ⟨ahead, s₁, hpeek, hnext⟩ := andThen_eq_ok hrest
    rcases ahead.stops_or_goesOn p with hstop | ⟨op, hop, hprecedence⟩
    · rw [chainRestAt_of_stop hstop] at hnext
      exact linearisesRest_stop hpeek hnext
    · rw [chainRestAt_of_operator hop hprecedence] at hnext
      obtain ⟨right, s₂, hright, hmore⟩ := andThen_eq_ok hnext
      obtain ⟨ihright, ihmore⟩ := ih ahead s₁ op hpeek hop hprecedence
      exact linearisesRest_more hpeek hop hprecedence (ihright right s₂ hright)
        (ihmore right s₂ hright tree s' hmore)
  · intro s ih tree s' hfactor
    rw [factor_eq_factorAt] at hfactor
    obtain ⟨_, s₁, henter, hinside⟩ := andThen_eq_ok hfactor
    obtain ⟨ahead, s₂, hpeek, hnext⟩ := andThen_eq_ok hinside
    unfold factorAt at hnext
    cases htoken : ahead.token with
    | number value =>
      simp only [htoken] at hnext
      exact linearises_number henter hpeek htoken hnext
    | leftParen =>
      simp only [htoken] at hnext
      obtain ⟨inner, s₃, hgroup, hleave⟩ := andThen_eq_ok hnext
      exact linearises_group henter hpeek htoken hgroup hleave fun s₄ inner s₅ hopen =>
        ih s₁ ahead s₂ s₄ henter hpeek htoken hopen inner s₅
    | operator op => simp [htoken] at hnext
    | rightParen => simp [htoken] at hnext
    | endOfInput => simp [htoken] at hnext

end Cursor

end Calculator
