import Calculator.Proofs.Ahead
import Calculator.Proofs.FlatMachine

/-!
# The rules read the longest phrases

From every point of a text, the rule of a category succeeds if and only if a phrase
of the category stands ahead that keeps to what is left of the limit and is followed
by something that does not continue it. The rule then consumes exactly this phrase.
It is the longest one ahead: where a longer one begins in the same way, its next
token continues the shorter one.
-/

namespace Calculator

/-! ## Reading a category -/

/-- Reads a phrase of a category by its rule. -/
def Category.read : Category → Cursor → Reading
  | .chain p, s => s.chain p
  | .factor, s => s.factor

/-- The tokens that continue a phrase of a category. Nothing continues a factor, a term
goes on with the operators of products, and an expression with any operator. -/
def Category.continuing : Category → List Token
  | .factor => []
  | .chain .multiplicative => [.operator .multiply, .operator .divide]
  | .chain .additive =>
    [.operator .add, .operator .subtract, .operator .multiply, .operator .divide]

/-- What may follow a phrase that was read. A chain has looked at the next token and
met no unrecognized character there. -/
def Category.StopsBefore : Category → List (Except Unrecognized Lexeme) → Prop
  | .factor, _ => True
  | .chain p, items => ∃ next rest, items = .ok next :: rest ∧
      next.token ∉ (Category.chain p).continuing

namespace Category

variable {category : Category} {lexemes more : List Lexeme} {fault : Option Unrecognized}
  {size : Nat}

/-- A token continues a chain if it is an operator that binds as tightly as those of the
chain or tighter. -/
theorem notMem_continuing_iff (p : Precedence) (token : Token) :
    token ∉ (Category.chain p).continuing ↔
      ∀ op, token.operator? = some op → op.precedence = .additive ∧ p = .multiplicative := by
  cases token with
  | operator op =>
    cases p <;> cases op <;> simp [continuing, Token.operator?, Operator.precedence]
  | number value => cases p <;> simp [continuing, Token.operator?]
  | leftParen => cases p <;> simp [continuing, Token.operator?]
  | rightParen => cases p <;> simp [continuing, Token.operator?]
  | endOfInput => cases p <;> simp [continuing, Token.operator?]

/-- A phrase ends where the items ahead may follow it. -/
theorem ends_iff_stopsBefore (category : Category) (ahead : Scan) :
    category.Ends ahead ↔ category.StopsBefore ahead.items := by
  obtain ⟨lexemes, fault, size⟩ := ahead
  cases category with
  | factor => exact Iff.rfl
  | chain p =>
    cases lexemes with
    | cons lexeme lexemes =>
      rw [Scan.items_cons]
      constructor
      · intro hends
        exact ⟨lexeme, _, rfl, (notMem_continuing_iff p lexeme.token).mpr hends⟩
      · rintro ⟨next, rest, hitems, hnext⟩
        cases hitems
        exact (notMem_continuing_iff p lexeme.token).mp hnext
    | nil =>
      cases fault with
      | none =>
        refine ⟨fun _ => ⟨Lexeme.atEnd size, [], rfl, ?_⟩, fun _ => rfl⟩
        rw [notMem_continuing_iff]
        rintro op ⟨⟩
      | some unrecognized =>
        constructor
        · rintro ⟨⟩
        · rintro ⟨next, rest, hitems, _⟩
          cases hitems

/-- Where a chain ends, its last operand does. -/
theorem Ends.operands {p : Precedence} {ahead : Scan} (h : (Category.chain p).Ends ahead) :
    p.operands.Ends ahead := by
  obtain ⟨lexemes, fault, size⟩ := ahead
  cases p with
  | multiplicative => trivial
  | additive =>
    cases lexemes with
    | nil => exact h
    | cons lexeme lexemes =>
      intro op hop
      cases (h op hop).2

/-- Whether a phrase ends is decided by the first lexeme behind it. -/
theorem Ends.of_append (h : category.Ends ⟨lexemes ++ more, fault, size⟩) (size' : Nat) :
    category.Ends ⟨lexemes, none, size'⟩ := by
  cases category with
  | factor => trivial
  | chain p =>
    cases lexemes with
    | nil => rfl
    | cons lexeme lexemes => exact h

end Category

/-! ## Phrases that stand ahead -/

/-- A phrase is as much deeper as groups are open in front of it. -/
theorem Derives.deepest_add {category : Category} {tokens : List Token} {tree : Tree}
    (h : Derives category tokens tree) (opened more : Nat) :
    deepest (opened + more) tokens = deepest opened tokens + more := by
  induction h generalizing opened with
  | single _ ih => exact ih opened
  | joined hleft _ _ ihleft ihright =>
    rw [hleft.deepest_joined, hleft.deepest_joined, ihleft, ihright]
    omega
  | number value => rfl
  | group hinner ih =>
    rw [hinner.deepest_group, hinner.deepest_group, Nat.add_right_comm]
    exact ih (opened + 1)

/-- A phrase keeps to the limit if it keeps to what the open groups leave of it. -/
theorem Derives.nestingDepth_le_iff {category : Category} {tokens : List Token} {tree : Tree}
    (h : Derives category tokens tree) {nesting limit : Nat} (hle : nesting ≤ limit) :
    nestingDepth tokens ≤ limit - nesting ↔ deepest nesting tokens ≤ limit := by
  have hdeep := h.deepest_add 0 nesting
  rw [Nat.zero_add] at hdeep
  unfold nestingDepth
  omega

namespace Cursor.Faces

variable {s : Cursor} {category : Category} {tree : Tree} {phrase lexemes rest : List Lexeme}
  {fault : Option Unrecognized} {size nesting limit : Nat}

/-- A rule that succeeds has read a phrase of its category. -/
theorem derives_of_read {s' : Cursor} (h : s.Faces ⟨lexemes, fault, size⟩ nesting limit)
    (hread : category.read s = (.ok tree, s')) :
    ∃ phrase rest, lexemes = phrase ++ rest ∧
      Derives category (phrase.map Lexeme.token) tree ∧
      deepest nesting (phrase.map Lexeme.token) ≤ limit ∧
      s'.Faces ⟨rest, fault, size⟩ nesting limit ∧ category.Ends ⟨rest, fault, size⟩ := by
  cases category with
  | chain p => exact rules_sound.1 p s tree s' hread h
  | factor => exact rules_sound.2.2.2 s tree s' hread h

/-- A phrase that stands ahead and ends there is read by the rule of its category. -/
theorem read_of_derives (h : s.Faces ⟨phrase ++ rest, fault, size⟩ nesting limit)
    (hderives : Derives category (phrase.map Lexeme.token) tree)
    (hdeep : deepest nesting (phrase.map Lexeme.token) ≤ limit)
    (hends : category.Ends ⟨rest, fault, size⟩) :
    ∃ s', category.read s = (.ok tree, s') ∧ s'.Faces ⟨rest, fault, size⟩ nesting limit := by
  cases category with
  | factor => exact hderives.readsTo rfl h hdeep trivial
  | chain p =>
    obtain ⟨s₁, hreads, hfaces₁⟩ := hderives.readsTo rfl h hdeep hends.operands
    obtain ⟨s', hrest, hfaces'⟩ := hfaces₁.chainRest_of_ends hends tree
    exact ⟨s', Eq.trans hreads hrest, hfaces'⟩

end Cursor.Faces

/-- A phrase that begins with another one of its category and goes on behind it goes on
with a token that continues the shorter one. -/
theorem Derives.eq_nil_of_ends {category : Category} {phrase more : List Lexeme}
    {tree tree' : Tree} {size : Nat} (h : Derives category (phrase.map Lexeme.token) tree)
    (h' : Derives category ((phrase ++ more).map Lexeme.token) tree')
    (hends : category.Ends ⟨more, none, size⟩) : more = [] := by
  -- Both phrases stand ahead of one cursor, whose rule reads only one of them.
  let limit := deepest 0 ((phrase ++ more).map Lexeme.token)
  have hfaces : (Cursor.ofLexemes (phrase ++ more) size limit).Faces
      ⟨phrase ++ more, none, size⟩ 0 limit :=
    Cursor.faces_ofLexemes size limit (isReal_of_map_token h'.ne_endOfInput)
  have hdeep : deepest 0 (phrase.map Lexeme.token) ≤ limit := by
    simp only [limit, List.map_append]
    rw [h.deepest_append]
    exact Nat.le_max_left _ _
  obtain ⟨s₁, hread, hfaces₁⟩ := hfaces.read_of_derives h hdeep hends
  have hall : (Cursor.ofLexemes (phrase ++ more) size limit).Faces
      ⟨(phrase ++ more) ++ [], none, size⟩ 0 limit := by
    rw [List.append_nil]
    exact hfaces
  have hempty : category.Ends ⟨[], none, size⟩ := by
    rw [← List.nil_append more] at hends
    exact hends.of_append size
  obtain ⟨s₂, hread', hfaces₂⟩ := hall.read_of_derives h' (Nat.le_refl limit) hempty
  rw [hread] at hread'
  cases hread'
  have hsame := hfaces₁.ready.2.symm.trans hfaces₂.ready.2
  exact congrArg Scan.lexemes hsame

/-- The lexemes of a phrase at the front of what a scan delivers are its first ones. -/
theorem Derives.exists_rest {category : Category} {phrase : List Lexeme} {tree : Tree}
    (h : Derives category (phrase.map Lexeme.token) tree) {ahead : Scan}
    {items : List (Except Unrecognized Lexeme)} (hitems : ahead.items = phrase.map .ok ++ items) :
    ∃ rest, ahead.lexemes = phrase ++ rest ∧
      items = Scan.items ⟨rest, ahead.fault, ahead.size⟩ := by
  obtain ⟨lexemes, fault, size⟩ := ahead
  have hsplit :
      lexemes.map Except.ok ++ Scan.items ⟨[], fault, size⟩ = phrase.map .ok ++ items := by
    rw [← hitems, ← Scan.items_append, List.append_nil]
  rcases List.append_eq_append_iff.mp hsplit with ⟨extra, hphrase, hend⟩ | ⟨rest, hlexemes, hrest⟩
  · obtain ⟨before, behind, rfl, hbefore, rfl⟩ := List.map_eq_append_iff.mp hphrase
    obtain rfl : before = lexemes := (List.map_inj_right fun _ _ => Except.ok.inj).mp hbefore
    cases behind with
    | nil => exact ⟨[], by simp, by simpa using hend.symm⟩
    | cons lexeme behind =>
      -- The last item is an unrecognized character or the end of the input.
      cases fault with
      | some unrecognized => cases (List.cons.inj hend).1
      | none =>
        obtain rfl : Lexeme.atEnd size = lexeme := Except.ok.inj (List.cons.inj hend).1
        have hmem : Token.endOfInput ∈ (before ++ Lexeme.atEnd size :: behind).map Lexeme.token :=
          List.mem_map.mpr ⟨Lexeme.atEnd size, by simp, rfl⟩
        exact absurd rfl (h.ne_endOfInput _ hmem)
  · obtain ⟨before, behind, rfl, hbefore, rfl⟩ := List.map_eq_append_iff.mp hlexemes
    obtain rfl : before = phrase := (List.map_inj_right fun _ _ => Except.ok.inj).mp hbefore
    exact ⟨behind, rfl, hrest⟩

/-! ## The rules -/

namespace Cursor

variable {s : Cursor} {category : Category} {tree : Tree}

/-- The rule of a category reads exactly the phrases ahead that keep to the limit and
are not continued. -/
theorem Ready.read_iff (h : s.Ready) (items : List (Except Unrecognized Lexeme)) :
    (∃ s', category.read s = (.ok tree, s') ∧ s'.items = items) ↔
      ∃ phrase : List Lexeme, s.items = phrase.map .ok ++ items ∧
        Derives category (phrase.map Lexeme.token) tree ∧
        nestingDepth (phrase.map Lexeme.token) ≤ s.limit - s.nesting ∧
        category.StopsBefore items := by
  constructor
  · rintro ⟨s', hread, rfl⟩
    obtain ⟨phrase, rest, hlexemes, hderives, hdeep, hfaces', hends⟩ :=
      h.faces.derives_of_read hread
    have hitems' : s'.items = Scan.items ⟨rest, s.fault, s.size⟩ :=
      congrArg Scan.items hfaces'.ready.2
    refine ⟨phrase, ?_, hderives, (hderives.nestingDepth_le_iff h.nesting_le).mpr hdeep, ?_⟩
    · rw [hitems', ← Scan.items_append, ← hlexemes]
      rfl
    · rw [hitems', ← Category.ends_iff_stopsBefore]
      exact hends
  · rintro ⟨phrase, hitems, hderives, hdeep, hstops⟩
    obtain ⟨rest, hlexemes, rfl⟩ := hderives.exists_rest hitems
    have hfaces : s.Faces ⟨phrase ++ rest, s.fault, s.size⟩ s.nesting s.limit := by
      rw [← hlexemes]
      exact h.faces
    obtain ⟨s', hread, hfaces'⟩ := hfaces.read_of_derives hderives
      ((hderives.nestingDepth_le_iff h.nesting_le).mp hdeep)
      ((category.ends_iff_stopsBefore _).mpr hstops)
    exact ⟨s', hread, congrArg Scan.items hfaces'.ready.2⟩

/-- A rule that succeeds leaves a cursor that is ready, with as many groups open. -/
theorem Ready.of_read {s' : Cursor} (h : s.Ready) (hread : category.read s = (.ok tree, s')) :
    s'.Ready ∧ s'.nesting = s.nesting ∧ s'.limit = s.limit := by
  obtain ⟨_, _, _, _, _, hfaces', _⟩ := h.faces.derives_of_read hread
  exact ⟨hfaces'.ready.1, hfaces'.nesting_eq, hfaces'.limit_eq⟩

/-- No phrase ahead is longer than the one that was read. -/
theorem Ready.longest_of_read {s' : Cursor} (h : s.Ready)
    (hread : category.read s = (.ok tree, s')) {phrase : List Lexeme} {tree' : Tree}
    {items : List (Except Unrecognized Lexeme)} (hitems : s.items = phrase.map .ok ++ items)
    (hderives : Derives category (phrase.map Lexeme.token) tree') :
    s'.items.length ≤ items.length := by
  obtain ⟨shorter, rest, hlexemes, hread', _, hfaces', hends⟩ := h.faces.derives_of_read hread
  obtain ⟨rest', hlexemes', rfl⟩ := hderives.exists_rest hitems
  have hitems' : s'.items = Scan.items ⟨rest, s.fault, s.size⟩ :=
    congrArg Scan.items hfaces'.ready.2
  rw [hitems', Scan.items, Scan.items]
  simp only [List.length_append, List.length_map, List.length_singleton]
  have hsame : shorter ++ rest = phrase ++ rest' := hlexemes.symm.trans hlexemes'
  rcases List.append_eq_append_iff.mp hsame with ⟨more, rfl, rfl⟩ | ⟨more, rfl, rfl⟩
  · -- The phrase begins with the one that was read, and nothing continues that one.
    obtain rfl := hread'.eq_nil_of_ends hderives (hends.of_append s.size)
    simp
  · simp

/-- Every cursor that calls leave behind, also those that failed, is ready. From every
cursor that is ready, the rule of a category succeeds with a tree and leaves certain
items ahead if and only if a phrase that denotes the tree stands in front of these
items, its parentheses keep to what the open groups leave of the limit, and the first
of the items does not continue it. The count of open groups is the same again, and no
longer phrase of the category stands ahead. -/
theorem reads_longest_phrase :
    (∀ source limit calls, ((ofSource source {} limit).after calls).Ready) ∧
    ∀ s : Cursor, s.Ready → ∀ (category : Category) (tree : Tree),
      (∀ items, (∃ s', category.read s = (.ok tree, s') ∧ s'.items = items) ↔
        ∃ phrase : List Lexeme, s.items = phrase.map .ok ++ items ∧
          Derives category (phrase.map Lexeme.token) tree ∧
          nestingDepth (phrase.map Lexeme.token) ≤ s.limit - s.nesting ∧
          category.StopsBefore items) ∧
      ∀ s', category.read s = (.ok tree, s') →
        s'.nesting = s.nesting ∧ s'.limit = s.limit ∧ s'.Ready ∧
        ∀ (phrase : List Lexeme) tree' items, s.items = phrase.map .ok ++ items →
          Derives category (phrase.map Lexeme.token) tree' → s'.items.length ≤ items.length := by
  refine ⟨ready_after, ?_⟩
  intro s hready category tree
  refine ⟨hready.read_iff, ?_⟩
  intro s' hread
  obtain ⟨hready', hnesting, hlimit⟩ := hready.of_read hread
  refine ⟨hnesting, hlimit, hready', ?_⟩
  intro phrase tree' items hitems hderives
  exact hready.longest_of_read hread hitems hderives

end Cursor

end Calculator
