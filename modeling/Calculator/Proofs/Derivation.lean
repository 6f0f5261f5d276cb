import Calculator.Proofs.Soundness
import Calculator.Proofs.Supply

/-!
# Derivations

A derivation shows how the rules of the grammar produce a list of lexemes. It
has a node for every chain and every factor, and a chain lists its operands as
they stand in the text. Lexemes have at most one derivation. Going through it
from the left gives the records of a trace: each node is entered with its first
lexeme ahead and left with the lexeme behind it ahead.
-/

namespace Calculator

/-- The parts that a derivation is put together from. -/
inductive Part where
  /-- A phrase of a category. -/
  | phrase (category : Category)
  /-- What follows the first operand of a chain. -/
  | tail (p : Precedence)

/-- What a part denotes. The tail of a chain extends the tree in front of it. -/
def Part.Meaning : Part → Type
  | .phrase _ => Tree
  | .tail _ => Tree → Tree

/-- How lexemes are derived from a part. -/
inductive Derivation : Part → Type where
  /-- A chain is an operand and a tail. -/
  | chain {p : Precedence} (first : Derivation (.phrase p.operands))
      (rest : Derivation (.tail p)) : Derivation (.phrase (.chain p))
  /-- The tail of a chain may be empty. -/
  | stop {p : Precedence} : Derivation (.tail p)
  /-- The tail of a chain may go on with an operator of its precedence, an
  operand and a tail. -/
  | more {p : Precedence} (sign : Lexeme) (op : Operator) (hsign : sign.token = .operator op)
      (hprecedence : op.precedence = p) (operand : Derivation (.phrase p.operands))
      (rest : Derivation (.tail p)) : Derivation (.tail p)
  /-- A number is a factor. -/
  | number (literal : Lexeme) (value : Float) (hliteral : literal.token = .number value) :
      Derivation (.phrase .factor)
  /-- An expression between parentheses is a factor. -/
  | group (left : Lexeme) (inner : Derivation (.phrase .expression)) (right : Lexeme)
      (hleft : left.token = .leftParen) (hright : right.token = .rightParen) :
      Derivation (.phrase .factor)

namespace Derivation

variable {part : Part}

/-- The lexemes that are derived. -/
def lexemes : {part : Part} → Derivation part → List Lexeme
  | _, .chain first rest => first.lexemes ++ rest.lexemes
  | _, .stop => []
  | _, .more sign _ _ _ operand rest => sign :: (operand.lexemes ++ rest.lexemes)
  | _, .number literal _ _ => [literal]
  | _, .group left inner right _ _ => left :: (inner.lexemes ++ [right])

/-- What the lexemes denote. -/
def meaning : {part : Part} → Derivation part → part.Meaning
  | _, .chain first rest => rest.meaning first.meaning
  | _, .stop => fun left => left
  | _, .more _ op _ _ operand rest => fun left => rest.meaning (.node op left operand.meaning)
  | _, .number _ value _ => .leaf value
  | _, .group _ inner _ _ _ => inner.meaning

end Derivation

/-! ## Derivations and the grammar -/

/-- The grammar gives the part this meaning. -/
def Part.Derives : (part : Part) → List Token → part.Meaning → Prop
  | .phrase category, tokens, tree => Calculator.Derives category tokens tree
  | .tail p, tokens, extended => ∀ before left, Calculator.Derives (.chain p) before left →
      Calculator.Derives (.chain p) (before ++ tokens) (extended left)

/-- What has a derivation is derived by the grammar, with the same meaning. -/
theorem Derivation.derives {part : Part} (d : Derivation part) :
    part.Derives (d.lexemes.map Lexeme.token) d.meaning := by
  induction d with
  | chain first rest ihfirst ihrest =>
    rw [lexemes, List.map_append]
    exact ihrest _ _ (.single ihfirst)
  | stop =>
    intro before left hbefore
    rw [lexemes, List.map_nil, List.append_nil]
    exact hbefore
  | more sign op hsign hprecedence operand rest ihoperand ihrest =>
    intro before left hbefore
    have hjoined := ihrest _ _ (.joined hbefore hprecedence ihoperand)
    rw [List.append_assoc, List.cons_append] at hjoined
    rw [lexemes, List.map_cons, List.map_append, hsign]
    exact hjoined
  | number literal value hliteral =>
    rw [lexemes, List.map_singleton, hliteral]
    exact .number value
  | group left inner right hleft hright ih =>
    rw [lexemes, List.map_cons, List.map_append, List.map_singleton, hleft, hright]
    exact .group ih

/-- What lies behind cannot continue the part. -/
def Part.Ends : Part → List Lexeme → Prop
  | .phrase category, rest => category.Ends ⟨rest, none, 0⟩
  | .tail p, rest => (Category.chain p).Ends ⟨rest, none, 0⟩

/-- A chain whose tail ends here has operands that end in front of the tail. -/
theorem Derivation.ends_operand {p : Precedence} (tail : Derivation (.tail p))
    {rest : List Lexeme} (hends : (Part.tail p).Ends rest) :
    (Part.phrase p.operands).Ends (tail.lexemes ++ rest) := by
  cases tail with
  | stop =>
    cases p with
    | multiplicative => trivial
    | additive =>
      cases rest with
      | nil => rfl
      | cons lexeme rest =>
        intro op hop
        exact ⟨(hends op hop).1, rfl⟩
  | more sign op hsign hprecedence operand tail =>
    have hop : sign.token.operator? = some op := by rw [hsign]; rfl
    exact Precedence.operands_ends_of_operator hop hprecedence _ none 0

/-- The tail of a chain does not go on where it has ended. -/
theorem Part.Ends.not_operator {p : Precedence} {sign : Lexeme} {rest : List Lexeme}
    {op : Operator} (hends : (Part.tail p).Ends (sign :: rest))
    (hsign : sign.token = .operator op) : op.precedence ≠ p := by
  have hends : (Category.chain p).Ends ⟨sign :: rest, none, 0⟩ := hends
  exact hends.stop op (by rw [hsign]; rfl)

/-- Two derivations of a part from the front of the same lexemes, each of which
ends where it must, are the same. -/
theorem Derivation.unique_before {part : Part} (d : Derivation part) :
    ∀ (d' : Derivation part) (rest rest' : List Lexeme),
      d.lexemes ++ rest = d'.lexemes ++ rest' → part.Ends rest → part.Ends rest' →
        d = d' ∧ rest = rest' := by
  induction d with
  | chain first tail ihfirst ihtail =>
    intro d' rest rest' hlexemes hends hends'
    cases d' with
    | chain first' tail' =>
      -- Both first operands end in front of their tails, so they are the same.
      simp only [lexemes, List.append_assoc] at hlexemes
      obtain ⟨rfl, hbehind⟩ :=
        ihfirst first' _ _ hlexemes (tail.ends_operand hends) (tail'.ends_operand hends')
      obtain ⟨rfl, rfl⟩ := ihtail tail' _ _ hbehind hends hends'
      exact ⟨rfl, rfl⟩
  | stop =>
    intro d' rest rest' hlexemes hends hends'
    cases d' with
    | stop => exact ⟨rfl, hlexemes⟩
    | more sign op hsign hprecedence operand tail =>
      -- One tail would go on where the other has ended.
      simp only [lexemes, List.nil_append, List.cons_append] at hlexemes
      rw [hlexemes] at hends
      exact absurd hprecedence (hends.not_operator hsign)
  | more sign op hsign hprecedence operand tail ihoperand ihtail =>
    intro d' rest rest' hlexemes hends hends'
    cases d' with
    | stop =>
      simp only [lexemes, List.nil_append, List.cons_append] at hlexemes
      rw [← hlexemes] at hends'
      exact absurd hprecedence (hends'.not_operator hsign)
    | more sign' op' hsign' hprecedence' operand' tail' =>
      simp only [lexemes, List.cons_append, List.append_assoc, List.cons.injEq] at hlexemes
      obtain ⟨rfl, hbehind⟩ := hlexemes
      rw [hsign] at hsign'
      cases hsign'
      obtain ⟨rfl, hafter⟩ :=
        ihoperand operand' _ _ hbehind (tail.ends_operand hends) (tail'.ends_operand hends')
      obtain ⟨rfl, rfl⟩ := ihtail tail' _ _ hafter hends hends'
      exact ⟨rfl, rfl⟩
  | number literal value hliteral =>
    intro d' rest rest' hlexemes hends hends'
    cases d' with
    | number literal' value' hliteral' =>
      simp only [lexemes, List.singleton_append, List.cons.injEq] at hlexemes
      obtain ⟨rfl, rfl⟩ := hlexemes
      rw [hliteral] at hliteral'
      cases hliteral'
      exact ⟨rfl, rfl⟩
    | group left inner right hleft hright =>
      simp only [lexemes, List.cons_append, List.cons.injEq] at hlexemes
      rw [hlexemes.1, hleft] at hliteral
      cases hliteral
  | group left inner right hleft hright ih =>
    intro d' rest rest' hlexemes hends hends'
    have hclosed {right : Lexeme} {rest : List Lexeme} (hright : right.token = .rightParen) :
        (Part.phrase .expression).Ends (right :: rest) := by
      intro op hop
      rw [hright] at hop
      cases hop
    cases d' with
    | number literal value hliteral =>
      simp only [lexemes, List.cons_append, List.cons.injEq] at hlexemes
      rw [← hlexemes.1, hleft] at hliteral
      cases hliteral
    | group left' inner' right' hleft' hright' =>
      simp only [lexemes, List.cons_append, List.append_assoc, List.cons.injEq] at hlexemes
      obtain ⟨rfl, hbehind⟩ := hlexemes
      obtain ⟨rfl, hafter⟩ := ih inner' _ _ hbehind (hclosed hright) (hclosed hright')
      cases hafter
      exact ⟨rfl, rfl⟩

/-- Lexemes have at most one derivation. -/
theorem Derivation.unique {d d' : Derivation (.phrase .expression)}
    (hlexemes : d.lexemes = d'.lexemes) : d = d' :=
  (d.unique_before d' [] [] (congrArg (· ++ []) hlexemes) rfl rfl).1

/-! ## The records of a derivation -/

/-- The records of a node: around what is recorded inside it, its rule is entered
with the first of its lexemes ahead, and left with the lexeme behind it ahead. -/
def nodeRecords (rule : String) (depth : Nat) (lexemes : List Lexeme) (next : Lexeme)
    (inside : List Record) : List Record :=
  ⟨depth, .enter rule (lexemes.headD next)⟩ :: (inside ++ [⟨depth, .exit rule next⟩])

namespace Derivation

/-- The records of a part that stands `depth` nodes deep in front of the lexeme
`next`. -/
def records (depth : Nat) (next : Lexeme) : {part : Part} → Derivation part → List Record
  | _, @chain p first rest =>
    nodeRecords p.rule depth (first.lexemes ++ rest.lexemes) next
      (first.records (depth + 1) (rest.lexemes.headD next) ++ rest.records (depth + 1) next)
  | _, .stop => []
  | _, .more sign _ _ _ operand rest =>
    ⟨depth, .consume sign⟩ ::
      (operand.records depth (rest.lexemes.headD next) ++ rest.records depth next)
  | _, .number literal _ _ =>
    nodeRecords factorRule depth [literal] next [⟨depth + 1, .consume literal⟩]
  | _, .group left inner right _ _ =>
    nodeRecords factorRule depth (left :: (inner.lexemes ++ [right])) next
      (⟨depth + 1, .consume left⟩ ::
        (inner.records (depth + 1) right ++ [⟨depth + 1, .consume right⟩]))

/-- A node records what is consumed inside it. -/
@[simp] theorem consumptions_nodeRecords (rule : String) (depth : Nat) (lexemes : List Lexeme)
    (next : Lexeme) (inside : List Record) :
    consumptions (nodeRecords rule depth lexemes next inside) = consumptions inside := by
  simp [nodeRecords, consumptions]

/-- A derivation consumes its lexemes, each once and in order. -/
theorem consumptions_records {part : Part} (d : Derivation part) (depth : Nat) (next : Lexeme) :
    consumptions (d.records depth next) = d.lexemes := by
  have hconsume (depth : Nat) (lexeme : Lexeme) (records : List Record) :
      consumptions (⟨depth, .consume lexeme⟩ :: records) = lexeme :: consumptions records := rfl
  induction d generalizing depth next with
  | chain first rest ihfirst ihrest =>
    rw [records, consumptions_nodeRecords, consumptions_append, ihfirst, ihrest, lexemes]
  | stop => rfl
  | more sign op hsign hprecedence operand rest ihoperand ihrest =>
    rw [records, hconsume, consumptions_append, ihoperand, ihrest, lexemes]
  | number literal value hliteral =>
    rw [records, consumptions_nodeRecords]
    rfl
  | group left inner right hleft hright ih =>
    rw [records, consumptions_nodeRecords, hconsume, consumptions_append, ih, lexemes]
    rfl

end Derivation

end Calculator
