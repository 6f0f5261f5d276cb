import Calculator.Cursor
import Calculator.Tree.Basic

/-!
# Recursive descent

The rules of the grammar as readers of a cursor:

* a chain of either precedence is operands joined by operators of that
  precedence, folded to the left;
* an operand of an additive chain is a multiplicative chain, whose own operands
  are factors;
* a factor is a number, or an additive chain between parentheses.

A rule never leaves more lexemes ahead than it found, and fewer if it succeeds.
This is what makes the descent end, so each rule of `Descent` answers together
with a proof of it. The equations at the end state the rules without these
proofs.
-/

namespace Calculator

/-- The name of the rule for chains of a precedence. -/
def Precedence.rule : Precedence → String
  | .additive => "expr"
  | .multiplicative => "term"

/-- The name of the rule for factors. -/
def factorRule : String := "factor"

/-- Orders the rules that may start at the same lexeme: a chain ranks just above
its operands, and these above the rule that reads them. -/
def Precedence.rank : Precedence → Nat
  | .additive => 3
  | .multiplicative => 1

/-- No rank exceeds that of sums. -/
theorem Precedence.rank_le (p : Precedence) : p.rank ≤ 3 := by
  cases p <;> decide

/-- The result of reading a tree, and the cursor left behind. -/
abbrev Reading : Type := Except Fault Tree × Cursor

/-- Leaves a rule that has read a tree. -/
def Cursor.leave (s : Cursor) (rule : String) (tree : Tree) : Reading :=
  andThen (s.exit rule) fun _ s => (.ok tree, s)

/-- Reads the parenthesis that closes the group opened at `openedAt`. -/
def Cursor.close (s : Cursor) (openedAt : Nat) (inner : Tree) : Reading :=
  andThen s.peek fun ahead s =>
    match ahead.token with
    | .rightParen => (.ok inner, (s.consume ahead).closeGroup)
    | .endOfInput => (.error (.unclosedGroup openedAt ahead.start), s)
    | token => (.error (.unexpectedToken "')'" token.text ahead.start), s)

/-- Leaving a rule consumes nothing. -/
theorem Cursor.pending_leave (s : Cursor) (rule : String) (tree : Tree) :
    (s.leave rule tree).2.pending = s.pending := by
  have hexit := s.pending_exit rule
  unfold leave
  cases h : s.exit rule with
  | mk r s₁ => cases r <;> simp_all [andThen]

/-- Closing a group puts no lexeme back. -/
theorem Cursor.pending_close_le (s : Cursor) (openedAt : Nat) (inner : Tree) :
    (s.close openedAt inner).2.pending ≤ s.pending := by
  have hpeek := s.pending_peek
  unfold close
  cases h : s.peek with
  | mk r s₁ =>
    cases r with
    | error fault => simp_all [andThen]
    | ok ahead =>
      have hahead := lookahead_of_peek h
      simp only [andThen]
      split
      · rename_i htoken
        have hlt := pending_consume_lt hahead (by simp [Lexeme.isReal, htoken])
        simp only [pending_closeGroup]
        simp_all [Nat.le_of_lt]
      · simp_all
      · simp_all

/-- The reading has put nothing back, and has consumed a lexeme if it
succeeded. -/
structure Reading.Progress (s : Cursor) (r : Reading) : Prop where
  /-- No lexeme is put back. -/
  le : r.2.pending ≤ s.pending
  /-- A tree takes at least one lexeme. -/
  lt : ∀ tree, r.1 = .ok tree → r.2.pending < s.pending

/-- A failed reading makes progress if it puts nothing back. -/
theorem Reading.Progress.of_error {s s₁ : Cursor} {fault : Fault}
    (hle : s₁.pending ≤ s.pending) : Progress s (.error fault, s₁) :=
  ⟨hle, fun _ h => nomatch h⟩

/-- A reading makes progress if it leaves fewer lexemes ahead. -/
theorem Reading.Progress.of_lt {s : Cursor} {r : Reading}
    (hlt : r.2.pending < s.pending) : Progress s r :=
  ⟨Nat.le_of_lt hlt, fun _ _ => hlt⟩

/-- Progress from a cursor with no more lexemes ahead is progress. -/
theorem Reading.Progress.of_le {s s₁ : Cursor} {r : Reading}
    (hr : Progress s₁ r) (hle : s₁.pending ≤ s.pending) : Progress s r :=
  ⟨Nat.le_trans hr.le hle, fun tree h => Nat.lt_of_lt_of_le (hr.lt tree h) hle⟩

/-- Closing a group leaves no more lexemes ahead. -/
theorem Cursor.pending_le_of_close {s s₁ : Cursor} {openedAt : Nat} {inner : Tree}
    {r : Except Fault Tree} (hclose : s.close openedAt inner = (r, s₁)) :
    s₁.pending ≤ s.pending := by
  have h := s.pending_close_le openedAt inner
  rwa [hclose] at h

/-! ## The descent

Up to five rules start at the same lexeme one inside the other, from a sum down
to a factor, so five times the number of lexemes ahead, plus a rank below five,
decreases with every call. -/

namespace Descent

open Calculator.Cursor Calculator.Reading.Progress

mutual

/-- Reads a chain of operands. -/
def chain (p : Precedence) (s : Cursor) : { r : Reading // r.Progress s } :=
  match henter : s.enter p.rule with
  | (.error fault, s₁) => ⟨(.error fault, s₁), of_error (Nat.le_of_eq (pending_of_enter henter))⟩
  | (.ok (), s₁) =>
    have hle : s₁.pending ≤ s.pending := Nat.le_of_eq (pending_of_enter henter)
    match operand p s₁ with
    | ⟨(.error fault, s₂), hleft⟩ => ⟨(.error fault, s₂), hleft.of_le hle⟩
    | ⟨(.ok left, s₂), hleft⟩ =>
      have hlt : s₂.pending < s.pending := Nat.lt_of_lt_of_le (hleft.lt left rfl) hle
      let r := chainRest p left s₂
      ⟨r.val, of_lt (Nat.lt_of_le_of_lt r.property hlt)⟩
termination_by 5 * s.pending + p.rank + 1
decreasing_by
  · omega
  · omega

/-- Reads an operand of a chain. -/
def operand (p : Precedence) (s : Cursor) : { r : Reading // r.Progress s } :=
  match p with
  | .additive => chain .multiplicative s
  | .multiplicative => factor s
termination_by 5 * s.pending + p.rank
decreasing_by
  · simp only [Precedence.rank]
    omega
  · simp only [Precedence.rank]
    omega

/-- Reads the operators and operands that follow `left` in a chain. -/
def chainRest (p : Precedence) (left : Tree) (s : Cursor) :
    { r : Reading // r.2.pending ≤ s.pending } :=
  match hpeek : s.peek with
  | (.error fault, s₁) => ⟨(.error fault, s₁), Nat.le_of_eq (pending_of_peek hpeek)⟩
  | (.ok ahead, s₁) =>
    match htoken : ahead.token.operator? with
    | some op =>
      if op.precedence = p then
        have hreal : ahead.isReal = true := Lexeme.isReal_of_operator? htoken
        have hlt : (s₁.consume ahead).pending < s.pending := pending_consume_of_peek hpeek hreal
        match operand p (s₁.consume ahead) with
        | ⟨(.error fault, s₂), hright⟩ =>
          ⟨(.error fault, s₂), Nat.le_trans hright.le (Nat.le_of_lt hlt)⟩
        | ⟨(.ok right, s₂), hright⟩ =>
          have hle : s₂.pending < s.pending := Nat.lt_of_le_of_lt hright.le hlt
          let r := chainRest p (.node op left right) s₂
          ⟨r.val, Nat.le_trans r.property (Nat.le_of_lt hle)⟩
      else
        ⟨s₁.leave p.rule left,
          Nat.le_of_eq ((s₁.pending_leave p.rule left).trans (pending_of_peek hpeek))⟩
    | none =>
      ⟨s₁.leave p.rule left,
        Nat.le_of_eq ((s₁.pending_leave p.rule left).trans (pending_of_peek hpeek))⟩
termination_by 5 * s.pending
decreasing_by
  · have := p.rank_le
    omega
  · omega

/-- Reads a number or a group. -/
def factor (s : Cursor) : { r : Reading // r.Progress s } :=
  match henter : s.enter factorRule with
  | (.error fault, s₁) => ⟨(.error fault, s₁), of_error (Nat.le_of_eq (pending_of_enter henter))⟩
  | (.ok (), s₁) =>
    have hle : s₁.pending ≤ s.pending := Nat.le_of_eq (pending_of_enter henter)
    match hpeek : s₁.peek with
    | (.error fault, s₂) =>
      ⟨(.error fault, s₂), of_error (Nat.le_trans (Nat.le_of_eq (pending_of_peek hpeek)) hle)⟩
    | (.ok ahead, s₂) =>
      have hle₂ : s₂.pending ≤ s.pending := Nat.le_trans (Nat.le_of_eq (pending_of_peek hpeek)) hle
      match htoken : ahead.token with
      | .number value =>
        have hlt : (s₂.consume ahead).pending < s.pending :=
          Nat.lt_of_lt_of_le (pending_consume_of_peek hpeek (by simp [Lexeme.isReal, htoken])) hle
        ⟨(s₂.consume ahead).leave factorRule (.leaf value),
          of_lt (Nat.lt_of_le_of_lt (Nat.le_of_eq (pending_leave ..)) hlt)⟩
      | .leftParen =>
        have hlt : (s₂.consume ahead).pending < s.pending :=
          Nat.lt_of_lt_of_le (pending_consume_of_peek hpeek (by simp [Lexeme.isReal, htoken])) hle
        match hopen : (s₂.consume ahead).openGroup ahead.start with
        | (.error fault, s₃) =>
          ⟨(.error fault, s₃),
            of_error (Nat.le_trans (Nat.le_of_eq (pending_of_openGroup hopen)) (Nat.le_of_lt hlt))⟩
        | (.ok (), s₃) =>
          have hlt₃ : s₃.pending < s.pending :=
            Nat.lt_of_le_of_lt (Nat.le_of_eq (pending_of_openGroup hopen)) hlt
          match chain .additive s₃ with
          | ⟨(.error fault, s₄), hinner⟩ =>
            ⟨(.error fault, s₄), of_error (Nat.le_trans hinner.le (Nat.le_of_lt hlt₃))⟩
          | ⟨(.ok inner, s₄), hinner⟩ =>
            have hlt₄ : s₄.pending < s.pending := Nat.lt_of_le_of_lt hinner.le hlt₃
            match hclose : s₄.close ahead.start inner with
            | (.error fault, s₅) =>
              ⟨(.error fault, s₅),
                of_error (Nat.le_of_lt (Nat.lt_of_le_of_lt (pending_le_of_close hclose) hlt₄))⟩
            | (.ok tree, s₅) =>
              have hlt₅ : s₅.pending < s.pending :=
                Nat.lt_of_le_of_lt (pending_le_of_close hclose) hlt₄
              ⟨s₅.leave factorRule tree,
                of_lt (Nat.lt_of_le_of_lt (Nat.le_of_eq (pending_leave ..)) hlt₅)⟩
      | .endOfInput =>
        ⟨(.error (.unexpectedEnd "operand" ahead.start), s₂), of_error hle₂⟩
      | token =>
        ⟨(.error (.unexpectedToken "operand" token.text ahead.start), s₂), of_error hle₂⟩
termination_by 5 * s.pending
decreasing_by
  simp only [Precedence.rank]
  omega

end

end Descent

/-- Reads a chain of a precedence: the rule `expr` or `term`. -/
def Cursor.chain (s : Cursor) (p : Precedence) : Reading := (Descent.chain p s).val

/-- Reads an operand of a chain of a precedence. -/
def Cursor.operand (s : Cursor) (p : Precedence) : Reading := (Descent.operand p s).val

/-- Reads what follows `left` in a chain of a precedence. -/
def Cursor.chainRest (s : Cursor) (p : Precedence) (left : Tree) : Reading :=
  (Descent.chainRest p left s).val

/-- Reads a number or a group: the rule `factor`. -/
def Cursor.factor (s : Cursor) : Reading := (Descent.factor s).val

/-- Reads a whole text: an additive chain and nothing behind it. -/
def Cursor.expression (s : Cursor) : Reading :=
  andThen s.peek fun ahead s =>
    match ahead.token with
    | .endOfInput => (.error .emptyInput, s)
    | _ =>
      andThen (s.chain .additive) fun tree s =>
        andThen s.peek fun ahead s =>
          match ahead.token with
          | .endOfInput => (.ok tree, s)
          | token => (.error (.trailingToken token.text ahead.start), s)

/-! ## The rules -/

/-- A chain is an operand and what follows it. -/
theorem Cursor.chain_eq (s : Cursor) (p : Precedence) :
    s.chain p = andThen (s.enter p.rule) fun _ s =>
      andThen (s.operand p) fun left s => s.chainRest p left := by
  unfold chain Descent.chain
  split <;> rename_i henter
  · simp [andThen, henter]
  · simp only [andThen, henter, operand]
    split <;> rename_i hleft <;> simp [hleft, chainRest]

/-- The operands of sums are products. -/
theorem Cursor.operand_additive (s : Cursor) :
    s.operand .additive = s.chain .multiplicative := by
  unfold operand Descent.operand chain
  rfl

/-- The operands of products are factors. -/
theorem Cursor.operand_multiplicative (s : Cursor) :
    s.operand .multiplicative = s.factor := by
  unfold operand Descent.operand factor
  rfl

/-- A chain goes on while an operator of its precedence is ahead. -/
theorem Cursor.chainRest_eq (s : Cursor) (p : Precedence) (left : Tree) :
    s.chainRest p left = andThen s.peek fun ahead s =>
      match ahead.token.operator? with
      | some op =>
        if op.precedence = p then
          andThen ((s.consume ahead).operand p) fun right s => s.chainRest p (.node op left right)
        else s.leave p.rule left
      | none => s.leave p.rule left := by
  conv => lhs; unfold chainRest Descent.chainRest
  split <;> rename_i hpeek
  · simp [andThen, hpeek]
  · simp only [andThen, hpeek]
    split <;> rename_i htoken
    · simp only [htoken]
      split
      · simp only [operand]
        split <;> rename_i hright <;> simp [hright, chainRest]
      · rfl
    · simp [htoken]

/-- A factor is a number or a group. -/
theorem Cursor.factor_eq (s : Cursor) :
    s.factor = andThen (s.enter factorRule) fun _ s =>
      andThen s.peek fun ahead s =>
        match ahead.token with
        | .number value => (s.consume ahead).leave factorRule (.leaf value)
        | .leftParen =>
          andThen ((s.consume ahead).openGroup ahead.start) fun _ s =>
            andThen (s.chain .additive) fun inner s =>
              andThen (s.close ahead.start inner) fun tree s => s.leave factorRule tree
        | .endOfInput => (.error (.unexpectedEnd "operand" ahead.start), s)
        | token => (.error (.unexpectedToken "operand" token.text ahead.start), s) := by
  unfold factor Descent.factor
  split <;> rename_i henter
  · simp [andThen, henter]
  · simp only [andThen, henter]
    split <;> rename_i hpeek
    · simp [hpeek]
    · simp only [hpeek]
      split <;> rename_i htoken
      · simp [htoken]
      · simp only [htoken]
        split <;> rename_i hopen
        · simp [hopen]
        · simp only [hopen, chain]
          split <;> rename_i hinner
          · simp [hinner]
          · simp only [hinner]
            split <;> rename_i hclose <;> simp [hclose]
      · simp [htoken]
      · split <;> simp_all

end Calculator
