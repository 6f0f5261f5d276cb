import Calculator.Proofs.Rules
import Calculator.Proofs.Session

/-!
# The moves of a call

A call goes through a cursor by a few moves: it looks ahead, takes a lexeme,
enters and leaves rules, opens and closes groups. This file lists the moves of
every call in their order, up to the one that fails. Playing them gives all the
cursors that the call passes through.
-/

namespace Calculator

variable {α : Type}

/-- What a call can do to a cursor. -/
inductive Move where
  /-- Looks at the next lexeme. -/
  | peek
  /-- Takes the next lexeme. -/
  | advance
  /-- Enters a rule. -/
  | enter (rule : String)
  /-- Leaves a rule. -/
  | exit (rule : String)
  /-- Opens a group whose parenthesis stands at the position. -/
  | openGroup (position : Nat)
  /-- Closes the innermost group. -/
  | closeGroup
  deriving DecidableEq

/-- What follows a success. The next moves may use that the operation has
succeeded. -/
def movesAfter (r : Except Fault α × Cursor)
    (next : (a : α) → (s : Cursor) → r = (.ok a, s) → List Move) : List Move :=
  match r, next with
  | (.error _, _), _ => []
  | (.ok a, s), next => next a s rfl

namespace Cursor

/-- The cursor behind a move. -/
def move (s : Cursor) : Move → Cursor
  | .peek => s.peek.2
  | .advance => s.advance.2
  | .enter rule => (s.enter rule).2
  | .exit rule => (s.exit rule).2
  | .openGroup position => (s.openGroup position).2
  | .closeGroup => s.closeGroup

/-- The cursor behind several moves. -/
def play (s : Cursor) (moves : List Move) : Cursor := moves.foldl move s

/-- The moves, each with the cursor on which it is made. -/
def trail (s : Cursor) : List Move → List (Cursor × Move)
  | [] => []
  | next :: moves => (s, next) :: (s.move next).trail moves

/-! ## The moves of the rules -/

/-- The moves that close a group. -/
def closeMoves (s : Cursor) : List Move :=
  .peek :: movesAfter s.peek fun ahead _ _ =>
    match ahead.token with
    | .rightParen => [.advance, .closeGroup]
    | _ => []

mutual

/-- The moves that read a chain. -/
def chainMoves (s : Cursor) (p : Precedence) : List Move :=
  .enter p.rule :: movesAfter (s.enter p.rule) fun _ s₁ _henter =>
    s₁.operandMoves p ++ movesAfter (s₁.operand p) fun left s₂ _hleft => s₂.restMoves p left
termination_by 5 * s.pending + p.rank + 1
decreasing_by
  · have hentered := pending_of_enter _henter
    omega
  · have hentered := pending_of_enter _henter
    have hlt := pending_lt_of_operand _hleft
    omega

/-- The moves that read an operand of a chain. -/
def operandMoves (s : Cursor) (p : Precedence) : List Move :=
  match p with
  | .additive => s.chainMoves .multiplicative
  | .multiplicative => s.factorMoves
termination_by 5 * s.pending + p.rank
decreasing_by
  · simp only [Precedence.rank]
    omega
  · simp only [Precedence.rank]
    omega

/-- The moves that read the operators and operands behind `left` in a chain, and
leave it. -/
def restMoves (s : Cursor) (p : Precedence) (left : Tree) : List Move :=
  .peek :: movesAfter s.peek fun ahead s₁ _hpeek =>
    match _hop : ahead.token.operator? with
    | none => [.exit p.rule]
    | some op =>
      if op.precedence = p then
        .advance :: ((s₁.consume ahead).operandMoves p ++
          movesAfter ((s₁.consume ahead).operand p) fun right s₂ _hright =>
            s₂.restMoves p (.node op left right))
      else [.exit p.rule]
termination_by 5 * s.pending
decreasing_by
  · have hlt := pending_consume_of_peek _hpeek (Lexeme.isReal_of_operator? _hop)
    have hrank := p.rank_le
    omega
  · have hlt := pending_consume_of_peek _hpeek (Lexeme.isReal_of_operator? _hop)
    have hlt₂ := pending_lt_of_operand _hright
    omega

/-- The moves that read a number or a group. -/
def factorMoves (s : Cursor) : List Move :=
  .enter factorRule :: movesAfter (s.enter factorRule) fun _ s₁ _henter =>
    .peek :: movesAfter s₁.peek fun ahead s₂ _hpeek =>
      match _htoken : ahead.token with
      | .number _ => [.advance, .exit factorRule]
      | .leftParen =>
        .advance :: .openGroup ahead.start ::
          movesAfter ((s₂.consume ahead).openGroup ahead.start) fun _ s₃ _hopen =>
            s₃.chainMoves .additive ++ movesAfter (s₃.chain .additive) fun inner s₄ _ =>
              s₄.closeMoves ++ movesAfter (s₄.close ahead.start inner) fun _ _ _ =>
                [.exit factorRule]
      | _ => []
termination_by 5 * s.pending
decreasing_by
  have hentered := pending_of_enter _henter
  have hlt := pending_consume_of_peek _hpeek (by simp [Lexeme.isReal, _htoken])
  have hopened := pending_of_openGroup _hopen
  simp only [Precedence.rank]
  omega

end

/-- The moves that read a whole text. -/
def expressionMoves (s : Cursor) : List Move :=
  .peek :: movesAfter s.peek fun ahead s₁ _ =>
    if ahead.isReal then
      s₁.chainMoves .additive ++ movesAfter (s₁.chain .additive) fun _ _ _ => [.peek]
    else []

/-- The moves of a call. -/
def movesOf (s : Cursor) : Call → List Move
  | .peek => [.peek]
  | .advance => [.advance]
  | .chain p => s.chainMoves p
  | .factor => s.factorMoves
  | .expression => s.expressionMoves

end Cursor

end Calculator
