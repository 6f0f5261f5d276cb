import Calculator.Proofs.Contract
import Mathlib.Logic.Function.Iterate

/-!
# The rules in single steps

The rules call one another, and a chain goes round a loop. This file runs them
one step at a time. The state of control is what to do next, a stack with what is
to be done behind each call that has not come back, and the lexemes consumed so
far. A step makes one call, takes one turn of a loop, or hands a result to the
caller, and is not recursive. What a run of steps comes to is what the rules
read, and it consumes what they consume.
-/

namespace Calculator

variable {α : Type}

/-- The rules that can be called on a cursor. -/
inductive Rule where
  /-- Reads a whole text. -/
  | expression
  /-- Reads a chain of a precedence. -/
  | chain (p : Precedence)
  /-- Reads a number or a group. -/
  | factor
  deriving DecidableEq

/-- The rule for the operands of a chain. -/
def Precedence.operandRule : Precedence → Rule
  | .additive => .chain .multiplicative
  | .multiplicative => .factor

/-- What is to be done on a cursor. -/
inductive Task where
  /-- A rule is called. -/
  | rule (called : Rule)
  /-- A chain takes a turn of its loop. The operands so far make up `left`. -/
  | turn (p : Precedence) (left : Tree)

/-- What is to be done with a tree when a call comes back. -/
inductive Frame where
  /-- Nothing may be left behind the tree. -/
  | finish
  /-- The tree is the first operand of a chain, whose loop begins. -/
  | begin (p : Precedence)
  /-- The tree is the right operand of an operator, and the loop goes on. -/
  | join (p : Precedence) (op : Operator) (left : Tree)
  /-- The tree stands in a group, which is to be closed. -/
  | close (openedAt : Nat)

/-- The state of control. -/
inductive Control where
  /-- A task is to be done on a cursor. -/
  | call (task : Task) (s : Cursor) (stack : List Frame) (taken : List Lexeme)
  /-- A call has come back. -/
  | answer (r : Reading) (stack : List Frame) (taken : List Lexeme)

/-- Goes on after a success, and comes back with a fault. -/
def onward (r : Except Fault α × Cursor) (stack : List Frame) (taken : List Lexeme)
    (next : α → Cursor → Control) : Control :=
  match r with
  | (.error fault, s) => .answer (.error fault, s) stack taken
  | (.ok a, s) => next a s

/-! ## Steps -/

/-- The first step of a rule, up to the call that it makes. -/
def Rule.enter (s : Cursor) (stack : List Frame) (taken : List Lexeme) : Rule → Control
  | .expression =>
    onward s.peek stack taken fun ahead s =>
      if ahead.isReal then .call (.rule (.chain .additive)) s (.finish :: stack) taken
      else .answer (.error .emptyInput, s) stack taken
  | .chain p =>
    onward (s.enter p.rule) stack taken fun _ s =>
      .call (.rule p.operandRule) s (.begin p :: stack) taken
  | .factor =>
    onward (s.enter factorRule) stack taken fun _ s =>
      onward s.peek stack taken fun ahead s =>
        match ahead.token with
        | .number value =>
          .answer ((s.consume ahead).leave factorRule (.leaf value)) stack (taken ++ [ahead])
        | .leftParen =>
          onward ((s.consume ahead).openGroup ahead.start) stack (taken ++ [ahead]) fun _ s =>
            .call (.rule (.chain .additive)) s (.close ahead.start :: stack) (taken ++ [ahead])
        | .endOfInput => .answer (.error (.unexpectedEnd "operand" ahead.start), s) stack taken
        | token =>
          .answer (.error (.unexpectedToken "operand" token.text ahead.start), s) stack taken

/-- A turn of the loop of a chain: an operator of its precedence calls for an
operand, and anything else ends the loop. -/
def Precedence.turn (p : Precedence) (left : Tree) (s : Cursor) (stack : List Frame)
    (taken : List Lexeme) : Control :=
  onward s.peek stack taken fun ahead s =>
    match ahead.token.operator? with
    | some op =>
      if op.precedence = p then
        .call (.rule p.operandRule) (s.consume ahead) (.join p op left :: stack) (taken ++ [ahead])
      else .answer (s.leave p.rule left) stack taken
    | none => .answer (s.leave p.rule left) stack taken

/-- Goes on with the tree that a call has come back with. -/
def Frame.resume (tree : Tree) (s : Cursor) (stack : List Frame) (taken : List Lexeme) :
    Frame → Control
  | .finish => .answer (s.finish tree) stack taken
  | .begin p => .call (.turn p tree) s stack taken
  | .join p op left => .call (.turn p (.node op left tree)) s stack taken
  | .close openedAt =>
    .answer (andThen (s.close openedAt tree) fun tree s => s.leave factorRule tree) stack
      (taken ++ s.closeTaken)

namespace Control

/-- The start of a call of a rule. -/
def start (rule : Rule) (s : Cursor) : Control := .call (.rule rule) s [] []

/-- One step. The answer to the first call is final. -/
def step : Control → Control
  | .call (.rule rule) s stack taken => rule.enter s stack taken
  | .call (.turn p left) s stack taken => p.turn left s stack taken
  | .answer r [] taken => .answer r [] taken
  | .answer r (frame :: stack) taken =>
    onward r stack taken fun tree s => frame.resume tree s stack taken

/-- Several steps. -/
def run (n : Nat) (c : Control) : Control := step^[n] c

end Control

/-! ## What a run comes to -/

/-- What a rule reads. -/
def Rule.read (s : Cursor) : Rule → Reading
  | .expression => s.expression
  | .chain p => s.chain p
  | .factor => s.factor

/-- The lexemes that a rule consumes. -/
def Rule.taken (s : Cursor) : Rule → List Lexeme
  | .expression => s.expressionTaken
  | .chain p => s.chainTaken p
  | .factor => s.factorTaken

/-- The operands of a chain are what their rule reads. -/
theorem Precedence.read_operandRule (p : Precedence) (s : Cursor) :
    p.operandRule.read s = s.operand p := by
  cases p with
  | additive => exact s.operand_additive.symm
  | multiplicative => exact s.operand_multiplicative.symm

/-- They consume what their rule consumes. -/
theorem Precedence.taken_operandRule (p : Precedence) (s : Cursor) :
    p.operandRule.taken s = s.operandTaken p := by
  cases p with
  | additive => exact s.operandTaken_additive.symm
  | multiplicative => exact s.operandTaken_multiplicative.symm

/-- What a task reads. -/
def Task.read (s : Cursor) : Task → Reading
  | .rule called => called.read s
  | .turn p left => s.chainRest p left

/-- The lexemes that a task consumes. -/
def Task.taken (s : Cursor) : Task → List Lexeme
  | .rule called => called.taken s
  | .turn p left => s.restTaken p left

/-- What is read behind a call that has come back. -/
def Frame.read (tree : Tree) (s : Cursor) : Frame → Reading
  | .finish => s.finish tree
  | .begin p => s.chainRest p tree
  | .join p op left => s.chainRest p (.node op left tree)
  | .close openedAt => andThen (s.close openedAt tree) fun tree s => s.leave factorRule tree

/-- The lexemes consumed behind a call that has come back. -/
def Frame.taken (tree : Tree) (s : Cursor) : Frame → List Lexeme
  | .finish => []
  | .begin p => s.restTaken p tree
  | .join p op left => s.restTaken p (.node op left tree)
  | .close _ => s.closeTaken

/-- What is read and consumed in the end, when a call has come back to a stack. -/
def conclude (r : Reading) (taken : List Lexeme) : List Frame → Reading × List Lexeme
  | [] => (r, taken)
  | frame :: stack =>
    conclude (andThen r fun tree s => frame.read tree s)
      (taken ++ takenAfter r fun tree s => frame.taken tree s) stack

/-- What is read and consumed in the end. -/
def Control.outcome : Control → Reading × List Lexeme
  | .call task s stack taken => conclude (task.read s) (taken ++ task.taken s) stack
  | .answer r stack taken => conclude r taken stack

/-- What an operation and its success come to. -/
theorem outcome_onward {r : Except Fault α × Cursor} {stack : List Frame} {taken : List Lexeme}
    {next : α → Cursor → Control} {read : α → Cursor → Reading} {more : α → Cursor → List Lexeme}
    (hnext : ∀ a s, (next a s).outcome = conclude (read a s) (taken ++ more a s) stack) :
    (onward r stack taken next).outcome =
      conclude (andThen r read) (taken ++ takenAfter r more) stack := by
  obtain ⟨fault | a, s⟩ := r
  · change conclude _ taken stack = conclude _ (taken ++ []) stack
    rw [List.append_nil]
    rfl
  · exact hnext a s

/-- An answer that has consumed nothing more. -/
theorem outcome_answer (r : Reading) (stack : List Frame) (taken : List Lexeme) :
    (Control.answer r stack taken).outcome = conclude r (taken ++ []) stack := by
  rw [List.append_nil]
  rfl

/-- A call comes to what is read and consumed by it and by its frame. -/
theorem outcome_call (task : Task) (s : Cursor) (frame : Frame) (stack : List Frame)
    (taken : List Lexeme) :
    (Control.call task s (frame :: stack) taken).outcome =
      conclude (andThen (task.read s) fun tree s => frame.read tree s)
        (taken ++ (task.taken s ++ takenAfter (task.read s) fun tree s => frame.taken tree s))
        stack := by
  rw [← List.append_assoc]
  rfl

/-- The first step of a rule comes to what the rule reads and consumes. -/
theorem Rule.outcome_enter (rule : Rule) (s : Cursor) (stack : List Frame) (taken : List Lexeme) :
    (rule.enter s stack taken).outcome = conclude (rule.read s) (taken ++ rule.taken s) stack := by
  cases rule with
  | expression =>
    rw [read, s.expression_eq_finish, Rule.taken, Cursor.expressionTaken]
    apply outcome_onward
    intro ahead s
    cases ahead.isReal with
    | true =>
      simp only [if_true]
      rw [outcome_call]
      simp only [Frame.taken, takenAfter_nothing, List.append_nil]
      rfl
    | false => exact outcome_answer ..
  | chain p =>
    rw [read, s.chain_eq, Rule.taken, s.chainTaken_eq]
    apply outcome_onward
    intro _ s
    rw [outcome_call]
    simp only [Task.read, Task.taken, p.read_operandRule, p.taken_operandRule]
    rfl
  | factor =>
    rw [read, s.factor_eq_factorAt, Rule.taken, s.factorTaken_eq]
    apply outcome_onward
    intro _ s
    apply outcome_onward
    intro ahead s
    unfold Cursor.factorAt Cursor.factorTakenAt
    cases ahead.token with
    | number value => rfl
    | leftParen =>
      -- The parenthesis is consumed also where the group is refused.
      simp only [Cursor.group, andThen_assoc]
      rw [List.append_cons taken ahead ((s.consume ahead).groupTaken ahead.start)]
      apply outcome_onward
      intro _ s
      exact outcome_call ..
    | operator op => exact outcome_answer ..
    | rightParen => exact outcome_answer ..
    | endOfInput => exact outcome_answer ..

/-- A turn of a loop comes to what the rest of the chain reads and consumes. -/
theorem Precedence.outcome_turn (p : Precedence) (left : Tree) (s : Cursor) (stack : List Frame)
    (taken : List Lexeme) :
    (p.turn left s stack taken).outcome =
      conclude (s.chainRest p left) (taken ++ s.restTaken p left) stack := by
  rw [s.chainRest_eq_chainRestAt, s.restTaken_eq]
  apply outcome_onward
  intro ahead s
  rcases ahead.stops_or_goesOn p with hstop | ⟨op, hop, hprecedence⟩
  · rw [Cursor.chainRestAt_of_stop hstop, Cursor.restTakenAt_of_stop hstop, ← outcome_answer]
    split
    · rename_i op hop
      rw [if_neg (hstop op hop)]
    · rfl
  · rw [Cursor.chainRestAt_of_operator hop hprecedence,
      Cursor.restTakenAt_of_operator hop hprecedence]
    simp only [hop, if_pos hprecedence]
    rw [outcome_call]
    simp only [Task.read, Task.taken, p.read_operandRule, p.taken_operandRule, List.append_assoc]
    rfl

/-- What is read and consumed behind a call that has come back. -/
theorem Frame.outcome_resume (frame : Frame) (tree : Tree) (s : Cursor) (stack : List Frame)
    (taken : List Lexeme) :
    (frame.resume tree s stack taken).outcome =
      conclude (frame.read tree s) (taken ++ frame.taken tree s) stack := by
  cases frame with
  | finish => exact outcome_answer ..
  | begin p => rfl
  | join p op left => rfl
  | close openedAt => rfl

namespace Control

/-- A step changes nothing of what a run comes to. -/
theorem outcome_step (c : Control) : c.step.outcome = c.outcome := by
  cases c with
  | call task s stack taken =>
    cases task with
    | rule rule => exact rule.outcome_enter s stack taken
    | turn p left => exact p.outcome_turn left s stack taken
  | answer r stack taken =>
    cases stack with
    | nil => rfl
    | cons frame stack => exact outcome_onward fun tree s => frame.outcome_resume tree s stack taken

/-- Nor do several steps. -/
theorem outcome_run (n : Nat) (c : Control) : (c.run n).outcome = c.outcome := by
  induction n generalizing c with
  | zero => rfl
  | succ n ih => exact (ih c.step).trans c.outcome_step

/-- A call of a rule comes to what the rule reads and consumes. -/
theorem outcome_start (rule : Rule) (s : Cursor) :
    (start rule s).outcome = (rule.read s, rule.taken s) := rfl

end Control

end Calculator
