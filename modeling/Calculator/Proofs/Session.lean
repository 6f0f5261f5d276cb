import Calculator.Descent

/-!
# Sessions

A cursor may be used by any sequence of calls, and goes on being used after a
call has failed. A session lists the answer to each call together with the
cursor that the call leaves behind.
-/

namespace Calculator

/-- The calls that can be made on a cursor. -/
inductive Call where
  /-- Looks at the next lexeme. -/
  | peek
  /-- Takes the next lexeme. -/
  | advance
  /-- Reads a chain of a precedence. -/
  | chain (p : Precedence)
  /-- Reads a number or a group. -/
  | factor
  /-- Reads a whole text. -/
  | expression
  deriving DecidableEq

/-- What a call answers: a lexeme or a tree, or the fault in its place. -/
inductive Answer where
  /-- The answer of looking at or taking a lexeme. -/
  | lexeme (result : Except Fault Lexeme)
  /-- The answer of a rule. -/
  | tree (result : Except Fault Tree)

/-- The answer to one call, and the cursor left behind. -/
def Cursor.perform (s : Cursor) : Call → Answer × Cursor
  | .peek => (.lexeme s.peek.1, s.peek.2)
  | .advance => (.lexeme s.advance.1, s.advance.2)
  | .chain p => (.tree (s.chain p).1, (s.chain p).2)
  | .factor => (.tree s.factor.1, s.factor.2)
  | .expression => (.tree s.expression.1, s.expression.2)

/-- The answers to a sequence of calls, each with the cursor that it leaves to
the next one. -/
def Cursor.session (s : Cursor) : List Call → List (Answer × Cursor)
  | [] => []
  | call :: calls => s.perform call :: (s.perform call).2.session calls

end Calculator
