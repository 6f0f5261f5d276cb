import Calculator.Text.Escaped

/-!
# Faults

Everything that can be wrong with the text of an expression. A fault records
its cause and the byte offset at which it was noticed; the wording is fixed in
one place.
-/

namespace Calculator

/-- A character that begins no token. -/
structure Unrecognized where
  /-- The offending character. -/
  character : Char
  /-- Its byte offset. -/
  position : Nat
  deriving DecidableEq, Repr

/-- The message about an unrecognized character. -/
def Unrecognized.message (fault : Unrecognized) : String :=
  s!"Error at position {fault.position}: Unrecognized character {quotedChar fault.character}."

/-- The reasons for which a text is no expression. -/
inductive Fault where
  /-- The text holds a character that begins no token. -/
  | unrecognized (fault : Unrecognized)
  /-- The text holds no token at all. -/
  | emptyInput
  /-- The token shown as `found` stands where `expected` was required. -/
  | unexpectedToken (expected found : String) (position : Nat)
  /-- The text ends where `expected` was required. -/
  | unexpectedEnd (expected : String) (position : Nat)
  /-- The text ends inside the group that was opened at `openedAt`. -/
  | unclosedGroup (openedAt position : Nat)
  /-- The token shown as `token` follows a complete expression. -/
  | trailingToken (token : String) (position : Nat)
  /-- The parenthesis at `position` opens one group more than `limit` allows. -/
  | nestingTooDeep (limit position : Nat)
  deriving DecidableEq, Repr

/-- Whether the fault lies in the characters rather than in the order of the
tokens. -/
def Fault.isLexical : Fault → Bool
  | .unrecognized _ => true
  | _ => false

/-- The byte offset at which the fault was noticed. An empty input has none. -/
def Fault.position? : Fault → Option Nat
  | .unrecognized fault => some fault.position
  | .emptyInput => none
  | .unexpectedToken _ _ position => some position
  | .unexpectedEnd _ position => some position
  | .unclosedGroup _ position => some position
  | .trailingToken _ position => some position
  | .nestingTooDeep _ position => some position

/-- What would have been right in place of the fault. Nothing in particular is
expected in place of an unrecognized character. -/
def Fault.expected? : Fault → Option String
  | .unrecognized _ => none
  | .emptyInput => some "expression"
  | .unexpectedToken expected _ _ => some expected
  | .unexpectedEnd expected _ => some expected
  | .unclosedGroup _ _ => some "')'"
  | .trailingToken _ _ => some "end of input"
  | .nestingTooDeep _ _ => some "shallower nesting"

/-- The message about a fault, on one line. -/
def Fault.message : Fault → String
  | .unrecognized fault => fault.message
  | .emptyInput => "Error: Empty input, expected an expression."
  | .unexpectedToken expected found position =>
    s!"Error at position {position}: Expected {expected}, found {found}."
  | .unexpectedEnd expected position =>
    s!"Error at position {position}: Unexpected end of input, expected {expected}."
  | .unclosedGroup openedAt position =>
    s!"Error at position {position}: Expected closing parenthesis ')' for '(' at position " ++
      s!"{openedAt} but none found."
  | .trailingToken token position =>
    s!"Error at position {position}: Extra tokens after expression. Check your input: {token}"
  | .nestingTooDeep limit position =>
    s!"Error at position {position}: Parentheses nested deeper than {limit} levels."

end Calculator
