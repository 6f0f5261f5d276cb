import Calculator.Operator
import Calculator.Number

/-!
# Tokens and lexemes

A token is a number, an operator, a parenthesis or the end of the input. A
lexeme is a token together with the range of bytes that it covers.
-/

namespace Calculator

/-- The smallest meaningful pieces of an expression's text. -/
inductive Token where
  /-- A numeric literal with its value. -/
  | number (value : Float)
  /-- One of the four operators. -/
  | operator (op : Operator)
  | leftParen
  | rightParen
  /-- The end of the text. -/
  | endOfInput
  deriving DecidableEq

/-- The grammatical name of a token. -/
def Token.kind : Token → String
  | .number _ => "NUMBER"
  | .operator .add => "PLUS"
  | .operator .subtract => "MINUS"
  | .operator .multiply => "STAR"
  | .operator .divide => "SLASH"
  | .leftParen => "LPAREN"
  | .rightParen => "RPAREN"
  | .endOfInput => "EOF"

/-- How a token is shown in messages: a number by its shortest text, a symbol
between single quotes. -/
def Token.text : Token → String
  | .number value => Number.text value
  | .operator op => String.ofList ['\'', op.symbol, '\'']
  | .leftParen => "'('"
  | .rightParen => "')'"
  | .endOfInput => "end of input"

/-- The operator that a token denotes, if it denotes one. -/
def Token.operator? : Token → Option Operator
  | .operator op => some op
  | _ => none

/-- A token and the range of bytes it covers in the text. -/
structure Lexeme where
  /-- What was found. -/
  token : Token
  /-- Offset of the first byte. -/
  start : Nat
  /-- Offset just behind the last byte. -/
  stop : Nat
  deriving DecidableEq

/-- The empty lexeme at the end of a text of `size` bytes. -/
def Lexeme.atEnd (size : Nat) : Lexeme := ⟨.endOfInput, size, size⟩

/-- Whether a lexeme is anything but the end of the input. -/
def Lexeme.isReal (lexeme : Lexeme) : Bool :=
  match lexeme.token with
  | .endOfInput => false
  | _ => true

/-- A lexeme that denotes an operator is not the end of the input. -/
theorem Lexeme.isReal_of_operator? {lexeme : Lexeme} {op : Operator}
    (hop : lexeme.token.operator? = some op) : lexeme.isReal = true := by
  unfold isReal
  split
  · simp_all [Token.operator?]
  · rfl

end Calculator
