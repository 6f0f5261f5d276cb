import Calculator.Token
import Calculator.Fault

/-!
# Scans

Scanning splits the text of an expression into lexemes. Blanks separate
lexemes and are skipped; a literal extends as far as it can. Scanning ends at
the end of the text or at the first character that begins no token.
-/

namespace Calculator

/-- Whether a character only separates tokens. -/
def isBlank (c : Char) : Bool :=
  c = ' ' || c = '\t' || c = '\x0c' || c = '\r' || c = '\n'

/-- The token that a single character stands for, if it does. -/
def Token.ofChar? : Char → Option Token
  | '+' => some (.operator .add)
  | '-' => some (.operator .subtract)
  | '*' => some (.operator .multiply)
  | '/' => some (.operator .divide)
  | '(' => some .leftParen
  | ')' => some .rightParen
  | _ => none

/-- The digits of a numeric literal. A literal without a point has an empty
fraction. -/
structure Literal where
  /-- The digits in front of the point. -/
  whole : List Char
  /-- The digits behind the point. -/
  fraction : List Char
  deriving DecidableEq, Repr

/-- The text of a literal. -/
def Literal.chars (literal : Literal) : List Char :=
  match literal.fraction with
  | [] => literal.whole
  | digits => literal.whole ++ '.' :: digits

/-- The number of bytes of a literal, whose characters take one byte each. -/
def Literal.size (literal : Literal) : Nat :=
  match literal.fraction with
  | [] => literal.whole.length
  | digits => literal.whole.length + 1 + digits.length

/-- The number that a literal denotes. -/
def Literal.value (literal : Literal) : Float :=
  (Decimal.ofDigits literal.whole literal.fraction).toFloat

/-- The fraction at the front of a text, and the text behind it. A point that
no digit follows belongs to no fraction. -/
def Literal.splitFraction (text : List Char) : List Char × List Char :=
  match text with
  | '.' :: rest =>
    match rest.takeWhile Char.isDigit with
    | [] => ([], text)
    | digits => (digits, rest.dropWhile Char.isDigit)
  | _ => ([], text)

/-- The longest literal at the front of a text that starts with a digit, and
the text behind it. -/
def Literal.split (text : List Char) : Literal × List Char :=
  let (fraction, rest) := splitFraction (text.dropWhile Char.isDigit)
  (⟨text.takeWhile Char.isDigit, fraction⟩, rest)

/-- The text behind a fraction is no longer than the text it was split from. -/
theorem Literal.length_splitFraction_le (text : List Char) :
    (splitFraction text).2.length ≤ text.length := by
  have hdrop (rest : List Char) : (rest.dropWhile Char.isDigit).length ≤ rest.length :=
    (List.dropWhile_sublist _).length_le
  unfold splitFraction
  split
  · split
    · exact Nat.le_refl _
    · rename_i rest _ _
      exact Nat.le_succ_of_le (hdrop rest)
  · exact Nat.le_refl _

/-- Splitting a literal off a text that starts with a digit leaves less text. -/
theorem Literal.length_split_lt {c : Char} (rest : List Char) (hdigit : c.isDigit = true) :
    (split (c :: rest)).2.length < (c :: rest).length := by
  have hdrop : (c :: rest).dropWhile Char.isDigit = rest.dropWhile Char.isDigit := by
    simp [hdigit]
  calc (split (c :: rest)).2.length
      ≤ ((c :: rest).dropWhile Char.isDigit).length := length_splitFraction_le _
    _ ≤ rest.length := by rw [hdrop]; exact (List.dropWhile_sublist _).length_le
    _ < (c :: rest).length := Nat.lt_succ_self _

/-- The outcome of scanning a text. -/
structure Scan where
  /-- The lexemes in the order of the text, without the end of the input. -/
  lexemes : List Lexeme
  /-- The character at which scanning stopped, if it did not reach the end. -/
  fault : Option Unrecognized
  /-- The number of bytes of the whole text. -/
  size : Nat
  deriving DecidableEq

/-- Scans the text that starts at a byte offset. The lexemes found before it
are passed in reverse order. -/
def scanFrom (offset : Nat) (found : List Lexeme) :
    List Char → List Lexeme × Option Unrecognized
  | [] => (found.reverse, none)
  | c :: rest =>
    if isBlank c then scanFrom (offset + 1) found rest
    else
      match Token.ofChar? c with
      | some token => scanFrom (offset + 1) (⟨token, offset, offset + 1⟩ :: found) rest
      | none =>
        if _hdigit : c.isDigit = true then
          let literal := (Literal.split (c :: rest)).1
          let stop := offset + literal.size
          scanFrom stop (⟨.number literal.value, offset, stop⟩ :: found)
            (Literal.split (c :: rest)).2
        else (found.reverse, some ⟨c, offset⟩)
termination_by text => text.length
decreasing_by
  · exact Nat.lt_succ_self _
  · exact Nat.lt_succ_self _
  · exact Literal.length_split_lt rest _hdigit

/-- Scans a whole text. -/
def scan (source : String) : Scan :=
  let (lexemes, fault) := scanFrom 0 [] source.toList
  ⟨lexemes, fault, source.utf8ByteSize⟩

/-- What a scan delivers, one after the other: the lexemes, and at last either
the end of the input or the unrecognized character. -/
def Scan.items (scan : Scan) : List (Except Unrecognized Lexeme) :=
  let last : Except Unrecognized Lexeme :=
    match scan.fault with
    | some fault => .error fault
    | none => .ok (Lexeme.atEnd scan.size)
  scan.lexemes.map .ok ++ [last]

end Calculator
