import Calculator.Text.Unprintable
import Calculator.Text.GraphemeExtend

/-!
# Escaped characters

A character is shown in a message between single quotes. Characters that would
disturb the line, or that a reader could not see, are replaced by an escape
sequence.
-/

namespace Calculator

/-- The digits of a code point in base sixteen, in lower case and without
leading zeros. -/
def hexDigits (c : Char) : List Char :=
  Nat.toDigits 16 c.toNat

/-- Whether a character is a letter that is drawn as nothing. These fillers
stand in for the missing parts of Hangul syllables. -/
def isFiller (c : Char) : Bool :=
  c = '\u115f' || c = '\u1160' || c = '\u3164' || c = '\uffa0'

/-- Whether a character is a letter that counts as a grapheme extender but takes
a space of its own: a halfwidth Katakana sound mark. -/
def isHalfwidthMark (c : Char) : Bool :=
  c = '\uff9e' || c = '\uff9f'

/-- Whether a character would be mistaken when shown on its own: it has no
printed form, or joins the character before it. -/
def isObscure (c : Char) : Bool :=
  isUnprintable c || isFiller c || (isGraphemeExtend c && !isHalfwidthMark c)

/-- The shown form of one character. Control characters with a customary
escape, the single quote and the backslash come first; other characters stand
for themselves unless they are obscure. -/
def escapedChar (c : Char) : List Char :=
  if c = '\x00' then ['\\', '0']
  else if c = '\t' then ['\\', 't']
  else if c = '\r' then ['\\', 'r']
  else if c = '\n' then ['\\', 'n']
  else if c = '\'' then ['\\', '\'']
  else if c = '\\' then ['\\', '\\']
  else if isObscure c then
    ['\\', 'u', '\x7b'] ++ hexDigits c ++ ['\x7d']
  else [c]

/-- The shown form of a character between single quotes. -/
def quotedChar (c : Char) : String :=
  String.ofList ('\'' :: escapedChar c ++ ['\''])

end Calculator
