/-!
# Visible text

A text may hold control characters and the sequences by which terminals are
steered: an escape character followed by a final character, by parameters and a
final character, or by a whole string with a terminator. Text that is written
to a file or a log keeps only what is visible of it.

The filter is the one through which the logger and the argument parser of the
command line write where no terminal is attached. The definitions realise what is
documented of it:

* printable characters and layout are kept, and the other control characters of
  the basic set and the sequences of terminals are dropped;
* an escape character starts a sequence anywhere, and the characters for cancel
  and substitute abort one;
* the sequences are told apart byte by byte, as terminals do, so a string ends
  with the byte of the string terminator also where this byte is part of a
  character, and a command ends with a bell.
-/

namespace Calculator

/-- Which sequence a place in a text lies in. -/
inductive Sequence where
  /-- In no sequence. -/
  | plain
  /-- Behind an escape character. -/
  | escape
  /-- Behind an escape character and intermediate characters. -/
  | escapeIntermediate
  /-- In the parameters of a control sequence. -/
  | control
  /-- At the start of a device control string. -/
  | device
  /-- In the parameters of a device control string. -/
  | deviceParameter
  /-- In the intermediate characters of a device control string. -/
  | deviceIntermediate
  /-- In a string that only a string terminator ends. -/
  | string
  /-- In an operating system command, which a bell ends. -/
  | command
  deriving DecidableEq, Repr

/-- Whether the code of a character lies between two bounds. -/
def codeBetween (c : Char) (first last : Nat) : Bool :=
  first ≤ c.toNat && c.toNat ≤ last

/-- Whether the byte of the string terminator occurs in the encoding of a
character. -/
def holdsTerminator (c : Char) : Bool :=
  (String.utf8EncodeChar c).contains 0x9c

/-- The place behind a character that is not shown. An escape character starts
a sequence anywhere, and the characters for cancel and substitute abort one. -/
def Sequence.next (place : Sequence) (c : Char) : Sequence :=
  if c = '\x1b' then .escape
  else if c = '\x18' || c = '\x1a' then .plain
  else
    match place with
    | .plain => .plain
    | .escape =>
      if codeBetween c 0x20 0x2f then .escapeIntermediate
      else if c = '[' then .control
      else if c = ']' then .command
      else if c = 'P' then .device
      else if c = 'X' || c = '^' || c = '_' then .string
      else if codeBetween c 0x30 0x7e then .plain
      else .escape
    | .escapeIntermediate => if codeBetween c 0x30 0x7e then .plain else .escapeIntermediate
    | .control => if codeBetween c 0x40 0x7e then .plain else .control
    | .device =>
      if codeBetween c 0x20 0x2f then .deviceIntermediate
      else if codeBetween c 0x30 0x3f then .deviceParameter
      else if codeBetween c 0x40 0x7e then .string
      else .device
    | .deviceParameter =>
      if codeBetween c 0x20 0x2f then .deviceIntermediate
      else if codeBetween c 0x3c 0x7e then .string
      else .deviceParameter
    | .deviceIntermediate => if codeBetween c 0x30 0x7e then .string else .deviceIntermediate
    | .string => if holdsTerminator c then .plain else .string
    | .command => if c = '\x07' then .plain else .command

/-- Whether a character moves the place of writing within or between lines. -/
def isLayout (c : Char) : Bool :=
  c = '\t' || c = '\n' || c = '\x0c' || c = '\r'

/-- Whether a character is drawn, or takes part in the layout of what is. -/
def isDrawn (c : Char) : Bool :=
  isLayout c || (0x20 ≤ c.toNat && c.toNat ≠ 0x7f)

/-- Whether a character is shown at a place. Layout characters take effect in
the middle of short sequences too, but not in strings and commands. -/
def Sequence.shows (place : Sequence) (c : Char) : Bool :=
  match place with
  | .plain => isDrawn c
  | .escape | .escapeIntermediate | .control => isLayout c
  | .device | .deviceParameter | .deviceIntermediate | .string | .command => false

/-- The progress of filtering a text. -/
structure Filter where
  /-- The sequence that the text read so far ends in. -/
  place : Sequence := .plain
  /-- Whether the last character was shown. What is drawn right behind it is
  shown too, although a sequence may be open. -/
  showing : Bool := false
  /-- The characters shown so far, in reverse order. -/
  shown : List Char := []
  deriving DecidableEq, Repr

/-- Filters one more character. Behind a shown character, one outside the basic
set closes an open sequence. -/
def Filter.step (filter : Filter) (c : Char) : Filter :=
  if (if filter.showing then isDrawn c else filter.place.shows c) then
    { place := if filter.showing && 0x80 ≤ c.toNat then .plain else filter.place
      showing := true
      shown := c :: filter.shown }
  else { filter with place := filter.place.next c, showing := false }

/-- What is visible of a text. -/
def visible (text : String) : String :=
  String.ofList (text.toList.foldl Filter.step {}).shown.reverse

end Calculator
