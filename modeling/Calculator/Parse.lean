import Calculator.Descent
import Calculator.Tree.Evaluation
import Calculator.Tree.Render

/-!
# Parsing and evaluating texts

The public functions: a text is parsed into a tree, which can be evaluated or
rendered.
-/

namespace Calculator

/-- How a text is to be parsed. -/
structure Settings where
  /-- Whether to record the rules and lexemes that parsing goes through. -/
  traced : Bool := false
  /-- How many groups may be open at once. -/
  limit : Nat := 256
  deriving DecidableEq, Repr

/-- Reads a text to its end, or to its first fault. -/
def Settings.read (settings : Settings) (source : String) : Reading :=
  (Cursor.ofSource source { enabled := settings.traced } settings.limit).expression

/-- The tree of a text. -/
def Settings.parse (settings : Settings) (source : String) : Except Fault Tree :=
  (settings.read source).1

/-- What is recorded while a text is parsed. -/
def Settings.records (settings : Settings) (source : String) : List Record :=
  (settings.read source).2.tracer.records.toList

/-- The rendered tree of a text. -/
def Settings.render (settings : Settings) (source : String) : Except Fault String :=
  (settings.parse source).map Tree.render

/-- The value of a text. -/
def Settings.evaluate (settings : Settings) (source : String) : Except Fault Float :=
  (settings.parse source).map Tree.evaluate

/-- The tree of a text, with the usual settings. -/
def parse (source : String) : Except Fault Tree :=
  Settings.parse {} source

/-- The value of a text, with the usual settings. -/
def evaluate (source : String) : Except Fault Float :=
  Settings.evaluate {} source

end Calculator
