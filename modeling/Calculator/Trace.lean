import Calculator.Token

/-!
# Traces

A tracer records how the rules of the grammar go through a text: each rule
entered and left, with the lexeme then ahead, and each lexeme consumed. A record
remembers how many rules were open, which becomes its indentation.
-/

namespace Calculator

/-- One step of going through a text. -/
inductive Event where
  /-- A rule was entered with this lexeme ahead. -/
  | enter (rule : String) (ahead : Lexeme)
  /-- A rule was left with this lexeme ahead. -/
  | exit (rule : String) (ahead : Lexeme)
  /-- This lexeme was consumed. -/
  | consume (lexeme : Lexeme)
  deriving DecidableEq

/-- An event and the number of rules open around it. -/
structure Record where
  /-- The number of open rules. -/
  depth : Nat
  /-- What happened. -/
  event : Event
  deriving DecidableEq

/-- How a record shows a lexeme: the kind of its token and its text. -/
def Lexeme.description (lexeme : Lexeme) : String :=
  lexeme.token.kind ++ " " ++ lexeme.token.text

/-- The text of an event, without indentation. -/
def Event.text : Event → String
  | .enter rule ahead => "enter   " ++ rule ++ ", LT(1)=" ++ ahead.description
  | .exit rule ahead => "exit    " ++ rule ++ ", LT(1)=" ++ ahead.description
  | .consume lexeme =>
    "consume " ++ lexeme.description ++ s!" at {lexeme.start}..{lexeme.stop}"

/-- The text of a record, indented by two spaces for every open rule. -/
def Record.text (record : Record) : String :=
  String.ofList (List.replicate (2 * record.depth) ' ') ++ record.event.text

/-- Collects records while it is enabled, and does nothing otherwise. -/
structure Tracer where
  /-- Whether events are recorded. -/
  enabled : Bool := false
  /-- The number of rules that are open now. -/
  depth : Nat := 0
  /-- The records so far, oldest first. -/
  records : Array Record := #[]
  deriving DecidableEq

/-- Records that a rule is entered, which opens it. -/
def Tracer.enter (tracer : Tracer) (rule : String) (ahead : Lexeme) : Tracer :=
  if tracer.enabled then
    { tracer with
      depth := tracer.depth + 1
      records := tracer.records.push ⟨tracer.depth, .enter rule ahead⟩ }
  else tracer

/-- Records that a rule is left, which closes the innermost open one. -/
def Tracer.exit (tracer : Tracer) (rule : String) (ahead : Lexeme) : Tracer :=
  if tracer.enabled then
    { tracer with
      depth := tracer.depth - 1
      records := tracer.records.push ⟨tracer.depth - 1, .exit rule ahead⟩ }
  else tracer

/-- Records that a lexeme is consumed. -/
def Tracer.consume (tracer : Tracer) (lexeme : Lexeme) : Tracer :=
  if tracer.enabled then
    { tracer with records := tracer.records.push ⟨tracer.depth, .consume lexeme⟩ }
  else tracer

end Calculator
