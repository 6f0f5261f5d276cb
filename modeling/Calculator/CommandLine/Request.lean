/-!
# Requests of the command line

The arguments are switches followed by an expression. Switches are recognised
only in front of the first argument that is none, and a double hyphen ends them
too; everything behind belongs to the expression.

The program leaves this to an argument parser, to which it declares the flags
`parse` and `debug`, each with a short form, and a list of trailing values that
may begin with hyphens. The definitions here realise what the argument parser
documents for such a declaration:

* it adds the switches for help and the version by itself;
* a long switch is given by its full name, and what stands behind an equals sign
  is a value for it;
* short switches may stand together behind one hyphen;
* an argument that begins with a hyphen and is no switch is a value of the list;
* the first value of the list ends the switches, and so does a double hyphen,
  which is dropped;
* a flag takes no value and is given once at most;
* the arguments are read from left to right, and help, the version or a mistake
  ends the reading where it is met.
-/

namespace Calculator.CommandLine

/-- The switches of the command line. -/
inductive Switch where
  /-- Prints the tree in place of its value. -/
  | parse
  /-- Traces the parser. -/
  | debug
  /-- Asks for help. -/
  | help
  /-- Asks for the version. -/
  | version
  deriving DecidableEq, Repr

/-- The long name of a switch, without its hyphens. -/
def Switch.name : Switch → List Char
  | .parse => ['p', 'a', 'r', 's', 'e']
  | .debug => ['d', 'e', 'b', 'u', 'g']
  | .help => ['h', 'e', 'l', 'p']
  | .version => ['v', 'e', 'r', 's', 'i', 'o', 'n']

/-- The switch with a long name. -/
def Switch.ofName? (name : List Char) : Option Switch :=
  [parse, debug, help, version].find? fun switch => switch.name = name

/-- The switch with a letter as its short name. -/
def Switch.ofLetter? : Char → Option Switch
  | 'p' => some .parse
  | 'd' => some .debug
  | 'h' => some .help
  | 'V' => some .version
  | _ => none

/-- What an argument is, as long as switches are recognised. -/
inductive Argument where
  /-- One long switch, or several short ones. -/
  | switches (list : List Switch)
  /-- A long switch with a value, which no switch takes. -/
  | valued (switch : Switch) (value : String)
  /-- The double hyphen that ends the switches. -/
  | separator
  /-- The first piece of the expression. -/
  | piece
  deriving DecidableEq, Repr

/-- Classifies what follows two hyphens. The name of a switch ends at the first
equals sign. -/
def Argument.ofLong (text : List Char) : Argument :=
  match Switch.ofName? (text.takeWhile (· ≠ '=')), text.dropWhile (· ≠ '=') with
  | none, _ => .piece
  | some switch, [] => .switches [switch]
  | some switch, _ :: value => .valued switch (String.ofList value)

/-- Classifies an argument. A single hyphen introduces short switches only if
every letter behind it is one; otherwise the argument is a piece of the
expression, such as a negative number. -/
def Argument.ofString (text : String) : Argument :=
  match text.toList with
  | ['-', '-'] => .separator
  | '-' :: '-' :: long => .ofLong long
  | '-' :: letter :: letters =>
    match (letter :: letters).mapM Switch.ofLetter? with
    | some list => .switches list
    | none => .piece
  | _ => .piece

/-- The switches that concern the calculation. -/
structure Options where
  /-- Whether to print the tree in place of its value. -/
  parse : Bool := false
  /-- Whether to trace the parser. -/
  debug : Bool := false
  deriving DecidableEq, Repr

/-- What the command line asks for. -/
inductive Request where
  /-- To print the help text. -/
  | help
  /-- To print the version. -/
  | version
  /-- Nothing, since a switch is given twice. -/
  | repeated (switch : Switch)
  /-- Nothing, since a switch is given a value. The options set before it are
  kept for the report. -/
  | valued (earlier : Options) (switch : Switch) (value : String)
  /-- To calculate an expression. -/
  | calculate (options : Options) (expression : String)
  deriving DecidableEq, Repr

/-- Sets a switch, or ends with the request that it makes at once. -/
def Options.set (options : Options) : Switch → Except Request Options
  | .parse => if options.parse then .error (.repeated .parse) else .ok { options with parse := true }
  | .debug => if options.debug then .error (.repeated .debug) else .ok { options with debug := true }
  | .help => .error .help
  | .version => .error .version

/-- The expression that is calculated when none is given. -/
def defaultExpression : String := "12 * (5 - 6)"

/-- The expression that is made of the given pieces. -/
def expressionOf : List String → String
  | [] => defaultExpression
  | pieces => " ".intercalate pieces

/-- Reads the remaining arguments once some options are set. -/
def Options.read (options : Options) : List String → Request
  | [] => .calculate options (expressionOf [])
  | argument :: rest =>
    match Argument.ofString argument with
    | .switches list =>
      match list.foldlM Options.set options with
      | .ok options => options.read rest
      | .error request => request
    | .valued switch value => .valued options switch value
    | .separator => .calculate options (expressionOf rest)
    | .piece => .calculate options (expressionOf (argument :: rest))

/-- The request that a list of arguments makes. -/
def Request.ofArguments (arguments : List String) : Request :=
  Options.read {} arguments

end Calculator.CommandLine
