import Calculator.Parse
import Calculator.CommandLine.Request
import Calculator.Text.Visible

/-!
# Outcomes of the command line

What the program prints and with which status it ends. A calculation logs to
the error output: the expression if the log level asks for it, the trace if the
`debug` switch is set, and at last the message of a fault.

Two parts of this are not the program's own, and the definitions realise what is
documented of them. The argument parser words the help, the version and its
complaints:

* help and the version go to the standard output, with the status 0;
* a mistake in the arguments goes to the error output, with a usage that fits the
  arguments in front of it, and the status 2.

The logger, which the program sets up without times, decides what is logged and
writes the lines:

* without a setting only warnings and errors are logged, and a setting that is
  the name of a level puts this level in their place;
* the `debug` switch sets the level of the trace by itself, whatever the setting;
* a line is the level, filled up to five characters, and the target in brackets,
  and then the message, whose later lines are indented by four spaces;
* of a line only what is visible is written.

The message of a fault does not go through the logger and is written as it is.
-/

namespace Calculator.CommandLine

/-- How much is logged. -/
inductive Level where
  | off
  | error
  | warn
  | info
  | debug
  | trace
  deriving DecidableEq, Repr

/-- The level with a name, in any case. -/
def Level.ofName? (name : String) : Option Level :=
  match name.toLower with
  | "off" => some .off
  | "error" => some .error
  | "warn" => some .warn
  | "info" => some .info
  | "debug" => some .debug
  | "trace" => some .trace
  | _ => none

/-- The level of a setting that is the name of a level and nothing more. Without a
setting, warnings are logged. The logger also takes lists of levels, levels for
single targets and patterns for messages. These are outside the model, which
treats them as if there were no setting: what is stated for every setting concerns
the program where there is none or it names a level. -/
def Level.ofSetting (setting : Option String) : Level :=
  (setting.bind Level.ofName?).getD .warn

/-- Whether a level includes informational messages. -/
def Level.showsInfo : Level → Bool
  | .off | .error | .warn => false
  | .info | .debug | .trace => true

/-- The effect of running the program. -/
structure Outcome where
  /-- The exit status. -/
  status : Nat
  /-- The text on the standard output. -/
  stdout : String := ""
  /-- The text on the error output. -/
  stderr : String := ""
  deriving DecidableEq, Repr

/-- Indents the lines of a message after the first one. -/
def indented (message : String) : String :=
  String.ofList (message.toList.flatMap fun c =>
    if c = '\n' then ['\n', ' ', ' ', ' ', ' '] else [c])

/-- A line of the log. -/
def logLine (label message : String) : String :=
  label ++ " " ++ indented message ++ "\n"

/-- The line that announces an expression, as far as it is visible. A string or
command sequence that the expression leaves open hides the end of the line. -/
def infoLine (expression : String) : String :=
  visible (logLine "[INFO  exprtree]" ("expression: " ++ expression))

/-- The line of a trace record. Records hold no control characters, so the whole
line is visible. -/
def traceLine (record : Record) : String :=
  logLine "[DEBUG exprtree::trace]" record.text

/-- The text that answers a request for help. -/
def helpText : String :=
  String.join <| List.map (· ++ "\n") [
    "Parses arithmetic expressions into a tree and evaluates them.",
    "",
    "Usage: exprtree [OPTIONS] [EXPRESSION]...",
    "",
    "Arguments:",
    "  [EXPRESSION]...  The expression. Multiple arguments are joined with spaces",
    "",
    "Options:",
    "  -p, --parse    Print the parsed tree in postfix notation instead of its value",
    "  -d, --debug    Trace every grammar rule and token the parser goes through",
    "  -h, --help     Print help",
    "  -V, --version  Print version"]

/-- The text that answers a request for the version. -/
def versionText : String := "exprtree 0.1.0\n"

/-- The text about a mistake in the arguments, with the usage it goes against. -/
def usageText (mistake usage : String) : String :=
  "error: " ++ mistake ++ "\n\nUsage: exprtree " ++ usage ++
    "\n\nFor more information, try '--help'.\n"

/-- A switch as it is typed by its long name. -/
def Switch.text (switch : Switch) : String :=
  "--" ++ String.ofList switch.name

/-- Whether a switch is one of those that concern the calculation. -/
def Switch.isOption : Switch → Bool
  | .parse | .debug => true
  | .help | .version => false

/-- The usage shown to someone who gave a switch a value. If options were set
before, all arguments that concern the calculation are shown as alternatives,
behind a switch that is none of them. -/
def Switch.usage (switch : Switch) (earlier : Options) : String :=
  if earlier.parse || earlier.debug then
    (if switch.isOption then "" else switch.text ++ " ") ++ "<--parse|--debug|EXPRESSION>"
  else switch.text ++ " [EXPRESSION]..."

/-- Calculates an expression. -/
def Options.calculate (options : Options) (level : Level) (expression : String) : Outcome :=
  let settings : Settings := { traced := options.debug }
  let reading := settings.read expression
  let info := if level.showsInfo then infoLine expression else ""
  let trace := String.join (reading.2.tracer.records.toList.map traceLine)
  match reading.1 with
  | .ok tree =>
    let answer := if options.parse then tree.render else Number.pointedText tree.evaluate
    { status := 0, stdout := answer ++ "\n", stderr := info ++ trace }
  | .error fault => { status := 1, stderr := info ++ trace ++ fault.message ++ "\n" }

/-- Answers a request. -/
def Request.answer (level : Level) : Request → Outcome
  | .help => { status := 0, stdout := helpText }
  | .version => { status := 0, stdout := versionText }
  | .repeated switch =>
    { status := 2
      stderr := usageText ("the argument '" ++ switch.text ++ "' cannot be used multiple times")
        "[OPTIONS] [EXPRESSION]..." }
  | .valued earlier switch value =>
    { status := 2
      stderr := usageText ("unexpected value '" ++ visible value ++ "' for '" ++ switch.text ++
        "' found; no more were expected") (switch.usage earlier) }
  | .calculate options expression => options.calculate level expression

/-- The effect of running the program with some arguments and a setting of the
log level, which is missing or the name of a level. `Level.ofSetting` says what
becomes of other settings. -/
def run (arguments : List String) (setting : Option String) : Outcome :=
  (Request.ofArguments arguments).answer (Level.ofSetting setting)

end Calculator.CommandLine
