import Calculator.CommandLine.Outcome

/-!
# The program

Passes the arguments and the environment to the command line, and carries out
its outcome.
-/

namespace Calculator.CommandLine

/-- The environment variable that sets the log level. -/
def levelVariable : String := "RUST_LOG"

end Calculator.CommandLine

open Calculator.CommandLine in
/-- Runs the program. -/
def main (arguments : List String) : IO UInt32 := do
  let setting ← IO.getEnv levelVariable
  let outcome := run arguments setting
  IO.print outcome.stdout
  IO.eprint outcome.stderr
  return outcome.status.toUInt32
