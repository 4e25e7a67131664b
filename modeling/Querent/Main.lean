import Querent.CommandLine.Run

/-!
# The command line client

Sends the statements of a query or of standard input to a server. Libraries
are linked into a build; this one has none, so that no path can be loaded.
-/

namespace Querent.CommandLine

def usage : String :=
  "Send statements to a NoWDB server

Usage: nowclient [OPTIONS]

Options:
  -s, --server <SERVER>      Node name or address
  -p, --port <PORT>          Port
  -d, --database <DATABASE>  Database to use
  -Q, --query <QUERY>        Statement to execute; statements are read from stdin otherwise
  -t, --timing               Print the processing time of each statement
  -q, --quiet                No feedback on stderr
  -u, --user <USER>          User name
      --password <PASSWORD>
      --library <LIBRARY>    Path to libnowdbclient.so
      --format <FORMAT>      Output format for rows: text or json
  -h, --help                 Print help
  -V, --version              Print version"

/-- The libraries of this build, by path. -/
def libraries (_ : String) : Option (Library Unit) := none

/-- The most rows of one result. -/
def maxRows : Nat := 0x7FFFFFFFFFFFFFFF

def readEnvironment : IO Environment := do
  let names := ["NOWDB_LIBRARY", "NOWDB_HOST", "NOWDB_PORT", "NOWDB_USER", "NOWDB_PASSWORD",
    "NOWDB_DATABASE"]
  let values ← names.mapM fun name => IO.getEnv name
  let given := names.zip values
  return fun name => (given.find? (·.1 = name)).bind (·.2)

/-- All of standard input, if it is a text. -/
def readInput : IO (Option String) := do
  let stdin ← IO.getStdin
  try return some (← stdin.readToEnd)
  catch _ => return none

def printLine (line : Line) : IO Unit :=
  match line with
  | .output s => IO.println s
  | .feedback s => IO.eprintln s
  | .elapsed microseconds => IO.eprintln (elapsedText (toString microseconds))

/-- Reports arguments that are not taken. -/
def reportUsage (e : UsageError) : IO UInt32 := do
  match e with
  | .displayHelp =>
    IO.println usage
    return 0
  | .displayVersion =>
    IO.println "nowclient 0.1.0"
    return 0
  | e =>
    IO.eprintln ("error: " ++ e.name ++ "\n\n" ++ usage)
    return 2

end Querent.CommandLine

open Querent.CommandLine in
/-- Runs the program with the arguments, the environment and standard input. -/
def main (args : List String) : IO UInt32 := do
  match Options.ofArguments args with
  | .error e => reportUsage e
  | .ok o =>
    let env ← readEnvironment
    let input ← if o.query.isSome then pure none else readInput
    let (outcome, _) := run maxRows (pure 0) o libraries env input ()
    outcome.lines.forM printLine
    match outcome.result with
    | some result =>
      if let .error f := result then IO.eprintln f.message
      return exitCode result
    | none => return 1
