import Querent.CommandLine.Options
import Querent.Connection
import Querent.Json.Printer
import Querent.Statement.Script

/-!
# Running a script

The program connects, sends the statements of a script one after the other
until one fails, prints what they deliver, and closes the connection.
-/

namespace Querent.CommandLine

/-- Why the program fails. -/
inductive Failure where
  | error (e : Error)
  /-- standard input is no text -/
  | notText
  | cannotConnect (e : Error)
  | cannotUse (database : String) (e : Error)
  /-- a result with an error of the server -/
  | refused (code : Code) (details : String)
  /-- an error of the server while rows are read -/
  | fetchRefused (e : Error)
  | cannotFetch (e : Error)
  | unexpected (kind : ResultKind)
  deriving DecidableEq, Repr

def Failure.message : Failure → String
  | error e => e.message
  | notText => "stream did not contain valid UTF-8"
  | cannotConnect e => "cannot get connection: " ++ e.message
  | cannotUse database e => s!"cannot use database {database}: {e.message}"
  | refused code details => s!"ERROR {code.text}: {details}"
  | fetchRefused e => "ERROR " ++ e.message
  | cannotFetch e => "cannot fetch: " ++ e.message
  | unexpected kind => "unexpected result: " ++ kind.name

/-- The exit code of the program. -/
def exitCode : Except Failure Unit → UInt32
  | .ok () => 0
  | .error _ => 1

/-- A line that the program prints. -/
inductive Line where
  /-- a row, on standard output -/
  | output (s : String)
  /-- feedback, on standard error -/
  | feedback (s : String)
  /-- the processing time of a statement, on standard error -/
  | elapsed (microseconds : Nat)
  deriving DecidableEq, Repr

/-- The text of a line with feedback on the processing time. -/
def elapsedText (microseconds : String) : String := "processing time: " ++ microseconds ++ "us"

/-- What was printed, and how it ended; `none` if the fuel ran out. -/
structure Outcome where
  lines : List Line
  result : Option (Except Failure Unit)
  deriving Repr

namespace Outcome

def failed (f : Failure) : Outcome := ⟨[], some (.error f)⟩

/-- The outcome after these lines. -/
def after (lines : List Line) (o : Outcome) : Outcome := { o with lines := lines ++ o.lines }

end Outcome

/-- A row in the format. -/
def Format.row (f : Format) (row : Row) : String :=
  match f with
  | .text => row.display
  | .json => row.toJson.print

/-- What an error while rows are read means for the program. -/
def rowFailure (e : Error) : Failure :=
  match e with
  | .server .. => .fetchRefused e
  | _ => .cannotFetch e

/-- What an error in connecting means for the program. -/
def connectFailure (config : Config) (e : Error) : Failure :=
  match config.database, e with
  | some database, .server .. => .cannotUse database e
  | _, _ => .cannotConnect e

/-- Feedback, unless the program is to be quiet. -/
def Options.feedback (o : Options) (s : String) : List Line :=
  if o.quiet then [] else [.feedback s]

variable {σ : Type} (L : Library σ) (fuel : Nat) (clock : StateM σ Nat) (o : Options)

/-- Prints the rows of a result, up to the error that ends them. -/
def printRows (res : QueryResult) : Action σ Outcome := do
  let (rows, cursor) ← (Cursor.ofResult res).collect L fuel
  cursor.drop L
  let format := o.format.getD .text
  return match rows with
    | none => ⟨[], none⟩
    | some (rows, e) =>
      ⟨rows.map fun row => .output (format.row row), some (match e with
        | some e => .error (rowFailure e)
        | none => .ok ())⟩

/-- Prints what a result without an error says. -/
def printResult (res : QueryResult) : Action σ Outcome := do
  let (kind, res) ← res.kind L
  match kind with
  | .status =>
    res.drop L
    return ⟨o.feedback "OK", some (.ok ())⟩
  | .report =>
    let (report, res) ← res.report L
    res.drop L
    return match report with
      | .ok r =>
        ⟨[.feedback s!"{r.affected.toNat} rows affected", .feedback s!"{r.errors.toNat} errors",
          .feedback s!"{r.runtime.toNat}us running time"], some (.ok ())⟩
      | .error e => .failed (.error e)
  | .cursor | .row => printRows L fuel o res
  | other =>
    res.drop L
    return .failed (.unexpected other)

/-- The error of a result, if it has one that counts. -/
def refusal? (res : QueryResult) : Action σ (Option Failure) := do
  if ← res.isOk L then return none
  else if (← res.code L) = Code.endOfData then return none
  else
    let code ← res.code L
    return some (.refused code (← res.details L))

/-- Sends a statement and prints what comes of it. -/
def send (con : Connection) (statement : String) : Action σ Outcome := do
  match ← con.execute L statement with
  | .error e => return .failed (.error e)
  | .ok res =>
    match ← refusal? L res with
    | some f =>
      res.drop L
      return .failed f
    | none => printResult L fuel o res

/-- Handles one statement, with feedback. -/
def handle (con : Connection) (statement : String) : Action σ Outcome := do
  let started ← call clock
  let sent ← send L fuel o con statement
  let time ← do
    match sent.result with
    | some (.ok ()) =>
      if o.timing then pure [Line.elapsed ((← call clock) - started)] else pure []
    | _ => pure []
  return { sent with
    lines := o.feedback ("executing \"" ++ statement ++ "\"") ++ sent.lines ++ time }

/-- Handles statements up to the first that fails. -/
def handleAll (con : Connection) : List String → Action σ Outcome
  | [] => return ⟨[], some (.ok ())⟩
  | statement :: rest => do
    let first ← handle L fuel clock o con statement
    match first.result with
    | some (.ok ()) => return (← handleAll con rest).after first.lines
    | _ => return first

/-- Connects, handles the statements, and closes the connection. A failure to
close it counts more than one of the statements. -/
def session (config : Config) (statements : List String) : Action σ Outcome := do
  match ← Connection.connect L config with
  | .error e => return .failed (connectFailure config e)
  | .ok con =>
    let handled ← handleAll L fuel clock o con statements
    let closed ← con.close L
    con.drop L
    return match closed with
      | .ok () => handled
      | .error e => { handled with result := handled.result.map fun _ => .error (.error e) }

/-- The script: the query with a semicolon after it, or standard input. -/
def Options.script (o : Options) (input : Option String) : Except Failure String :=
  match o.query, input with
  | some query, _ => .ok (query ++ ";")
  | none, some input => .ok input
  | none, none => .error .notText

/-- What the program is to do: its configuration and the statements. -/
def prepare (env : Environment) (input : Option String) :
    Except Failure (Config × List String) := do
  let config ← (o.config env).mapError .error
  let script ← o.script input
  let statements ← (Script.statements script).mapError .error
  return (config, statements)

/-- Runs the program. `load` gives the library of a path, if it can be loaded. -/
def run (load : String → Option (Library σ)) (env : Environment) (input : Option String) :
    StateM σ Outcome := do
  match prepare o env input with
  | .error f => return .failed f
  | .ok (config, statements) =>
    match load config.library with
    | none =>
      return .failed (.cannotConnect (.library ("failed to load '" ++ config.library ++ "'")))
    | some L => fun lib =>
      let (outcome, world) := session L fuel clock o config statements (.start lib)
      (outcome, world.lib)

end Querent.CommandLine
