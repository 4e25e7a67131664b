import Querent.Result.Cursor

/-!
# Procedures

A procedure runs inside the server, against a database handle that it was
given. Its results belong to no session.
-/

namespace Querent

structure Procedure where
  db : Handle
  deriving DecidableEq, Repr

/-- The results that a procedure makes. -/
inductive Making where
  | wrap
  | success
  | error
  | report
  | row
  deriving DecidableEq, Repr

def Making.name : Making → String
  | wrap => "wrap"
  | success => "success"
  | error => "error"
  | report => "report"
  | row => "row"

/-- The library made no result. -/
def Making.failure (m : Making) : Error :=
  .server Code.noMemory s!"cannot create {m.name} result"

namespace Procedure

variable {σ : Type} (L : Library σ)

/-- A procedure on a database handle, which is zero for none. -/
def ofDatabase (db : Nat) : Except Error Procedure :=
  if db = 0 then .error (.invalidArgument .nullDatabase) else .ok ⟨⟨db⟩⟩

/-- Runs a statement against the database. -/
def execute (p : Procedure) (statement : String) : Action σ (Except Error QueryResult) := do
  match passable? statement with
  | .error e => return .error e
  | .ok statement =>
    match ← call (L.host.execute p.db statement) with
    | .ok handle => return .ok (.new handle none)
    | .error code => return .error (.server code code.name)

/-- The result of a handle that the library made, if it did. -/
def made (m : Making) (handle : Option Handle) : Except Error QueryResult :=
  match handle with
  | some handle => .ok (.new handle none)
  | none => .error m.failure

/-- Takes over one of the engine's results. -/
def wrap (raw : Handle) : Action σ (Except Error QueryResult) :=
  return made .wrap (← call (L.host.wrap raw))

def success : Action σ (Except Error QueryResult) :=
  return made .success (← call L.host.makeSuccess)

def error (code : Code) (text : String) : Action σ (Except Error QueryResult) := do
  match passable? text with
  | .error e => return .error e
  | .ok text => return made .error (← call (L.host.makeError code text))

def report (r : Report) : Action σ (Except Error QueryResult) :=
  return made .report (← call (L.host.makeReport r))

end Procedure

end Querent
