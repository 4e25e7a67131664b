import Querent.Config.Basic
import Querent.Result.Cursor
import Querent.Text.Literal

/-!
# Connections

A connection is a holder of a session; its clones are others. Statements go
through it while the session is open.
-/

namespace Querent

structure Connection where
  session : SessionId
  deriving DecidableEq, Repr

namespace Connection

variable {σ : Type} (L : Library σ)

/-- Sends one statement. A result with an error of the server is a result. -/
def execute (c : Connection) (statement : String) : Action σ (Except Error QueryResult) := do
  match passable? statement with
  | .error e => return .error e
  | .ok statement =>
    match ← Session.handle? c.session with
    | none => return .error .connectionClosed
    | some con =>
      match ← call (L.client.execute con statement) with
      | .error code => return .error (.client code (← call (L.client.explain code)))
      | .ok handle =>
        Session.join c.session
        return .ok (.new handle (some c.session))

/-- Makes `name` the database that statements run against. -/
def useDatabase (c : Connection) (name : String) : Action σ (Except Error Unit) := do
  match ← c.execute L ("use " ++ name) with
  | .error e => return .error e
  | .ok res =>
    let outcome ← do
      if ← res.isOk L then pure (.ok ()) else .error <$> res.error L
    res.drop L
    return outcome

/-- Closes the session; nothing to do if it is closed. -/
def close (c : Connection) : Action σ (Except Error Unit) := Session.close L c.session

def isClosed (c : Connection) : Action σ Bool := do
  return (← Session.handle? c.session).isNone

/-- The host and port that the connection was opened to. -/
def peer (c : Connection) : Action σ String := Session.peerOf c.session

/-- The peer and the state of the connection, for a reader. -/
def describe (c : Connection) : Action σ String := do
  let peer := Text.Literal.print (← c.peer)
  let closed := if ← c.isClosed then "true" else "false"
  return "Connection \x7b peer: " ++ peer ++ ", closed: " ++ closed ++ " \x7d"

/-- Another holder of the same session. -/
def clone (c : Connection) : Action σ Connection := do
  Session.join c.session
  return c

/-- Ends this holder of the session. -/
def drop (c : Connection) : Action σ Unit := Session.leave L c.session

/-- The connect call of a configuration, if its texts can be passed. -/
def request (config : Config) : Except Error ConnectRequest := do
  let host ← passable? config.host
  let user ← config.user.mapM passable?
  let password ← config.password.mapM passable?
  return ⟨host, config.port, user, password, config.encoding.flags⟩

/-- Opens a connection, without using a database. -/
def dial (config : Config) : Action σ (Except Error Connection) := do
  match request config with
  | .error e => return .error e
  | .ok req =>
    match ← call (L.client.connect req) with
    | .error code => return .error (.client code (← call (L.client.explain code)))
    | .ok con => return .ok ⟨← Session.start con config.peer⟩

/-- Connects and uses the database of the configuration, or neither. -/
def connect (config : Config) : Action σ (Except Error Connection) := do
  match ← dial L config with
  | .error e => return .error e
  | .ok c =>
    match config.database with
    | none => return .ok c
    | some name =>
      match ← c.useDatabase L name with
      | .ok () => return .ok c
      | .error e =>
        c.drop L
        return .error e

/-- Executes a statement and collects its rows, or the first error. The fuel
bounds the number of rows. -/
def rows (fuel : Nat) (c : Connection) (statement : String) :
    Action σ (Option (Except Error (List Row))) := do
  match ← c.execute L statement with
  | .error e => return some (.error e)
  | .ok res =>
    let (rows, cursor) ← (Cursor.ofResult res).collect L fuel
    cursor.drop L
    return rows.map fun
      | (_, some e) => .error e
      | (rows, none) => .ok rows

end Connection

end Querent
