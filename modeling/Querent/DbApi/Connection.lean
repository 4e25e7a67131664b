import Querent.DbApi.Cursor

/-!
# DB-API connections

A connection of the DB-API hands out cursors. The server has no transactions:
commit and rollback have nothing to do.
-/

namespace Querent.DbApi

structure Connection where
  inner : Querent.Connection
  deriving DecidableEq, Repr

namespace Connection

variable {σ : Type} (L : Library σ)

/-- Connects and uses the database of the configuration, or neither. -/
def connect (config : Config) : Action σ (Except Error Connection) := do
  match ← Querent.Connection.connect L { config with database := none } with
  | .error e => return .error (.cannotConnect e)
  | .ok con =>
    match config.database with
    | none => return .ok ⟨con⟩
    | some db =>
      match ← con.execute L ("use " ++ db) with
      | .error e =>
        con.drop L
        return .error (.cannotSendUse e)
      | .ok res =>
        if ← res.isOk L then
          res.drop L
          return .ok ⟨con⟩
        else
          res.drop L
          let _ ← con.close L
          con.drop L
          return .error (.cannotUse db)

def close (c : Connection) : Action σ (Except Error Unit) := do
  return (← c.inner.close L).mapError .failure

def isClosed (c : Connection) : Action σ Bool := c.inner.isClosed

def peer (c : Connection) : Action σ String := c.inner.peer

/-- A new cursor, while the connection is open. -/
def cursor (c : Connection) : Action σ (Except Error Cursor) := do
  if ← c.isClosed then return .error .noConnection
  else return .ok (.ofConnection (← c.inner.clone))

/-- A new cursor that has executed a statement. -/
def execute (fuel : Nat) (c : Connection) (op : String) (params : List Value)
    (format : RowFormat) : Action σ (Option (Except Error Cursor)) := do
  match ← c.cursor with
  | .error e => return some (.error e)
  | .ok cur =>
    match ← { cur with format }.execute L fuel op params with
    | (some (.ok ()), cur) => return some (.ok cur)
    | (some (.error e), cur) =>
      cur.drop L
      return some (.error e)
    | (none, cur) =>
      cur.drop L
      return none

/-- Another connection of the DB-API on the same session. -/
def clone (c : Connection) : Action σ Connection := do
  return ⟨← c.inner.clone⟩

def drop (c : Connection) : Action σ Unit := c.inner.drop L

end Connection

end Querent.DbApi
