import Querent.DbApi.Connection
import Querent.Procedure.RowBuilder

/-!
# Objects of a workspace

The objects that a program can hold, under names of its own. Each ends in its
own way, and what it holds ends with it.
-/

namespace Querent.Workspace

inductive Object where
  | connection (c : Connection)
  | result (r : QueryResult)
  | batch (b : Batch)
  | cursor (c : Cursor)
  | dbConnection (c : DbApi.Connection)
  | dbCursor (c : DbApi.Cursor)
  | procedure (p : Procedure)
  | rowBuilder (b : RowBuilder)
  /-- a handle that a result gave up: nothing is released with it -/
  | raw (h : Handle)
  deriving DecidableEq, Repr

variable {σ : Type} (L : Library σ)

def Object.drop : Object → Action σ Unit
  | connection c => c.drop L
  | result r => r.drop L
  | batch b => b.release L
  | cursor c => c.drop L
  | dbConnection c => c.drop L
  | dbCursor c => c.drop L
  | procedure _ => pure ()
  | rowBuilder b => b.drop L
  | raw _ => pure ()

/-- Objects by name, in the order of their names. -/
abbrev Slots := List (String × Object)

namespace Slots

def get? (s : Slots) (name : String) : Option Object := (s.find? (·.1 = name)).map (·.2)

def erase (s : Slots) (name : String) : Slots := s.filter (·.1 ≠ name)

/-- Puts an object under a name, in place of the one that was there. -/
def set (name : String) (o : Object) : Slots → Slots
  | [] => [(name, o)]
  | (n, p) :: rest =>
    if n = name then (name, o) :: rest
    else if name < n then (name, o) :: (n, p) :: rest
    else (n, p) :: set name o rest

end Slots

/-- A library as a program finds it: which sides of it can be loaded, and how to
look into the row results that it has built, if that can be done. -/
structure Installation (σ : Type) where
  library : Library σ
  hasClient : Bool
  hasHost : Bool
  builtRows : Option (Handle → StateM σ (List Row))

end Querent.Workspace
