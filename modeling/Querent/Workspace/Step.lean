import Querent.Workspace.Object

/-!
# Steps of a workspace

What a program can ask of the objects it holds, and what it is answered.
-/

namespace Querent.Workspace

/-- What is asked of one object. Several kinds of objects understand some of
these. `into` is the name that a new object gets. -/
inductive Question where
  | execute (sql : String) (params : List Value) (format : DbApi.RowFormat) (into : String)
  | useDatabase (name : String)
  | close
  | isClosed
  | clone (into : String)
  | describe
  | rows (sql : String)
  | info
  | check
  | error
  | report
  | openRows
  | fetch
  | row (into : String)
  | intoCursor (into : String)
  | intoRaw (into : String)
  | nextRow
  | count
  | field (i : Nat)
  | toRow
  | next
  | all
  | status
  | commit
  | rollback
  | peer
  | cursor (into : String)
  /-- another connection of the DB-API on the same session -/
  | cloneDb (into : String)
  /-- a clone of the connection that a connection of the DB-API lends; what can be asked of
  the lent one is asked of the clone -/
  | cloneInner (into : String)
  | executeMany (sql : String) (seq : List (List Value))
  | fetchOne
  | fetchMany (size : Option Nat)
  | fetchAll
  | callProcedure
  | set (arraySize : Option Nat) (format : Option DbApi.RowFormat)
  | makeSuccess (into : String)
  | makeError (code : Code) (text : String) (into : String)
  | makeReport (r : Report) (into : String)
  | wrap (raw : String) (into : String)
  | buildRow (into : String)
  | database
  | capacity
  | fits (v : Value)
  | push (v : Value)
  | closeRow
  | finish (into : String)
  | release (kind : ResultKind) (keep : Bool)
  | drop
  | builtRows
  /-- anything else, which no object understands -/
  | unknown
  deriving DecidableEq, Repr

inductive Step where
  | connect (config : Config) (into : String)
  | dbConnect (config : Config) (into : String)
  /-- connects with the library of the default name -/
  | dbConnectDefault (config : Config)
  | procedure (db : Nat) (into : String)
  | load
  | explain (code : Code)
  /-- asks something of the object in a slot -/
  | ask (slot : String) (what : Question)
  deriving DecidableEq, Repr

/-- What a result says of itself. -/
structure ResultInfo where
  kind : ResultKind
  isOk : Bool
  code : Code
  details : String
  atEnd : Bool
  deriving DecidableEq, Repr

inductive Answer where
  /-- it succeeded, and there is nothing to tell -/
  | done
  | truth (b : Bool)
  | number (n : Int)
  | text (s : String)
  | value (v : Value)
  | row (r : Row)
  | rows (rs : List Row)
  | report (r : Report)
  | fetched (f : Fetched)
  | info (i : ResultInfo)
  /-- the rows that remained, and the error after them -/
  | items (rs : List Row) (e : Option Error)
  | cursorStatus (rows : Nat) (done : Bool) (i : ResultInfo)
  /-- a row, if there was one -/
  | fetchedRow (r : Option DbApi.ShapedRow)
  | shapedRow (r : DbApi.ShapedRow)
  | shapedRows (rs : List DbApi.ShapedRow)
  | dbStatus (description : Option (List String)) (rowCount : Int64) (arraySize : Nat)
      (format : DbApi.RowFormat)
  /-- the end of an iteration -/
  | finished
  | error (e : Error)
  | dbError (e : DbApi.Error)
  /-- the call did not return: it unwound the program up to the step, which goes on
  with the objects as the panic has left them -/
  | panic (p : DbApi.Panic)
  | noSlot
  | noStep
  /-- the fuel ran out in a loop that had not ended -/
  | unfinished
  deriving DecidableEq, Repr

end Querent.Workspace
