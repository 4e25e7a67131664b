import Querent.Library
import Querent.Row

/-!
# A server in memory

A server that answers statements from a script. It keeps a table of the objects
that live under its handles, so that it can tell whether each handle is released
exactly once and never used afterwards.
-/

namespace Querent.Server

/-- A batch of rows, as the server sends it. -/
abbrev Rows := List Row

/-- The scripted reply to a statement. -/
inductive Reply where
  | status
  | error (code : Code) (details : String)
  | report (r : Report)
  /-- a single row -/
  | row (values : Row)
  /-- a cursor over these batches -/
  | cursor (batches : List Rows)
  /-- a cursor of which one fetch, counted from zero, fails -/
  | failingCursor (batches : List Rows) (failing : Nat) (code : Code)
  /-- the statement cannot be sent: the code that the call returns -/
  | sendFailure (code : Code)
  deriving DecidableEq, Repr

/-- A cursor on the server's side. -/
structure CursorState where
  /-- the batch at hand -/
  current : Option Rows
  pending : List Rows
  /-- the fetch that fails, and its code -/
  failure : Option (Nat × Code)
  fetches : Nat
  ok : Bool
  code : Code
  atEnd : Bool
  deriving DecidableEq, Repr

/-- What lives under a handle. -/
inductive Item where
  | connection
  | result (kind : ResultKind) (ok : Bool) (code : Code) (details : Option String)
      (report : Report)
  | cursor (c : CursorState)
  /-- a copy of rows, at one of them -/
  | batch (rows : Rows) (pos : Nat)
  /-- a row result: bytes left, the rows that were ended, and the one at hand -/
  | built (capacity : Int32) (rows : Rows) (current : Row)
  deriving DecidableEq, Repr

/-- A call on a handle that it must not be made on. -/
inductive Misuse where
  | use (operation : String) (released : Bool) (handle : Nat)
  | doubleRelease (handle : Nat)
  | unknownRelease (handle : Nat)
  | invalidClose (handle : Nat)
  deriving DecidableEq, Repr

def Misuse.message : Misuse → String
  | use operation true handle => s!"{operation} on released handle {handle}"
  | use operation false handle => s!"{operation} on unknown handle {handle}"
  | doubleRelease handle => s!"double release of handle {handle}"
  | unknownRelease handle => s!"release of unknown handle {handle}"
  | invalidClose handle => s!"close of invalid connection {handle}"

/-- A table of what lives under handles. -/
abbrev Table := List (Nat × Item)

namespace Table

def get? (t : Table) (h : Nat) : Option Item := (t.find? (·.1 = h)).map (·.2)

def erase (t : Table) (h : Nat) : Table := t.filter (·.1 ≠ h)

def set (t : Table) (h : Nat) (item : Item) : Table :=
  t.map fun e => if e.1 = h then (h, item) else e

end Table

structure State where
  /-- the handle given out last -/
  last : Nat := 0
  objects : Table := []
  released : List Nat := []
  misuse : List Misuse := []
  /-- the statements received, in order -/
  executed : List String := []
  /-- the replies, the latest first -/
  script : List (String × Reply) := []
  connectFailure : Option Code := none
  rowCapacity : Int32 := 8192
  fetches : Nat := 0
  closes : Nat := 0
  deriving Repr

namespace State

/-- Answers `statement` with `reply` from now on. -/
def on (s : State) (statement : String) (reply : Reply) : State :=
  { s with script := (statement, reply) :: s.script }

/-- The reply to a statement. One that is not in the script cannot be parsed. -/
def replyTo (s : State) (statement : String) : Reply :=
  ((s.script.find? (·.1 = statement)).map (·.2)).getD
    (.error Code.parser ("cannot parse '" ++ statement ++ "'"))

def isConnection : Item → Bool
  | .connection => true
  | _ => false

/-- Handles that live, connections left out. -/
def live (s : State) : Nat := s.objects.countP (!isConnection ·.2)

def openConnections (s : State) : Nat := s.objects.countP (isConnection ·.2)

/-- The rows of a row result that were ended. -/
def builtRows (s : State) (h : Handle) : Rows :=
  match s.objects.get? h.number with
  | some (.built _ rows _) => rows
  | _ => []

end State

/-- Puts a new object under the next handle. -/
def alloc (item : Item) : StateM State Handle := fun s =>
  (⟨s.last + 1⟩, { s with last := s.last + 1, objects := s.objects ++ [(s.last + 1, item)] })

def note (m : Misuse) : StateM State Unit := modify fun s => { s with misuse := s.misuse ++ [m] }

/-- What lives under a handle; a misuse if nothing does. -/
def get (h : Handle) (operation : String) : StateM State (Option Item) := do
  let s ← MonadState.get
  match s.objects.get? h.number with
  | some item => return some item
  | none =>
    note (.use operation (s.released.contains h.number) h.number)
    return none

def put (h : Handle) (item : Item) : StateM State Unit :=
  modify fun s => { s with objects := s.objects.set h.number item }

/-- Takes away what lives under a handle, and says what it was. -/
def remove (h : Handle) : StateM State (Option Item) := fun s =>
  (s.objects.get? h.number, { s with objects := s.objects.erase h.number })

/-- The handle was released in order. -/
def markReleased (h : Handle) : StateM State Unit :=
  modify fun s => { s with released := s.released ++ [h.number] }

/-- The cursor over batches, of which the first arrives with the reply. -/
def CursorState.ofBatches (batches : List Rows) (failure : Option (Nat × Code)) : CursorState :=
  match batches with
  | [] => ⟨none, [], failure, 0, false, Code.endOfData, true⟩
  | first :: rest => ⟨some first, rest, failure, 0, true, Code.ok, false⟩

/-- What a reply puts under a handle; the code of the call if it cannot be sent. -/
def Reply.item : Reply → Except Code Item
  | .status => .ok (.result .status true Code.ok none .zero)
  | .error code details => .ok (.result .status false code (some details) .zero)
  | .report r => .ok (.result .report true Code.ok none r)
  | .row values => .ok (.built 0 [values] [])
  | .cursor batches => .ok (.cursor (.ofBatches batches none))
  | .failingCursor batches n code => .ok (.cursor (.ofBatches batches (some (n, code))))
  | .sendFailure code => .error code

/-- Receives a statement. -/
def receive (statement : String) : StateM State (Except Code Handle) := do
  modify fun s => { s with executed := s.executed ++ [statement] }
  match ((← MonadState.get).replyTo statement).item with
  | .ok item => return .ok (← alloc item)
  | .error code => return .error code

end Querent.Server
