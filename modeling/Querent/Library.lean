import Querent.Code
import Querent.Kind
import Querent.Value.Basic

/-!
# What a database library offers

The engine and its wire protocol live in libraries: one for client programs,
one for procedures inside the server. A library is a table of calls, each a
step on a state that only the library knows. All else in this project is
written over an arbitrary table.
-/

namespace Querent

/-- A handle that a library gave out: a connection, a result or rows. -/
structure Handle where
  number : Nat
  deriving DecidableEq, Repr

/-- Calls on results, cursors and rows. They are made with handles only that
have not been released. -/
structure ResultCalls (σ : Type) where
  kind : Handle → StateM σ Int32
  /-- the result carries no error -/
  isOk : Handle → StateM σ Bool
  code : Handle → StateM σ Code
  details : Handle → StateM σ (Option String)
  report : Handle → StateM σ Report
  /-- the cursor has delivered all of its data -/
  atEnd : Handle → StateM σ Bool
  /-- frees a handle; the kind says how -/
  release : Handle → ResultKind → StateM σ Unit
  /-- makes the first batch of a cursor ready -/
  openCursor : Handle → StateM σ Code
  /-- asks for the next batch of a cursor -/
  fetch : Handle → StateM σ Code
  /-- a copy of the batch that a cursor is at -/
  copyBatch : Handle → StateM σ (Option Handle)
  /-- a copy of a row result -/
  copyRow : Handle → StateM σ (Option Handle)
  /-- goes to the next row of a batch, if there is one -/
  nextRow : Handle → StateM σ Bool
  /-- the number of fields of the row at hand -/
  fieldCount : Handle → StateM σ Nat
  field : Handle → Nat → StateM σ Value

/-- What a connect call is given. -/
structure ConnectRequest where
  host : String
  port : UInt16
  user : Option String
  password : Option String
  flags : Int32
  deriving DecidableEq, Repr

/-- The calls of a client program. -/
structure ClientCalls (σ : Type) where
  /-- the text for a code that a call returned -/
  explain : Code → StateM σ String
  connect : ConnectRequest → StateM σ (Except Code Handle)
  /-- closes a connection, and frees it if that succeeds -/
  close : Handle → StateM σ Code
  /-- frees a connection without closing it -/
  destroy : Handle → StateM σ Unit
  execute : Handle → String → StateM σ (Except Code Handle)

/-- The calls of a procedure inside the server. -/
structure HostCalls (σ : Type) where
  execute : Handle → String → StateM σ (Except Code Handle)
  /-- makes a result of one of the engine's -/
  wrap : Handle → StateM σ (Option Handle)
  makeSuccess : StateM σ (Option Handle)
  makeError : Code → String → StateM σ (Option Handle)
  makeReport : Report → StateM σ (Option Handle)
  makeRow : StateM σ (Option Handle)
  /-- bytes left in a row -/
  capacity : Handle → StateM σ Int32
  add : Handle → Value → StateM σ Code
  closeRow : Handle → StateM σ Code

/-- The client side that a library for procedures has: every call fails. -/
def ClientCalls.absent (σ : Type) : ClientCalls σ where
  explain := fun code => pure s!"client error {code.text}"
  connect := fun _ => pure (.error Code.Client.noConnection)
  close := fun _ => pure Code.Client.noConnection
  destroy := fun _ => pure ()
  execute := fun _ _ => pure (.error Code.Client.noConnection)

/-- The side for procedures that a client library has: every call fails. -/
def HostCalls.absent (σ : Type) : HostCalls σ where
  execute := fun _ _ => pure (.error Code.noResource)
  wrap := fun _ => pure none
  makeSuccess := pure none
  makeError := fun _ _ => pure none
  makeReport := fun _ => pure none
  makeRow := pure none
  capacity := fun _ => pure 0
  add := fun _ _ => pure Code.invalid
  closeRow := fun _ => pure Code.invalid

/-- A library: the calls on results, and one side or both. -/
structure Library (σ : Type) where
  results : ResultCalls σ
  client : ClientCalls σ := .absent σ
  host : HostCalls σ := .absent σ

end Querent
