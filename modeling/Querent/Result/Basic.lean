import Querent.Result.Batch

/-!
# Results

A result owns one handle of the library. It reads its kind on first use and
keeps it. Inside a procedure it has no session; elsewhere it is a holder of the
session it came from, and what talks to the server needs that session open.
-/

namespace Querent

/-- What came of asking for a batch. -/
inductive Fetched where
  | batch
  /-- the server has no more data -/
  | endOfData
  deriving DecidableEq, Repr

structure QueryResult where
  handle : Handle
  /-- the kind, once read -/
  known : Option ResultKind
  session : Option SessionId
  deriving DecidableEq, Repr

/-- The two requests for a batch. -/
inductive Request where
  | opening
  | fetching
  deriving DecidableEq, Repr

/-- The text for a request that the library fails without a reason. -/
def Request.failure : Request → String
  | opening => "cursor open failed"
  | fetching => "cursor fetch failed"

namespace QueryResult

/-- The details of a failed result that carries none. -/
def noDetails : String := "cannot obtain error message"

/-- A result just obtained, inside a procedure or on a session. -/
def new (handle : Handle) (session : Option SessionId) : QueryResult := ⟨handle, none, session⟩

variable {σ : Type} (L : Library σ) (r : QueryResult)

/-- The kind, and the result that knows it. -/
def kind : Action σ (ResultKind × QueryResult) := do
  match r.known with
  | some k => return (k, r)
  | none =>
    let k := ResultKind.ofTag (← call (L.results.kind r.handle))
    return (k, { r with known := some k })

/-- The result carries no error. -/
def isOk : Action σ Bool := call (L.results.isOk r.handle)

def code : Action σ Code := call (L.results.code r.handle)

def details : Action σ String := do
  return (← call (L.results.details r.handle)).getD noDetails

/-- The cursor has delivered all of its data. -/
def atEnd : Action σ Bool := call (L.results.atEnd r.handle)

/-- The error that the result carries. -/
def error : Action σ Error := do
  let code ← r.code L
  let details ← r.details L
  return .server code details

/-- The error of a failed result. End of data is none. -/
def failure? : Action σ (Option Error) := do
  let code ← r.code L
  if code = Code.endOfData then return none
  else return some (.server code (← r.details L))

/-- Fails if the result carries an error. -/
def check : Action σ (Except Error Unit) := do
  if ← r.isOk L then return .ok ()
  else match ← r.failure? L with
    | some e => return .error e
    | none => return .ok ()

/-- The counters of a report. -/
def report : Action σ (Except Error Report × QueryResult) := do
  let (k, r) ← r.kind L
  match k with
  | .report => return (.ok (← call (L.results.report r.handle)), r)
  | other => return (.error (.wrongType (.notReport other)), r)

/-- A copy that the library made, or the error that the result carries. -/
def batchOf : Option Handle → Action σ (Except Error Batch)
  | some handle => return .ok ⟨handle⟩
  | none => return .error (← r.error L)

/-- A copy of the batch at hand. -/
def row : Action σ (Except Error Batch × QueryResult) := do
  let (k, r) ← r.kind L
  match k with
  | .cursor => return (← r.batchOf L (← call (L.results.copyBatch r.handle)), r)
  | .row => return (← r.batchOf L (← call (L.results.copyRow r.handle)), r)
  | other => return (.error (.wrongType (.notRows other)), r)

/-- There is no session, or it is open. -/
def canTalk : Action σ Bool := do
  match r.session with
  | none => return true
  | some id => return (← Session.handle? id).isSome

/-- What a request came to, by the code it returned and the state of the
result: an error of the result counts most, then the end of data, then the code. -/
def classify (code : Code) (request : Request) : Action σ (Except Error Fetched) := do
  let ok ← r.isOk L
  if code = Code.ok ∧ ok then return .ok .batch
  else if !ok then
    match ← r.failure? L with
    | some e => return .error e
    | none => return .ok .endOfData
  else if ← r.atEnd L then return .ok .endOfData
  else match r.session with
    | some _ => return .error (.client code request.failure)
    -- inside a procedure the code is one of the server's
    | none => return .error (.server code request.failure)

/-- Makes a request, if the connection is open. -/
def request (what : Request) : Action σ (Except Error Fetched) := do
  if ← r.canTalk then
    let code ← call (match what with
      | .opening => L.results.openCursor r.handle
      | .fetching => L.results.fetch r.handle)
    r.classify L code what
  else return .error .connectionClosed

/-- Makes the first batch of a cursor ready. A row is always ready. -/
def openRows : Action σ (Except Error Fetched × QueryResult) := do
  let (k, r) ← r.kind L
  match k with
  | .cursor => return (← r.request L .opening, r)
  | .row => return (.ok .batch, r)
  | other => return (.error (.wrongType (.notCursor other)), r)

/-- Asks the server for the next batch of a cursor. -/
def fetch : Action σ (Except Error Fetched × QueryResult) := do
  let (k, r) ← r.kind L
  match k with
  | .cursor => return (← r.request L .fetching, r)
  | other => return (.error (.wrongType (.notCursor other)), r)

/-- Ends the result: its handle is released, then its session left. -/
def drop : Action σ Unit := do
  let (k, r) ← r.kind L
  call (L.results.release r.handle k)
  Session.leave? L r.session

/-- Gives up the handle, which whoever has it must release. -/
def intoRaw : Action σ Handle := do
  Session.leave? L r.session
  return r.handle

end QueryResult

end Querent
