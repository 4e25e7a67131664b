import Querent.Server.State

/-!
# The calls of the server in memory

The server offers both sides of a library: it takes connections, and it runs
procedures.
-/

namespace Querent.Server

def Item.kind : Item → Int32
  | .result kind .. => kind.tag
  | .cursor _ => ResultKind.cursor.tag
  | .batch .. | .built .. => ResultKind.row.tag
  | .connection => 0

def Item.isOk : Item → Bool
  | .result _ ok .. => ok
  | .cursor c => c.ok
  | _ => true

def Item.code : Item → Code
  | .result _ _ code .. => code
  | .cursor c => c.code
  | _ => Code.ok

/-- A failed cursor has the name of its code for details. -/
def Item.details : Item → Option String
  | .result _ _ _ details _ => details
  | .cursor c => if c.ok then none else some c.code.name
  | _ => none

def Item.report : Item → Report
  | .result _ _ _ _ report => report
  | _ => .zero

def Item.atEnd : Item → Bool
  | .cursor c => c.atEnd
  | _ => false

/-- A property of what lives under a handle. -/
def inspect {α : Type} (operation : String) (missing : α) (f : Item → α) (h : Handle) :
    StateM State α := do
  return ((← get h operation).map f).getD missing

def release (h : Handle) (_ : ResultKind) : StateM State Unit := do
  match ← remove h with
  | some _ => markReleased h
  | none =>
    if (← MonadState.get).released.contains h.number then note (.doubleRelease h.number)
    else note (.unknownRelease h.number)

def openCursor (h : Handle) : StateM State Code := do
  match ← get h "cursor_open" with
  | some (.cursor c) => return if c.ok then Code.ok else c.code
  | _ => return Code.invalid

/-- A fetch that does not fail: the next batch, or the end. -/
def CursorState.proceed (c : CursorState) : Code × CursorState :=
  match c.pending with
  | rows :: rest => (Code.ok, { c with current := some rows, pending := rest })
  | [] =>
    (Code.endOfData,
      { c with current := none, ok := false, code := Code.endOfData, atEnd := true })

/-- The cursor after a fetch, and the code of the call. -/
def CursorState.fetch (c : CursorState) : Code × CursorState :=
  let counted := { c with fetches := c.fetches + 1 }
  match c.failure with
  | some (n, code) =>
    if c.fetches = n then (code, { counted with current := none, ok := false, code })
    else counted.proceed
  | none => counted.proceed

def fetch (h : Handle) : StateM State Code := do
  modify fun s => { s with fetches := s.fetches + 1 }
  match ← get h "cursor_fetch" with
  | some (.cursor c) =>
    let (code, c) := c.fetch
    put h (.cursor c)
    return code
  | _ => return Code.invalid

/-- A new batch of the rows, at the first of them. -/
def copied (rows : Rows) : StateM State (Option Handle) := do
  return some (← alloc (.batch rows 0))

def copyBatch (h : Handle) : StateM State (Option Handle) := do
  match ← get h "cursor_row" with
  | some (.cursor c) =>
    match c.current with
    | some rows => copied rows
    | none => return none
  | _ => return none

def copyRow (h : Handle) : StateM State (Option Handle) := do
  match ← get h "row_copy" with
  | some (.batch rows _) | some (.built _ rows _) => copied rows
  | _ => return none

def nextRow (h : Handle) : StateM State Bool := do
  match ← get h "row_next" with
  | some (.batch rows pos) =>
    put h (.batch rows (pos + 1))
    return pos + 1 < rows.length
  | _ => return false

/-- The row that a batch is at, empty past the end. -/
def Item.rowAt : Item → Row
  | .batch rows pos => rows[pos]?.getD []
  | _ => []

def results : ResultCalls State where
  kind := inspect "result_kind" 0 Item.kind
  isOk := inspect "result_ok" false Item.isOk
  code := inspect "result_errcode" Code.ok Item.code
  details := inspect "result_details" none Item.details
  report := inspect "result_report" .zero Item.report
  atEnd := inspect "result_eof" false Item.atEnd
  release
  openCursor
  fetch
  copyBatch
  copyRow
  nextRow
  fieldCount := inspect "row_count" 0 fun item => item.rowAt.length
  field := fun h i => inspect "row_field" .null (fun item => item.rowAt[i]?.getD .null) h

/-! ## The client side -/

def explain (code : Code) : String :=
  if code = Code.Client.noConnection then "no connection"
  else if code = Code.Client.noRead then "cannot read from socket"
  else if code = Code.Client.noWrite then "cannot write to socket"
  else s!"client error {code.text}"

def connect (_ : ConnectRequest) : StateM State (Except Code Handle) := do
  match (← MonadState.get).connectFailure with
  | some code => return .error code
  | none => return .ok (← alloc .connection)

def close (h : Handle) : StateM State Code := do
  modify fun s => { s with closes := s.closes + 1 }
  match ← remove h with
  | some .connection =>
    markReleased h
    return Code.Client.ok
  | _ =>
    note (.invalidClose h.number)
    return Code.Client.noConnection

def destroy (h : Handle) : StateM State Unit := do
  match ← remove h with
  | some _ => markReleased h
  | none => pure ()

def execute (h : Handle) (statement : String) : StateM State (Except Code Handle) := do
  match ← get h "execute" with
  | some .connection => receive statement
  | _ => return .error Code.Client.noConnection

def client : ClientCalls State where
  explain := fun code => pure (explain code)
  connect
  close
  destroy
  execute

/-! ## The side of procedures -/

/-- The result that takes over what lives under a raw handle. -/
def wrap (raw : Handle) : StateM State (Option Handle) := do
  match ← remove raw with
  | some item =>
    markReleased raw
    return some (← alloc item)
  | none => return none

/-- The bytes that a value takes in a row: its type and its content. -/
def encodedSize : Value → Int32
  | .null => 1
  | .bool _ => 2
  | .text s => Int32.ofNat s.utf8ByteSize + 2
  | _ => 9

def makeRow : StateM State (Option Handle) := do
  return some (← alloc (.built (← MonadState.get).rowCapacity [] []))

def capacity (h : Handle) : StateM State Int32 := do
  match ← get h "row_capacity" with
  | some (.built capacity _ _) => return capacity
  | _ => return 0

def add (h : Handle) (v : Value) : StateM State Code := do
  match ← get h "add_to_row" with
  | some (.built capacity rows current) =>
    if encodedSize v ≥ capacity then return Code.tooBig
    else
      put h (.built (capacity - encodedSize v) rows (current ++ [v]))
      return Code.ok
  | _ => return Code.invalid

def closeRow (h : Handle) : StateM State Code := do
  match ← get h "close_row" with
  | some (.built capacity rows current) =>
    if capacity < 1 then return Code.tooBig
    else
      put h (.built (capacity - 1) (rows ++ [current]) [])
      return Code.ok
  | _ => return Code.invalid

def host : HostCalls State where
  execute := fun _ statement => receive statement
  wrap
  makeSuccess := return some (← alloc (.result .status true Code.ok none .zero))
  makeError := fun code text =>
    return some (← alloc (.result .status false code (some text) .zero))
  makeReport := fun r => return some (← alloc (.result .report true Code.ok none r))
  makeRow
  capacity
  add
  closeRow

/-- The server in memory as a library. -/
def library : Library State := ⟨results, client, host⟩

end Querent.Server
