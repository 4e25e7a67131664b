import Querent.Foreign.Client

/-!
# The procedure library behind its C interface

The functions of the library that procedures run against, and the calls that
are made of them. Here a status that is not zero means success, a cursor has to
be opened and then needs a first fetch, and cursors are closed rather than
released.
-/

namespace Querent.Foreign

/-- What the pointer to a value leads to. -/
inductive Cell where
  | null
  /-- a pointer to a text -/
  | text (s : String)
  | word (w : UInt64)
  deriving DecidableEq, Repr

/-- The functions of a library for procedures. -/
structure HostTable (σ : Type) where
  execute : Handle → String → StateM σ (Int64 × Option Handle)
  wrap : Handle → StateM σ (Option Handle)
  makeSuccess : StateM σ (Option Handle)
  makeError : Int64 → String → StateM σ (Option Handle)
  makeReport : Option (Report → StateM σ (Option Handle))
  makeRow : StateM σ (Option Handle)
  release : Handle → Int64 → StateM σ Unit
  kind : Handle → StateM σ Int64
  /-- zero for failure -/
  status : Handle → StateM σ Int64
  errorCode : Handle → StateM σ Int32
  details : Handle → StateM σ (Option Memory)
  report : Option (Handle → StateM σ Report)
  atEnd : Handle → StateM σ Int64
  add : Handle → Int8 → Cell → StateM σ Int64
  capacity : Handle → StateM σ Int32
  closeRow : Handle → StateM σ Int64
  openCursor : Handle → StateM σ Int64
  closeCursor : Handle → StateM σ Unit
  fetch : Handle → StateM σ Int64
  /-- a copy of the batch at hand -/
  batch : Handle → StateM σ (Option Handle)
  nextRow : Handle → StateM σ Int64
  copyRow : Handle → StateM σ (Option Handle)
  fieldCount : Option (Handle → StateM σ Int64)
  field : Handle → Int64 → StateM σ (Option Memory × Int64)

/-- A value as the library reads it. A text with a NUL cannot be passed. -/
def Cell.ofValue? : Value → Option Cell
  | .null => some .null
  | .text s => if (Text.Utf8.nulPosition? s.toList).isSome then none else some (.text s)
  | .date n | .time n | .int n => some (.word n.toUInt64)
  | .bool b => some (.word (if b then 1 else 0))
  | .uint n => some (.word n)
  | .float x => some (.word x.bits)

namespace HostTable

variable {σ : Type} (t : HostTable σ)

def fetchCode (h : Handle) : StateM σ Code := return (← t.fetch h).toInt32

/-- Opens a cursor and fetches its first batch. A failed open is all. -/
def openCode (h : Handle) : StateM σ Code := do
  let code := (← t.openCursor h).toInt32
  if code = Code.ok then t.fetchCode h else return code

def resultCalls : ResultCalls σ where
  kind := fun h => return (← t.kind h).toInt32
  isOk := fun h => return (← t.status h) != 0
  code := t.errorCode
  details := fun h => return (← t.details h).map Text.Utf8.decodeToNul
  report := fun h =>
    match t.report with
    | some report => report h
    | none => return .zero
  atEnd := fun h => return (← t.atEnd h) != 0
  release := fun h kind =>
    match kind with
    | .cursor => t.closeCursor h
    | _ => t.release h 1
  openCursor := t.openCode
  fetch := t.fetchCode
  copyBatch := t.batch
  copyRow := t.copyRow
  nextRow := fun h => return (← t.nextRow h) == 0
  fieldCount := fun h =>
    countFields (t.fieldCount.map (· h)) fun i => t.field h (Int64.ofNat i)
  field := fun h i => return decodeField.uncurry (← t.field h (Int64.ofNat i))

def hostCalls : HostCalls σ where
  execute := fun db statement => return written Code.noResource (← t.execute db statement)
  wrap := t.wrap
  makeSuccess := t.makeSuccess
  makeError := fun code text => t.makeError code.toInt64 text
  makeReport := fun r =>
    match t.makeReport with
    | some make => make r
    | none => return none
  makeRow := t.makeRow
  capacity := t.capacity
  add := fun h v =>
    match Cell.ofValue? v with
    | some cell => return (← t.add h v.type.tag.toInt8 cell).toInt32
    | none => return Code.invalid
  closeRow := fun h => return (← t.closeRow h).toInt32

/-- The library that the functions make. -/
def library : Library σ where
  results := t.resultCalls
  host := t.hostCalls

end HostTable

end Querent.Foreign
