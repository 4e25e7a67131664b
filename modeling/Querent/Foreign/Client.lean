import Querent.Foreign.Field
import Querent.Library

/-!
# The client library behind its C interface

The functions of the client library by their C types, and the calls that are
made of them. Longs have 64 bits; codes are cut to 32. Older builds lack some
functions.
-/

namespace Querent.Foreign

/-- The functions of a client library. A text that a function gives is the bytes
before its zero byte; null pointers are `none`. -/
structure ClientTable (σ : Type) where
  explain : Option (Int64 → StateM σ (Option Memory))
  connect : String → Int16 → Option String → Option String → Int64 →
    StateM σ (Int64 × Option Handle)
  close : Handle → StateM σ Int64
  destroy : Handle → StateM σ Unit
  execute : Handle → String → StateM σ (Int64 × Option Handle)
  release : Handle → StateM σ Unit
  kind : Handle → StateM σ Int64
  /-- zero for success -/
  status : Handle → StateM σ Int64
  errorCode : Handle → StateM σ Int16
  details : Handle → StateM σ (Option Memory)
  report : Option (Handle → StateM σ Report)
  fetch : Handle → StateM σ Int64
  atEnd : Handle → StateM σ Int64
  /-- the cursor's own row, lent -/
  batch : Handle → StateM σ (Option Handle)
  copyRow : Handle → StateM σ (Option Handle)
  /-- zero if there is a next row -/
  nextRow : Handle → StateM σ Int64
  fieldCount : Option (Handle → StateM σ Int64)
  field : Handle → Int64 → StateM σ (Option Memory × Int64)

/-- The handle that a call with code `rc` wrote, or the code; `missing` if it
succeeded and wrote none. -/
def written (missing : Code) : Int64 × Option Handle → Except Code Handle
  | (rc, h) =>
    if rc ≠ 0 then .error rc.toInt32
    else match h with
      | some h => .ok h
      | none => .error missing

namespace ClientTable

variable {σ : Type} (t : ClientTable σ)

def resultCalls : ResultCalls σ where
  kind := fun h => return (← t.kind h).toInt32
  isOk := fun h => return (← t.status h) == 0
  code := fun h => return (← t.errorCode h).toInt32
  details := fun h => return (← t.details h).map Text.Utf8.decodeToNul
  report := fun h =>
    match t.report with
    | some report => report h
    | none => return .zero
  atEnd := fun h => return (← t.atEnd h) != 0
  release := fun h _ => t.release h
  -- a result comes with its first batch
  openCursor := fun _ => return Code.ok
  fetch := fun h => return (← t.fetch h).toInt32
  copyBatch := fun h => do
    match ← t.batch h with
    | some row => t.copyRow row
    | none => return none
  copyRow := t.copyRow
  nextRow := fun h => return (← t.nextRow h) == 0
  fieldCount := fun h =>
    countFields (t.fieldCount.map (· h)) fun i => t.field h (Int64.ofNat i)
  field := fun h i => return decodeField.uncurry (← t.field h (Int64.ofNat i))

/-- The text for a code, if the library has one. -/
def explanation (code : Code) : StateM σ (Option String) := do
  match t.explain with
  | some explain => return (← explain code.toInt64).map Text.Utf8.decodeToNul
  | none => return none

def clientCalls : ClientCalls σ where
  explain := fun code => return (← t.explanation code).getD s!"client error {code.text}"
  -- the port keeps its bits in a signed short
  connect := fun r => do
    let answer ← t.connect r.host r.port.toInt16 r.user r.password r.flags.toInt64
    return written Code.Client.noConnection answer
  close := fun h => return (← t.close h).toInt32
  destroy := t.destroy
  execute := fun h statement => return written Code.Client.noResult (← t.execute h statement)

/-- The library that the functions make. -/
def library : Library σ where
  results := t.resultCalls
  client := t.clientCalls

end ClientTable

end Querent.Foreign
