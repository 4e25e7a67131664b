import Querent.Json.Access
import Querent.Playback.Tables

/-!
# Reading scripts

A script of a foreign library as a JSON object. What it does not say has a
default: codes are zero, nothing is at its end, and statements that it does not
list are refused.
-/

namespace Querent.Playback

open Foreign

def long? (j : Json) : Option Int64 := j.int?.map Int64.ofInt

def counter? (j : Json) : Option UInt64 := j.intText?.map fun n => UInt64.ofNat n.toNat

/-- A text, or its bytes in hexadecimal under `hex`. -/
def bytes? : Json → Option Memory
  | .string s => some (Text.Utf8.encode s.toList)
  | j => do
    let digits ← j.get? "hex" >>= Json.text?
    Hexadecimal.bytes? digits.toList

/-- What `f` reads, or null. -/
def nullable? {α : Type} (f : Json → Option α) : Json → Option (Option α)
  | .null => some none
  | j => (f j).map some

/-- A tag and the payload in hexadecimal, which a null pointer lacks. -/
def rawField? (j : Json) : Option RawField := do
  match ← j.list? with
  | [tag] => return ⟨← long? tag, none⟩
  | [tag, payload] =>
    let digits ← payload.text?
    return ⟨← long? tag, some (← Hexadecimal.bytes? digits.toList)⟩
  | _ => none

def rawRows? : Json → Option (List RawRow) := Json.listOf? (Json.listOf? rawField?)

def report? (j : Json) : Option Report := do
  match ← j.list? with
  | [affected, errors, runtime] =>
    return ⟨← counter? affected, ← counter? errors, ← counter? runtime⟩
  | _ => none

/-- What a result holds, with what the object does not name as it was. -/
def content? (j : Json) (c : Content) : Option Content := do
  return {
    kind := ← j.field? "type" c.kind long?
    status := ← j.field? "status" c.status long?
    errorCode := ← j.field? "errcode" c.errorCode fun v => v.int?.map Int32.ofInt
    details := ← j.field? "details" c.details (nullable? bytes?)
    report := ← j.field? "report" c.report report?
    atEnd := ← j.field? "eof" c.atEnd long?
    openCode := ← j.field? "open_rc" c.openCode long?
    rows := ← j.field? "rows" c.rows (nullable? rawRows?)
    count := ← j.field? "count" c.count (nullable? long?)
    endless := ← j.field? "endless" c.endless Json.bool?
    nullCopy := ← j.field? "null_copy" c.nullCopy Json.bool? }

/-- A fetch. It must be readable over some content, and then is over any. -/
def step? (side : Side) (j : Json) : Option Step := do
  let code ← j.field? "rc" 0 long?
  let _ ← content? j (.empty side 0)
  return ⟨code, fun c => (content? j c).getD c⟩

def result? (side : Side) (j : Json) : Option ScriptedResult := do
  return ⟨← content? j (.empty side 0), ← j.field? "fetch" [] (Json.listOf? (step? side))⟩

def outcome? (side : Side) (j : Json) : Option (String × Outcome) := do
  match ← j.list? with
  | [statement, answer] =>
    let code ← answer.field? "rc" 0 long?
    let result ← answer.field? "result" none (nullable? (result? side))
    return (← statement.text?, ⟨code, result⟩)
  | _ => none

/-- The texts for codes, by the code in decimal. -/
def explanation? (m : String × Json) : Option (Int64 × Memory) := do
  return (Int64.ofInt (← Decimal.int? m.1.toList), ← bytes? m.2)

/-- The script that a JSON object tells. -/
def Script.ofJson? (side : Side) (j : Json) : Option Script := do
  return {
    side
    outcomes := ← j.field? "on" [] (Json.listOf? (outcome? side))
    connectCode := ← j.field? "connect_rc" 0 long?
    closeCode := ← j.field? "close_rc" 0 long?
    explanations := ← j.field? "explain" [] fun v => v.entries? >>= List.mapM explanation?
    failing := ← j.field? "null" [] (Json.listOf? fun v => v.text? >>= Maker.ofName?)
    capacity := ← j.field? "capacity" 8192 fun v => v.int?.map Int32.ofInt
    addCode := ← j.field? "add_rc" 0 long?
    closeRowCode := ← j.field? "close_row_rc" 0 long? }

end Querent.Playback
