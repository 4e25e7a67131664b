import Querent.Number.Digits
import Querent.Playback.Script

/-!
# Playing a script back

The objects that live under handles, the log of the calls, and the functions
that both kinds of libraries have.
-/

namespace Querent.Playback

open Foreign

/-- A copy of rows, at one of them. -/
structure RowCopy where
  rows : List RawRow
  pos : Nat
  count : Option Int64
  endless : Bool

/-- What lives under a handle. -/
inductive Item where
  | connection
  | result (r : ScriptedResult)
  | rows (c : RowCopy)

/-- A call that is logged. -/
inductive Call where
  | connect (host : String) (port : Int16) (user password : Option String) (flags : Int64)
  | close (h : Handle)
  | destroy (h : Handle)
  | execute (statement : String)
  | fetch (h : Handle)
  | release (h : Handle)
  | openCursor (h : Handle)
  | closeCursor (h : Handle)
  | releaseAll (h : Handle)
  | wrap (h : Handle)
  | makeSuccess
  | makeError (code : Int64) (text : String)
  | makeReport (r : Report)
  | makeRow
  | closeRow (h : Handle)
  | add (h : Handle) (tag : Int8) (cell : Cell)
  /-- the call before was made on a handle that is not alive -/
  | misuse (of : Call)
  deriving DecidableEq, Repr

/-- A text between quotation marks, as it is. -/
def quote (s : String) : String := "\"" ++ s ++ "\""

def quoteOrNull : Option String → String
  | some s => quote s
  | none => "null"

/-- The sixteen hexadecimal digits of a word. -/
def hexWord (w : UInt64) : String :=
  String.ofList (Hexadecimal.lastDigits 16 w.toNat)

def cellText : Cell → String
  | .null => "null"
  | .text s => quote s
  | .word w => hexWord w

/-- A call as the log shows it. -/
def Call.text : Call → String
  | connect host port user password flags =>
    s!"connect {quote host} {port.toInt} {quoteOrNull user} {quoteOrNull password} {flags.toInt}"
  | close h => s!"close {h.number}"
  | destroy h => s!"destroy {h.number}"
  | execute statement => s!"exec {quote statement}"
  | fetch h => s!"fetch {h.number}"
  | release h => s!"release {h.number}"
  | openCursor h => s!"open {h.number}"
  | closeCursor h => s!"dbcur_close {h.number}"
  | releaseAll h => s!"dbdestroy(1) {h.number}"
  | wrap h => s!"wrap {h.number}"
  | makeSuccess => "success"
  | makeError code text => s!"makeError {code.toInt} {quote text}"
  | makeReport r => s!"makeReport {r.affected.toNat} {r.errors.toNat} {r.runtime.toNat}"
  | makeRow => "makeRow"
  | closeRow h => s!"closeRow {h.number}"
  | add h tag cell => s!"add2Row {h.number} {tag.toInt} {cellText cell}"
  | misuse call => "MISUSE " ++ call.text

structure State where
  script : Script
  /-- the handle given out last -/
  last : Nat := 0
  items : List (Nat × Item) := []
  log : List Call := []

namespace State

def count (s : State) (p : Item → Bool) : Nat := s.items.countP (p ·.2)

def connections (s : State) : Nat := s.count fun | .connection => true | _ => false

def results (s : State) : Nat := s.count fun | .result _ => true | _ => false

def rowCopies (s : State) : Nat := s.count fun | .rows _ => true | _ => false

end State

def record (call : Call) : StateM State Unit := modify fun s => { s with log := s.log ++ [call] }

def alloc (item : Item) : StateM State Handle := fun s =>
  (⟨s.last + 1⟩, { s with last := s.last + 1, items := s.items ++ [(s.last + 1, item)] })

/-- A new object, unless the function is one that makes a null pointer. -/
def make (maker : Maker) (item : Item) : StateM State (Option Handle) := do
  if (← get).script.failing.contains maker then return none
  else return some (← alloc item)

def find? (h : Handle) : StateM State (Option Item) := do
  return ((← get).items.find? (·.1 = h.number)).map (·.2)

def put (h : Handle) (item : Item) : StateM State Unit :=
  modify fun s => { s with
    items := s.items.map fun e => if e.1 = h.number then (e.1, item) else e }

def remove (h : Handle) : StateM State Unit :=
  modify fun s => { s with items := s.items.filter (·.1 ≠ h.number) }

/-- Frees what lives under a handle, with a logged call. -/
def free (call : Call) (h : Handle) : StateM State Unit := do
  record call
  match ← find? h with
  | some _ => remove h
  | none => record (.misuse call)

/-- A property of what a result holds. -/
def inspect {α : Type} (missing : α) (f : Content → α) (h : Handle) : StateM State α := do
  match ← find? h with
  | some (.result r) => return f r.content
  | _ => return missing

/-- Executes a statement. One that the script does not have makes no result. -/
def execute (statement : String) : StateM State (Int64 × Option Handle) := do
  record (.execute statement)
  match (← get).script.outcomes.find? (·.1 = statement) with
  | some (_, outcome) =>
    match outcome.result with
    | some r => return (outcome.code, some (← alloc (.result r)))
    | none => return (outcome.code, none)
  | none => return (5, none)

def fetch (h : Handle) : StateM State Int64 := do
  record (.fetch h)
  match ← find? h with
  | some (.result r) =>
    let (code, r) := r.fetch (← get).script.side
    put h (.result r)
    return code
  | _ =>
    record (.misuse (.fetch h))
    return 2

/-- A copy of the rows that a result holds, at the first of them. -/
def copyRows (h : Handle) : StateM State (Option Handle) := do
  match ← find? h with
  | some (.result r) =>
    match r.content.rows with
    | some rows =>
      if r.content.nullCopy then return none
      else return some (← alloc (.rows ⟨rows, 0, r.content.count, r.content.endless⟩))
    | none => return none
  | some (.rows c) => return some (← alloc (.rows { c with pos := 0 }))
  | _ => return none

def nextRow (h : Handle) : StateM State Int64 := do
  match ← find? h with
  | some (.rows c) =>
    put h (.rows { c with pos := c.pos + 1 })
    return if c.pos + 1 < c.rows.length then 0 else 8
  | _ => return 8

/-- The row at hand, empty past the end. -/
def RowCopy.current (c : RowCopy) : RawRow := c.rows[c.pos]?.getD []

def fieldCount (h : Handle) : StateM State Int64 := do
  match ← find? h with
  | some (.rows c) => return c.count.getD (Int64.ofNat c.current.length)
  | _ => return 0

/-- The bytes of a payload in memory: eight at least, and a zero byte after them. -/
def inMemory (payload : Memory) : Memory :=
  payload ++ List.replicate (8 - payload.length) 0 ++ [0]

/-- The field of an index; a null pointer where there is none. -/
def RowCopy.field? (c : RowCopy) (i : Int64) : Option RawField :=
  if i < 0 then none
  else match c.current[i.toInt.toNat]? with
    | some f => some f
    | none => if c.endless then c.current.getLast? else none

def field (h : Handle) (i : Int64) : StateM State (Option Memory × Int64) := do
  match ← find? h with
  | some (.rows c) =>
    match c.field? i with
    | some f => return (f.payload.map inMemory, f.tag)
    | none => return (none, 0)
  | _ => return (none, 0)

end Querent.Playback
