import Querent.Playback.State

/-!
# The functions of a library that is played back

The tables of a client library and of a library for procedures. Builds differ
in the functions that they export; one that lacks a function that is not
optional cannot be loaded.
-/

namespace Querent.Playback

open Foreign

/-- The builds of a library. -/
inductive Build where
  /-- every function -/
  | full
  /-- a client library whose texts for codes go by another name -/
  | renamed
  /-- no optional function -/
  | minimal
  /-- lacks a function that is needed -/
  | broken
  deriving DecidableEq, Repr

/-- The build has the functions that older libraries lack. -/
def Build.isRecent (b : Build) : Bool := b = .full || b = .renamed

/-- A function of recent builds only. -/
def Build.optional {α : Type} (b : Build) (f : α) : Option α :=
  if b.isRecent then some f else none

def connect (host : String) (port : Int16) (user password : Option String) (flags : Int64) :
    StateM State (Int64 × Option Handle) := do
  record (.connect host port user password flags)
  let code := (← get).script.connectCode
  if code ≠ 0 then return (code, none)
  else return (0, ← make .connect .connection)

def close (h : Handle) : StateM State Int64 := do
  record (.close h)
  let code := (← get).script.closeCode
  match ← find? h with
  | some .connection =>
    if code = 0 then remove h
    return code
  | _ =>
    record (.misuse (.close h))
    return 2

/-- The text of the script for a code. -/
def explain (code : Int64) : StateM State (Option Memory) := do
  return ((← get).script.explanations.find? (·.1 = code)).map (·.2)

def executeOn (con : Handle) (statement : String) : StateM State (Int64 × Option Handle) := do
  match ← find? con with
  | some .connection => execute statement
  | _ =>
    record (.execute statement)
    record (.misuse (.execute statement))
    return (2, none)

def clientTable (build : Build) : ClientTable State where
  explain := build.optional explain
  connect
  close
  destroy := fun h => free (.destroy h) h
  execute := executeOn
  release := fun h => free (.release h) h
  kind := inspect 0 (·.kind)
  status := inspect 2 (·.status)
  errorCode := inspect 0 (·.errorCode.toInt16)
  details := inspect none (·.details)
  report := build.optional (inspect .zero (·.report))
  fetch
  atEnd := inspect 0 (·.atEnd)
  -- the cursor's own row goes by the cursor's handle
  batch := fun h => do
    return (← inspect none (·.rows) h).map fun _ => h
  copyRow := copyRows
  nextRow
  fieldCount := build.optional fieldCount
  field

/-- The result that takes over what a raw handle has. -/
def wrap (raw : Handle) : StateM State (Option Handle) := do
  record (.wrap raw)
  match ← find? raw with
  | some item =>
    match ← make .wrap item with
    | some h =>
      remove raw
      return some h
    | none => return none
  | none =>
    record (.misuse (.wrap raw))
    return none

/-- A new result that holds this. -/
def makeResult (call : Call) (maker : Maker) (content : Content) :
    StateM State (Option Handle) := do
  record call
  make maker (.result ⟨content, []⟩)

def openCursor (h : Handle) : StateM State Int64 := do
  record (.openCursor h)
  inspect 2 (·.openCode) h

def hostTable (build : Build) : HostTable State where
  execute := fun _ statement => execute statement
  wrap
  makeSuccess := makeResult .makeSuccess .success (.empty .host 0x21)
  makeError := fun code text => makeResult (.makeError code text) .error
    { Content.empty .host 0x21 with
      status := 0, errorCode := code.toInt32, details := some (Text.Utf8.encode text.toList) }
  makeReport := build.optional fun r =>
    makeResult (.makeReport r) .report { Content.empty .host 0x22 with report := r }
  makeRow := makeResult .makeRow .row (.empty .host 0x23)
  release := fun h _ => free (.releaseAll h) h
  kind := inspect 0 (·.kind)
  status := inspect 0 (·.status)
  errorCode := inspect 0 (·.errorCode)
  details := inspect none (·.details)
  report := build.optional (inspect .zero (·.report))
  atEnd := inspect 0 (·.atEnd)
  add := fun h tag cell => do
    record (.add h tag cell)
    return (← get).script.addCode
  capacity := fun _ => return (← get).script.capacity
  closeRow := fun h => do
    record (.closeRow h)
    return (← get).script.closeRowCode
  openCursor
  closeCursor := fun h => free (.closeCursor h) h
  fetch
  batch := copyRows
  nextRow
  copyRow := copyRows
  fieldCount := build.optional fieldCount
  field

/-- The library for a client, if it can be loaded as one. -/
def loadClient? (side : Side) (build : Build) : Option (Library State) :=
  if side = .client ∧ build ≠ .broken then some (clientTable build).library else none

/-- The library for procedures, if it can be loaded as one. -/
def loadHost? (side : Side) (build : Build) : Option (Library State) :=
  if side = .host ∧ build ≠ .broken then some (hostTable build).library else none

end Querent.Playback
