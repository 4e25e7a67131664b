import Querent.Workspace.Step

/-!
# Workspaces

A workspace is a program that holds objects under names and takes steps: it
connects, asks its objects for something, drops them. A new object under a name
that is taken replaces the old one, which then ends.
-/

namespace Querent

/-- The state of a workspace. -/
structure Workspace (σ : Type) where
  world : World σ
  slots : Workspace.Slots

namespace Workspace

variable {σ : Type} {α : Type}

/-- A step of a workspace. -/
abbrev Act (σ : Type) := StateM (Workspace σ)

def start (lib : σ) : Workspace σ := ⟨.start lib, []⟩

/-- A step that does not concern the names. -/
def run (act : Action σ α) : Act σ α := fun w =>
  let (a, world) := act w.world
  (a, { w with world })

def find? (name : String) : Act σ (Option Object) := fun w => (w.slots.get? name, w)

/-- Takes an object away, without ending it. -/
def forget (name : String) : Act σ Unit := fun w => ((), { w with slots := w.slots.erase name })

/-- Writes back an object that has changed. -/
def put (name : String) (o : Object) : Act σ Unit := fun w =>
  ((), { w with slots := w.slots.set name o })

variable (I : Installation σ)

/-- Puts a new object under a name. The one that was there ends. -/
def store (name : String) (o : Object) : Act σ Unit := do
  let old ← find? name
  put name o
  match old with
  | some old => run (old.drop I.library)
  | none => pure ()

/-- Stores what was made, if it was. -/
def storeNew (into : String) (f : α → Object) : Except Error α → Act σ Answer
  | .ok a => do
    store I into (f a)
    return .done
  | .error e => return .error e

def storeNewDb (into : String) (f : α → Object) : Except DbApi.Error α → Act σ Answer
  | .ok a => do
    store I into (f a)
    return .done
  | .error e => return .dbError e

/-- Success with something to tell, or an error. -/
def answer (f : α → Answer) : Except Error α → Answer
  | .ok a => f a
  | .error e => .error e

def answerDb (f : α → Answer) : Except DbApi.Error α → Answer
  | .ok a => f a
  | .error e => .dbError e

/-- The answer of a call that may panic. -/
def answerCall (f : α → Answer) : Except DbApi.Failure α → Answer
  | .ok a => f a
  | .error (.error e) => .dbError e
  | .error (.panic p) => .panic p

/-- The error of a library that cannot be loaded. -/
def notLoaded (path : String) : Error := .library ("failed to load '" ++ path ++ "'")

def resultInfo (r : QueryResult) : Action σ (ResultInfo × QueryResult) := do
  let L := I.library
  let (kind, r) ← r.kind L
  let isOk ← r.isOk L
  let code ← r.code L
  let details ← r.details L
  let atEnd ← r.atEnd L
  return (⟨kind, isOk, code, details, atEnd⟩, r)

variable (fuel : Nat)

/-! ## Questions, by kind of object -/

def askConnection (c : Connection) : Question → Act σ Answer
  | .execute sql _ _ into => do
    storeNew I into .result (← run (c.execute I.library sql))
  | .useDatabase name => return answer (fun _ => .done) (← run (c.useDatabase I.library name))
  | .close => return answer (fun _ => .done) (← run (c.close I.library))
  | .isClosed => return .truth (← run c.isClosed)
  | .clone into => do
    store I into (.connection (← run c.clone))
    return .done
  | .describe => return .text (← run c.describe)
  | .rows sql => do
    match ← run (c.rows I.library fuel sql) with
    | some outcome => return answer .rows outcome
    | none => return .unfinished
  | _ => return .noStep

def askResult (name : String) (r : QueryResult) : Question → Act σ Answer
  | .info => do
    let (i, r) ← run (resultInfo I r)
    put name (.result r)
    return .info i
  | .check => return answer (fun _ => .done) (← run (r.check I.library))
  | .error => return .error (← run (r.error I.library))
  | .report => do
    let (report, r) ← run (r.report I.library)
    put name (.result r)
    return answer .report report
  | .openRows => do
    let (fetched, r) ← run (r.openRows I.library)
    put name (.result r)
    return answer .fetched fetched
  | .fetch => do
    let (fetched, r) ← run (r.fetch I.library)
    put name (.result r)
    return answer .fetched fetched
  | .row into => do
    let (batch, r) ← run (r.row I.library)
    put name (.result r)
    storeNew I into .batch batch
  | .intoCursor into => do
    forget name
    store I into (.cursor (.ofResult r))
    return .done
  | .intoRaw into => do
    forget name
    store I into (.raw (← run (r.intoRaw I.library)))
    return .done
  | .builtRows => do
    match I.builtRows with
    | some look => return .rows (← run (call (look r.handle)))
    | none => return .noStep
  | _ => return .noStep

def askBatch (b : Batch) : Question → Act σ Answer
  | .nextRow => return .truth (← run (b.next I.library))
  | .count => return .number (← run (b.count I.library))
  | .field i => return .value (← run (b.field I.library i))
  | .toRow => return .row (← run (b.row I.library))
  | _ => return .noStep

def askCursor (name : String) (c : Cursor) : Question → Act σ Answer
  | .next => do
    let (yield, c) ← run (c.next I.library)
    put name (.cursor c)
    return match yield with
      | .row r => .row r
      | .error e => .error e
      | .finished => .finished
  | .all => do
    let (rest, c) ← run (c.collect I.library fuel)
    put name (.cursor c)
    return match rest with
      | some (rows, e) => .items rows e
      | none => .unfinished
  | .status => do
    let (i, result) ← run (resultInfo I c.result)
    put name (.cursor { c with result })
    return .cursorStatus c.rows c.isDone i
  | _ => return .noStep

def askDbConnection (c : DbApi.Connection) : Question → Act σ Answer
  | .close => return answerDb (fun _ => .done) (← run (c.close I.library))
  | .commit | .rollback => return .done
  | .isClosed => return .truth (← run c.isClosed)
  | .peer => return .text (← run c.peer)
  | .cursor into => do storeNewDb I into .dbCursor (← run c.cursor)
  | .execute sql params format into => do
    match ← run (c.execute I.library fuel sql params format) with
    | some outcome => storeNewDb I into .dbCursor outcome
    | none => return .unfinished
  | .cloneDb into => do
    store I into (.dbConnection (← run c.clone))
    return .done
  | .cloneInner into => do
    store I into (.connection (← run c.inner.clone))
    return .done
  | _ => return .noStep

/-- Writes back a DB-API cursor after a call that may run out of fuel. -/
def afterCall (name : String) (f : α → Answer) : Option α × DbApi.Cursor → Act σ Answer
  | (outcome, c) => do
    put name (.dbCursor c)
    return outcome.elim .unfinished f

def askDbCursor (name : String) (c : DbApi.Cursor) : Question → Act σ Answer
  | .execute sql params _ _ => do
    afterCall name (answerDb fun _ => .done) (← run (c.execute I.library fuel sql params))
  | .executeMany sql seq => do
    afterCall name (answerCall fun _ => .done) (← run (c.executeMany I.library fuel sql seq))
  | .fetchOne => do
    let (row, c) ← run (c.fetchOne I.library)
    put name (.dbCursor c)
    return answerCall .fetchedRow row
  | .next => do
    let (row, c) ← run (c.fetchOne I.library)
    put name (.dbCursor c)
    return answerCall (fun row => row.elim .finished .shapedRow) row
  | .fetchMany size => do
    let (rows, c) ← run (c.fetchMany I.library size)
    put name (.dbCursor c)
    return answerCall .shapedRows rows
  | .fetchAll => do
    afterCall name (answerCall .shapedRows) (← run (c.fetchAll I.library fuel))
  | .callProcedure => return .dbError .noProcedures
  | .set arraySize format => do
    put name (.dbCursor { c with
      arraySize := arraySize.getD c.arraySize, format := format.getD c.format })
    return .done
  | .close => do
    put name (.dbCursor (← run (c.close I.library)))
    return .done
  | .status => return .dbStatus c.description c.rowCount c.arraySize c.format
  | _ => return .noStep

def askProcedure (p : Procedure) : Question → Act σ Answer
  | .execute sql _ _ into => do
    storeNew I into .result (← run (p.execute I.library sql))
  | .makeSuccess into => do
    storeNew I into .result (← run (Procedure.success I.library))
  | .makeError code text into => do
    storeNew I into .result (← run (Procedure.error I.library code text))
  | .makeReport r into => do
    storeNew I into .result (← run (Procedure.report I.library r))
  | .wrap raw into => do
    match ← find? raw with
    | some (.raw h) =>
      forget raw
      storeNew I into .result (← run (Procedure.wrap I.library h))
    | some _ => return .noStep
    | none => return .noSlot
  | .buildRow into => do storeNew I into .rowBuilder (← run (RowBuilder.start I.library))
  | .database => return .text (toString p.db.number)
  | _ => return .noStep

def askRowBuilder (name : String) (b : RowBuilder) : Question → Act σ Answer
  | .capacity => return .number (← run (b.capacity I.library)).toInt
  | .fits v => return .truth (← run (b.fits I.library v))
  | .push v => return answer (fun _ => .done) (← run (b.push I.library v))
  | .closeRow => return answer (fun _ => .done) (← run (b.closeRow I.library))
  | .finish into => do
    forget name
    store I into (.result b.finish)
    return .done
  | _ => return .noStep

def askRaw (name : String) (h : Handle) : Question → Act σ Answer
  | .release kind keep => do
    run (call (I.library.results.release h kind))
    if keep then return .done
    else
      forget name
      return .done
  | .builtRows => do
    match I.builtRows with
    | some look => return .rows (← run (call (look h)))
    | none => return .noStep
  | _ => return .noStep

/-- Asks something of an object that is under a name. -/
def askObject (name : String) (o : Object) (what : Question) : Act σ Answer :=
  match what with
  | .drop => do
    forget name
    run (o.drop I.library)
    return .done
  | what =>
    match o with
    | .connection c => askConnection I fuel c what
    | .result r => askResult I name r what
    | .batch b => askBatch I b what
    | .cursor c => askCursor I fuel name c what
    | .dbConnection c => askDbConnection I fuel c what
    | .dbCursor c => askDbCursor I fuel name c what
    | .procedure p => askProcedure I p what
    | .rowBuilder b => askRowBuilder I name b what
    | .raw h => askRaw I name h what

/-! ## Steps -/

/-- Takes a step. The fuel bounds the loops that read rows to their end. -/
def step : Step → Act σ Answer
  | .connect config into => do
    if I.hasClient then
      match ← run (Connection.connect I.library config) with
      | .ok c =>
        store I into (.connection c)
        return .text (← run c.peer)
      | .error e => return .error e
    else return .error (notLoaded config.library)
  | .dbConnect config into => do
    if I.hasClient then
      storeNewDb I into .dbConnection (← run (DbApi.Connection.connect I.library config))
    else return .dbError (.cannotConnect (notLoaded config.library))
  | .dbConnectDefault config => return .dbError (.cannotConnect (notLoaded config.library))
  | .procedure db into => do
    match Procedure.ofDatabase db with
    | .error e => return .error e
    | .ok p =>
      if I.hasHost then
        store I into (.procedure p)
        return .done
      else return .error (notLoaded hostLibrary)
  | .load =>
    return if I.hasClient || I.hasHost then .truth true else .error (notLoaded hostLibrary)
  | .explain code => do
    if I.hasClient then return .text (← run (call (I.library.client.explain code)))
    else return .error (notLoaded hostLibrary)
  | .ask slot what => do
    match ← find? slot with
    | some o => askObject I fuel slot o what
    | none => return .noSlot

/-- Ends all objects, in the order of their names. -/
def dropAll : List (String × Object) → Act σ Unit
  | [] => pure ()
  | (name, o) :: rest => do
    forget name
    run (o.drop I.library)
    dropAll rest

/-- Ends all objects that are left. -/
def finish : Act σ Unit := fun w => dropAll I w.slots w

end Workspace

end Querent
