import Querent.Proofs.CommandLine.Exchange
import Querent.Proofs.Server.Describing
import Querent.Proofs.Statement.Ending
import Querent.Proofs.Workspace.Fetching

/-!
# Rows under the names of a table

The names of a `select *` come from one statement and its values from another. The two
are put together by position, and neither has to be as long as the other: a value
without a name gets one from its position, and a name without a value is left out.
-/

namespace Querent

/-! ## Rows and names -/

namespace DbApi

/-- The column that a row of a description names by its first field: a text as it is,
any other value in its display form. -/
def namedColumn? : Row → Option String
  | .text name :: _ => some name
  | v :: _ => some v.display
  | [] => none

theorem namedColumn?_eq (row : Row) : namedColumn? row = Cursor.columnOf? row := by
  cases row with
  | nil => rfl
  | cons v rest => cases v <;> rfl

/-- `r` presents the values of a row in a format, where the values of a dictionary stand
under these columns, and those after the last column under `col` and their position. -/
structure Presents (columns : List String) (format : RowFormat) (row : Row) (r : ShapedRow) :
    Prop where
  values : r.values = row
  length : r.length = row.length
  tuple : format = .tuple → r = .tuple row
  list : format = .list → r = .list row
  dict : format = .dict → ∃ fields, r = .dict fields ∧ fields.map (·.2) = row ∧
    fields.map (·.1) = (List.range row.length).map fun i => columns[i]?.getD ("col" ++ toString i)
  get? : format = .dict → ∀ name v, r.get? name = some v ↔
    ∃ i : Nat, row[i]? = some v ∧ columns[i]?.getD ("col" ++ toString i) = name ∧
      ∀ j < i, columns[j]?.getD ("col" ++ toString j) ≠ name

namespace ShapedRow

variable {columns : List String} {format : RowFormat} {row : Row} {name : String} {v : Value}

/-- The value under a name is that of the first field so named. -/
theorem get?_ofRow : (ofRow .dict columns row).get? name = some v ↔
    ∃ i, row[i]? = some v ∧ columnName columns i = name ∧
      ∀ j < i, columnName columns j ≠ name := by
  rw [ofRow, get?, Option.map_eq_some_iff]
  constructor
  · rintro ⟨⟨found, _⟩, hfind, rfl⟩
    obtain ⟨hname, i, hi, hget, hfirst⟩ := List.find?_eq_some_iff_getElem.mp hfind
    rw [List.getElem_mapIdx] at hget
    obtain ⟨rfl, rfl⟩ := Prod.mk.inj hget
    refine ⟨i, List.getElem?_eq_getElem _, of_decide_eq_true hname, fun j hj => ?_⟩
    simpa using hfirst j hj
  · rintro ⟨i, hget, hname, hfirst⟩
    obtain ⟨hi, rfl⟩ := List.getElem?_eq_some_iff.mp hget
    refine ⟨(columnName columns i, row[i]), ?_, rfl⟩
    refine List.find?_eq_some_iff_getElem.mpr ⟨decide_eq_true hname, i, ?_, ?_, fun j hj => ?_⟩
    · rwa [List.length_mapIdx]
    · exact List.getElem_mapIdx ..
    · simpa using hfirst j hj

theorem presents_ofRow (columns : List String) (format : RowFormat) (row : Row) :
    Presents columns format row (ofRow format columns row) where
  values := values_ofRow format columns row
  length := by rw [length, values_ofRow]
  tuple := by
    rintro rfl
    rfl
  list := by
    rintro rfl
    rfl
  dict := by
    rintro rfl
    refine ⟨_, rfl, List.ext_getElem (by simp) (by simp), ?_⟩
    refine List.ext_getElem (by simp) fun i _ _ => ?_
    rw [List.getElem_map, List.getElem_map, List.getElem_mapIdx, List.getElem_range]
    rfl
  get? := by
    rintro rfl name v
    exact get?_ofRow

end ShapedRow

/-! ## Fetching -/

namespace Cursor

/-- The rows were fetched in the format and under the names of a cursor, which has kept
both. -/
structure Shapes (c : Cursor) (rows : List ShapedRow) (c' : Cursor) : Prop where
  description : c'.description = c.description
  format : c'.format = c.format
  rows : ∀ r ∈ rows, r = .ofRow c.format (c.description.getD []) r.values

theorem Shapes.nothing {c c' : Cursor} (hdescription : c'.description = c.description)
    (hformat : c'.format = c.format) : Shapes c [] c' :=
  ⟨hdescription, hformat, fun _ h => by cases h⟩

theorem Shapes.append {c c' c'' : Cursor} {rows rows' : List ShapedRow} (h : Shapes c rows c')
    (h' : Shapes c' rows' c'') : Shapes c (rows ++ rows') c'' where
  description := h'.description.trans h.description
  format := h'.format.trans h.format
  rows := by
    intro r hr
    rcases List.mem_append.mp hr with hr | hr
    · exact h.rows r hr
    · rw [← h.description, ← h.format]
      exact h'.rows r hr

section Shaping

variable {σ : Type} (L : Library σ)

/-- A row that is fetched is in the format of the cursor and under its names. -/
theorem fetched_shapes (c : Cursor) (y : Yield) (rows : Querent.Cursor) :
    Shapes c ((c.fetched y).toOption.join.toList) (c.afterYield y rows) := by
  cases y with
  | finished | error => exact .nothing rfl rfl
  | row row =>
    unfold fetched
    dsimp only
    split
    · refine ⟨rfl, rfl, fun r hr => ?_⟩
      obtain rfl := List.mem_singleton.mp hr
      rw [ShapedRow.values_ofRow]
    · exact .nothing rfl rfl

theorem fetchOne_shapes (c : Cursor) : Gives (c.fetchOne L) fun x =>
    Shapes c (x.1.toOption.join.toList) x.2 := by
  unfold fetchOne
  split
  · exact Gives.pure (.nothing rfl rfl)
  · split
    · exact Gives.pure (.nothing rfl rfl)
    · exact Gives.bind_any fun (y, rows) => Gives.pure (c.fetched_shapes y rows)

theorem fetchUpTo_shapes (n : Nat) (c : Cursor) : Gives (c.fetchUpTo L n) fun x =>
    Shapes c (x.1.toOption.getD []) x.2 := by
  induction n generalizing c with
  | zero => exact Gives.pure (.nothing rfl rfl)
  | succ n ih =>
    refine (fetchOne_shapes L c).bind fun (row, c') h => ?_
    rcases row with e | (_ | row)
    · exact Gives.pure h
    · exact Gives.pure h
    · refine (ih c').bind fun (more, c'') h' => Gives.pure ?_
      cases more with
      | error e => exact .nothing (h'.description.trans h.description) (h'.format.trans h.format)
      | ok more => exact h.append h'

theorem fetchMany_shapes (size : Option Nat) (c : Cursor) : Gives (c.fetchMany L size) fun x =>
    Shapes c (x.1.toOption.getD []) x.2 := by
  unfold fetchMany
  dsimp only
  split
  · exact c.fetchUpTo_shapes L _
  · exact Gives.pure (.nothing rfl rfl)

theorem fetchAll_shapes (fuel : Nat) (c : Cursor) : Gives (c.fetchAll L fuel) fun x =>
    Shapes c ((x.1.bind Except.toOption).getD []) x.2 := by
  induction fuel generalizing c with
  | zero => exact Gives.pure (.nothing rfl rfl)
  | succ fuel ih =>
    refine (fetchOne_shapes L c).bind fun (row, c') h => ?_
    rcases row with e | (_ | row)
    · exact Gives.pure h
    · exact Gives.pure h
    · refine (ih c').bind fun (more, c'') h' => Gives.pure ?_
      rcases more with _ | (e | more)
      · exact .nothing (h'.description.trans h.description) (h'.format.trans h.format)
      · exact .nothing (h'.description.trans h.description) (h'.format.trans h.format)
      · exact h.append h'

end Shaping

end Cursor

end DbApi

namespace Workspace

open Server (Accounts Course Reply Rows State installation library shown)
open DbApi (Failure Presents RowFormat ShapedRow namedColumn? describing)
open DbApi.Cursor (Prepared Serves Shapes)

/-! ## The rows of a program -/

/-- The fetched rows of an answer, in their form. -/
def Answer.inForm : Answer → List ShapedRow
  | .fetchedRow r => r.toList
  | .shapedRow r => [r]
  | .shapedRows rs => rs
  | _ => []

/-- The rows that a run fetches from the cursor under a name, each with the format that
the cursor was set to, until the cursor ends, is replaced, or what it has executed ends. -/
def fetchedRows (fuel : Nat) (name : String) :
    List Step → Workspace State → List (RowFormat × ShapedRow)
  | [], _ => []
  | s :: rest, ws =>
    let out := step installation fuel s ws
    match ws.slots.get? name with
    | some (.dbCursor c) =>
      match askedOf name s with
      | some q =>
        if q.endsRows then []
        else match asksFor c q with
          | some _ => out.1.inForm.map (c.format, ·) ++ fetchedRows fuel name rest out.2
          | none => fetchedRows fuel name rest out.2
      | none =>
        if out.2.slots.get? name = some (.dbCursor c) then fetchedRows fuel name rest out.2
        else []
    | _ => []

variable {ws : Workspace State} {l : Ledger} {name : String} {c : DbApi.Cursor} {fuel : Nat}
  {columns : List String}

theorem rows_of_answer (wanted : Option Nat) (a : Answer) :
    Fetch.rows ⟨wanted, a.fetched?⟩ = a.inForm.map ShapedRow.values := by
  cases a with
  | fetchedRow r => cases r <;> rfl
  | _ => rfl

/-- The values of the rows are what the calls return. -/
theorem fetchedRows_values (fuel : Nat) (name : String) (steps : List Step)
    (ws : Workspace State) : (fetchedRows fuel name steps ws).map (·.2.values) =
      (fetches fuel name steps ws).flatMap Fetch.rows := by
  induction steps generalizing ws with
  | nil => rfl
  | cons s rest ih =>
    unfold fetchedRows fetches
    cases ws.slots.get? name with
    | none => rfl
    | some o =>
      cases o with
      | dbCursor c =>
        dsimp only
        cases askedOf name s with
        | none =>
          dsimp only
          by_cases hsame : (step installation fuel s ws).2.slots.get? name = some (.dbCursor c)
          · rw [if_pos hsame, if_pos hsame]
            exact ih _
          · rw [if_neg hsame, if_neg hsame]
            rfl
        | some q =>
          dsimp only
          cases q.endsRows with
          | true => rfl
          | false =>
            rw [if_neg Bool.false_ne_true, if_neg Bool.false_ne_true]
            cases asksFor c q with
            | none => exact ih _
            | some wanted =>
              dsimp only
              rw [List.map_append, List.map_map, List.flatMap_cons, ih, rows_of_answer]
              rfl
      | _ => rfl

theorem inForm_row {f : Option ShapedRow → Answer} (hf : ∀ row, (f row).inForm = row.toList)
    (x : Except Failure (Option ShapedRow)) :
    (answerCall f x).inForm = x.toOption.join.toList := by
  rcases x with (e | p) | row
  · rfl
  · rfl
  · exact hf row

theorem inForm_rows (x : Except Failure (List ShapedRow)) :
    (answerCall .shapedRows x).inForm = x.toOption.getD [] := by
  rcases x with (e | p) | rows <;> rfl

/-- A question that does not end the rows of a cursor leaves its description, and the
rows that it fetches are in the format of the cursor and under its description. -/
theorem own_shapes {q : Question} (fuel : Nat) (hget : ws.slots.get? name = some (.dbCursor c))
    (hends : q.endsRows = false) :
    let out := step installation fuel (.ask name q) ws
    ∃ c', out.2.slots.get? name = some (.dbCursor c') ∧ c'.description = c.description ∧
      ∀ wanted, asksFor c q = some wanted → ∀ r ∈ out.1.inForm,
        r = .ofRow c.format (c.description.getD []) r.values := by
  intro out
  have put {answer : Answer} {c' : DbApi.Cursor} {w : World State} {rows : List ShapedRow}
      (run : out = (answer, ⟨w, ws.slots.set name (.dbCursor c')⟩))
      (shapes : Shapes c rows c') (told : answer.inForm = rows) :
      ∃ c', out.2.slots.get? name = some (.dbCursor c') ∧ c'.description = c.description ∧
        ∀ wanted, asksFor c q = some wanted → ∀ r ∈ out.1.inForm,
          r = .ofRow c.format (c.description.getD []) r.values := by
    rw [run, told]
    exact ⟨c', Slots.get?_set_self, shapes.description, fun _ _ => shapes.rows⟩
  have other {answer : Answer} {c' : DbApi.Cursor} {ws' : Workspace State}
      (run : out = (answer, ws')) (hget' : ws'.slots.get? name = some (.dbCursor c'))
      (hdescription : c'.description = c.description) (hq : asksFor c q = none) :
      ∃ c', out.2.slots.get? name = some (.dbCursor c') ∧ c'.description = c.description ∧
        ∀ wanted, asksFor c q = some wanted → ∀ r ∈ out.1.inForm,
          r = .ofRow c.format (c.description.getD []) r.values := by
    rw [run]
    exact ⟨c', hget', hdescription, fun wanted hwanted => by cases hq.symm.trans hwanted⟩
  cases q with
  | fetchOne =>
    exact put (step_ask_eq hget fuel .fetchOne) (c.fetchOne_shapes library ws.world)
      (inForm_row (fun row => by cases row <;> rfl) _)
  | next =>
    refine put (step_ask_eq hget fuel .next) (c.fetchOne_shapes library ws.world)
      (inForm_row (f := fun row => row.elim .finished .shapedRow) (fun row => ?_) _)
    cases row <;> rfl
  | fetchMany size =>
    exact put (step_ask_eq hget fuel (.fetchMany size))
      (c.fetchMany_shapes library size ws.world) (inForm_rows _)
  | fetchAll =>
    refine put (step_ask_eq hget fuel .fetchAll) (c.fetchAll_shapes library fuel ws.world) ?_
    rw [Server.installation_library]
    rcases (c.fetchAll library fuel ws.world).1.1 with _ | rows
    · rfl
    · exact inForm_rows rows
  | execute | close | drop => cases hends
  | executeMany sql seq =>
    cases seq with
    | nil => exact other (step_ask_eq hget fuel (.executeMany sql [])) Slots.get?_set_self rfl rfl
    | cons => cases hends
  | set arraySize format =>
    exact other (step_ask_eq hget fuel (.set arraySize format)) Slots.get?_set_self rfl rfl
  | _ => exact other (step_ask_eq hget fuel _) hget rfl rfl

/-- **Rows in form.** While what a cursor has executed lasts, its description does, and
all that is fetched from it stands under that description, in the format that the cursor
has at the time. -/
theorem fetchedRows_presented (hget : ws.slots.get? name = some (.dbCursor c))
    (hcolumns : c.description = some columns) (steps : List Step) :
    ∀ p ∈ fetchedRows fuel name steps ws, Presents columns p.1 p.2.values p.2 := by
  induction steps generalizing ws c with
  | nil => exact fun _ h => by cases h
  | cons s rest ih =>
    rw [fetchedRows, hget]
    dsimp only
    cases hasked : askedOf name s with
    | none =>
      dsimp only
      split
      · next hsame => exact ih hsame hcolumns
      · exact fun _ h => by cases h
    | some q =>
      obtain rfl := asked_of_askedOf hasked
      dsimp only
      cases hends : q.endsRows with
      | true => exact fun _ h => by cases h
      | false =>
        obtain ⟨c', hget', hdescription, shaped⟩ := own_shapes fuel hget hends
        have later := ih hget' (hdescription.trans hcolumns)
        rw [if_neg Bool.false_ne_true]
        cases hq : asksFor c q with
        | none => exact later
        | some wanted =>
          intro p hp
          rcases List.mem_append.mp hp with hp | hp
          · obtain ⟨r, hr, rfl⟩ := List.mem_map.mp hp
            have form := shaped wanted hq r hr
            rw [hcolumns] at form
            have presented := ShapedRow.presents_ofRow columns c.format r.values
            rw [show ShapedRow.ofRow c.format columns r.values = r from form.symm] at presented
            exact presented
          · exact later p hp

/-! ## A select of all columns -/

/-- A session is open throughout a run if it is after each beginning of the run. -/
theorem StaysOpen.of_inits {id : SessionId} {steps : List Step}
    (h : ∀ done ∈ steps.inits, ((play installation fuel done ws).world.line id).isSome) :
    StaysOpen fuel (some id) steps ws := by
  rintro done hdone _ ⟨⟩
  exact h done ((List.mem_inits done steps).mpr hdone)

/-- A cursor that executes a select of all columns is done, and prepared for its rows. -/
theorem star_executed {slot op table : String} {params : List Value} {batches : List Rows}
    (hk : Kept ws l) (hget : ws.slots.get? slot = some (.dbCursor c)) (into : String)
    (format : RowFormat) (hopen : (ws.world.line c.connection.session).isSome)
    (hsql : DbApi.Cursor.statementFor op params = .ok ("select * from " ++ table))
    (htable : Statement.IsTable table) (hpassable : Querent.Passable table)
    (hdescribe : ws.world.lib.replyTo (describing table) = .cursor batches) (hsome : batches ≠ [])
    (hselect : (ws.world.lib.replyTo ("select * from " ++ table)).hasRows = true)
    (hfuel : (batches.flatMap shown).length < fuel) :
    ∃ cur w', step installation fuel (.ask slot (.execute op params format into)) ws =
        (.done, ⟨w', ws.slots.set slot (.dbCursor cur)⟩) ∧
      Prepared ws.world c [describing table, "select * from " ++ table]
        (batches.flatten.filterMap DbApi.Cursor.columnOf?)
        (ws.world.lib.replyTo ("select * from " ++ table)).shownCourse w' cur := by
  have ha : Accounts ws.world (c.holdings + ((ws.slots.erase slot).total +
      Server.ownsAll l.outstanding)) := by
    rw [← add_assoc]
    exact Slots.total_erase hk.sorted hget ▸ hk.accounts
  have settled : c.Settled := hk.fit slot _ hget
  have passable {text : String} (h : Querent.Passable text) : passable? text = .ok text :=
    (passable?_of text).elim And.right fun ⟨hnot, _⟩ => absurd h hnot
  have joined (verb : String) (hverb : '\x00' ∉ verb.toList) :
      Querent.Passable (verb ++ table) := by
    rw [Querent.Passable, String.toList_append, List.mem_append]
    exact fun h => h.elim hverb hpassable
  obtain ⟨cur, w', run, prepared⟩ := DbApi.Cursor.execute_prepares ha settled hopen hsql
    (Statement.selectColumns_star htable) (passable (joined "describe " (by decide)))
    (passable (joined "select * from " (by decide))) hdescribe hsome hselect hfuel
  refine ⟨cur, w', ?_, prepared⟩
  have asked : step installation fuel (.ask slot (.execute op params format into)) ws =
      afterCall slot (answerDb fun _ => .done) (c.execute library fuel op params ws.world).1
        ⟨(c.execute library fuel op params ws.world).2, ws.slots⟩ := step_ask_eq hget fuel _
  rw [asked, run]
  rfl

/-- **Two statements make one table.** In any state that a program can reach, let a cursor
of the DB-API on an open connection execute `select * from t`, where `t` is one word, and
let the server answer the description of `t` with at least one batch and the select with
rows. Then the execution succeeds; the server receives the query for the columns and the
select, and nothing else; and the description of the cursor are the first fields of the
described rows that have one. Whatever the program does with the cursor from then on, and
with anything else, while the connection stays open: the rows that it fetches are the
first rows of the select, in order, and each is presented in the format that the cursor
is set to, under the columns of the description. -/
theorem select_star_described (replies : List (String × Reply)) (connectFailure : Option Code)
    (rowCapacity : Int32) (fuel : Nat) (before : List Step) (slot into op table : String)
    (params : List Value) (format : RowFormat) (c : DbApi.Cursor) (batches : List Rows)
    (hget : (play installation fuel before
      (start (.scripted replies connectFailure rowCapacity))).slots.get? slot = some (.dbCursor c))
    (hopen : ((play installation fuel before
      (start (.scripted replies connectFailure rowCapacity))).world.line
        c.connection.session).isSome)
    (hsql : DbApi.Cursor.statementFor op params = .ok ("select * from " ++ table))
    (htable : Statement.IsTable table) (hpassable : Querent.Passable table)
    (hdescribe : (State.scripted replies connectFailure rowCapacity).replyTo
      ("describe " ++ table) = .cursor batches) (hsome : batches ≠ [])
    (hselect : ((State.scripted replies connectFailure rowCapacity).replyTo
      ("select * from " ++ table)).hasRows = true)
    (hfuel : (batches.flatMap shown).length < fuel ∧
      ((State.scripted replies connectFailure rowCapacity).replyTo
        ("select * from " ++ table)).shownCourse.rows.length < fuel) :
    let server := State.scripted replies connectFailure rowCapacity
    let ws := play installation fuel before (start server)
    let out := step installation fuel (.ask slot (.execute op params format into)) ws
    let columns := batches.flatten.filterMap namedColumn?
    out.1 = .done ∧
    out.2.world.lib.executed =
      ws.world.lib.executed ++ ["describe " ++ table, "select * from " ++ table] ∧
    ∃ cur, out.2.slots.get? slot = some (.dbCursor cur) ∧ cur.description = some columns ∧
      ∀ steps, StaysOpen fuel (some c.connection.session) steps out.2 →
        let fetched := fetchedRows fuel slot steps out.2
        fetched.map (·.2.values) <+:
          (server.replyTo ("select * from " ++ table)).shownCourse.rows ∧
        ∀ p ∈ fetched, Presents columns p.1 p.2.values p.2 := by
  intro server ws out columns
  obtain ⟨hobj, -⟩ := Server.State.scripted_fresh replies connectFailure rowCapacity
  have hk := (kept_start hobj).after_play fuel before
  have reply (sql : String) : ws.world.lib.replyTo sql = server.replyTo sql :=
    (kept_start hobj).replyTo_play fuel before sql
  obtain ⟨cur, w', run, prepared⟩ := star_executed hk hget into format hopen hsql htable hpassable
    ((reply _).trans hdescribe) hsome (by rw [reply]; exact hselect) hfuel.1
  rw [reply] at prepared
  have description : cur.description = some columns := by
    rw [prepared.description]
    exact congrArg some (List.filterMap_congr fun row _ => (DbApi.namedColumn?_eq row).symm)
  have hk' := hk.after_step fuel (.ask slot (.execute op params format into))
  rw [show out = _ from run]
  rw [show step installation fuel (.ask slot (.execute op params format into)) _ = _ from run]
    at hk'
  have there : (ws.slots.set slot (.dbCursor cur)).get? slot = some (.dbCursor cur) :=
    Slots.get?_set_self
  refine ⟨rfl, prepared.executed, cur, there, description, fun steps hstays => ⟨?_, ?_⟩⟩
  · rw [← prepared.connection] at hstays
    rw [fetchedRows_values, fetches_eq_calls prepared.serves hk' there hfuel.2 steps hstays]
    exact calls_prefix (List.prefix_refl _)
  · exact fetchedRows_presented there description steps

/-- The description comes in three batches, the first of them empty, with a row that has no
field and a name that is a number; the rows of the table have more and fewer values than
that. One row is fetched as a dictionary and the other as a list. -/
theorem select_star_described_ragged :
    let replies := [("describe t", .cursor [[], [[.text "a", .null], []], [[.uint 5]]]),
      ("select * from t", .cursor [[[.bool true, .null, .bool false]], [[.null]]])]
    let steps : List Step :=
      [.ask "k" .fetchOne, .ask "k" (.set none (some .list)), .ask "k" .fetchAll]
    let out := step installation 9 (.ask "k" (.execute "select * from t" [] .dict ""))
      (play installation 9 [.dbConnect {} "d", .ask "d" (.cursor "k")]
        (start (.scripted replies none 8192)))
    let fetched := fetchedRows 9 "k" steps out.2
    out.1 = .done ∧ out.2.world.lib.executed = ["describe t", "select * from t"] ∧
      ∃ cur, out.2.slots.get? "k" = some (.dbCursor cur) ∧ cur.description = some ["a", "5"] ∧
        fetched = [(.dict, .dict [("a", .bool true), ("5", .null), ("col2", .bool false)]),
          (.list, .list [.null])] ∧
        ∀ p ∈ fetched, Presents ["a", "5"] p.1 p.2.values p.2 := by
  intro replies steps
  obtain ⟨done, executed, cur, there, description, rows⟩ := select_star_described replies none 8192
    9 [.dbConnect {} "d", .ask "d" (.cursor "k")] "k" "" "select * from t" "t" [] .dict
    (.ofConnection ⟨0⟩) [[], [[.text "a", .null], []], [[.uint 5]]] (by decide +kernel)
    (by decide +kernel) rfl ⟨by decide, List.forall_mem_singleton.mpr (by decide), by decide⟩
    (by decide) (by decide +kernel) (by decide) (by decide +kernel) (by decide +kernel)
  have names : [[], [[.text "a", .null], []], [[.uint 5]]].flatten.filterMap namedColumn? =
      ["a", "5"] := by decide +kernel
  rw [names] at description rows
  exact ⟨done, executed.trans (by decide +kernel), cur, there, description, by decide +kernel,
    (rows steps (.of_inits (by decide +kernel))).2⟩

end Workspace

end Querent
