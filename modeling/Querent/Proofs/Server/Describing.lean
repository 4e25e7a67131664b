import Querent.Proofs.DbApi.Describing
import Querent.Proofs.Server.Closing
import Querent.Proofs.Server.Serving

/-!
# What a select of all columns receives

The server describes the table with a result of its own, which is read to its end and
dropped before the select is sent. None of that sends a statement, and the connection is
held all the time, so that the result that leaves it does not close it.
-/

namespace Querent

namespace Server

/-! ## Between two statements -/

/-- No statement has come in between. -/
def Unasked (s s' : State) : Prop := s'.executed = s.executed

/-- No session has changed in between, and no statement was sent. -/
def Unsent (w w' : World State) : Prop := w'.sessions = w.sessions ∧ Unasked w.lib w'.lib

instance : IsPreorder State Unasked where
  refl _ := rfl
  trans _ _ _ h h' := h'.trans h

instance : IsPreorder (World State) Unsent where
  refl _ := ⟨rfl, rfl⟩
  trans _ _ _ h h' := ⟨h'.1.trans h.1, h'.2.trans h.2⟩

theorem Unasked.of_idle {α : Type} {act : StateM State α} (h : Along Idle act) :
    Along Unasked act :=
  fun s => (h s).1

theorem Unasked.openCursor (h : Handle) : Along Unasked (Server.openCursor h) := by
  refine (Unasked.of_idle (Idle.get h _)).bind fun item => ?_
  split <;> exact .pure _

theorem Unasked.fetch (h : Handle) : Along Unasked (Server.fetch h) := by
  have counted : Along Unasked (modify fun s : State => { s with fetches := s.fetches + 1 }) :=
    fun _ => rfl
  refine counted.bind fun _ => (Unasked.of_idle (Idle.get h _)).bind fun item => ?_
  split
  · next c =>
    have placed : Along Unasked (put h (.cursor c.fetch.2)) := fun _ => rfl
    exact placed.bind fun _ => .pure _
  · exact .pure _

namespace Unsent

variable {w w' : World State} {r : QueryResult} {id : SessionId}

theorem call {α : Type} {act : StateM State α} (h : Along Unasked act) :
    Along Unsent (Querent.call act) :=
  fun w => ⟨rfl, h w.lib⟩

theorem of_idle {α : Type} {act : StateM State α} (h : Along Idle act) :
    Along Unsent (Querent.call act) :=
  call (.of_idle h)

theorem calm : Calm library Unsent where
  kind _ := of_idle (Idle.inspect _ _ _ _)
  isOk _ := of_idle (Idle.inspect _ _ _ _)
  code _ := of_idle (Idle.inspect _ _ _ _)
  details _ := of_idle (Idle.inspect _ _ _ _)
  report _ := of_idle (Idle.inspect _ _ _ _)
  atEnd _ := of_idle (Idle.inspect _ _ _ _)
  release _ k := of_idle (Idle.release _ k)
  copyBatch _ := of_idle (Idle.copyBatch _)
  copyRow _ := of_idle (Idle.copyRow _)
  nextRow _ := of_idle (Idle.nextRow _)
  fieldCount _ := of_idle (Idle.inspect _ _ _ _)
  field _ _ := of_idle (Idle.inspect _ _ _ _)

theorem requests (id : Option SessionId) : Requests library Unsent id := by
  intro r _ what
  have looked : Along Unsent (r.canTalk : Action State Bool) := by
    unfold QueryResult.canTalk
    split
    · exact .pure _
    · exact fun w => ⟨rfl, rfl⟩
  refine looked.bind fun talks => ?_
  split
  · cases what with
    | opening =>
      exact (call (Unasked.openCursor r.handle)).bind fun code => r.along_classify calm code _
    | fetching =>
      exact (call (Unasked.fetch r.handle)).bind fun code => r.along_classify calm code _
  · exact .pure _

theorem collect (fuel : Nat) (c : Cursor) : Along Unsent (c.collect library fuel) :=
  Cursor.along_collect (φ := fun _ => True) (fun _ _ => Cursor.along_next calm (requests _))
    (fun _ _ _ => trivial) fuel trivial

theorem line (h : Unsent w w') (i : SessionId) : w'.line i = w.line i := by
  rw [World.line, World.line, h.1]

theorem holders (h : Unsent w w') (i : SessionId) : w'.holders i = w.holders i := by
  rw [World.holders, World.holders, h.1]

/-- A result that is dropped leaves its session, and nothing else, if another holder
stays. -/
theorem drop (hsession : r.session = some id) (hheld : 1 < w.holders id) :
    ∃ w', Unsent w w' ∧ r.drop library w = ((), departed id w') := by
  rw [QueryResult.drop, bind_apply]
  have kind := r.along_kind calm w
  have same := r.kind_gives library w
  revert kind same
  rcases r.kind library w with ⟨⟨k, r'⟩, w₁⟩
  intro kind same
  have released := trans_of Unsent kind (calm.release r'.handle k w₁)
  have session : r'.session = some id := same.2.trans hsession
  refine ⟨_, released, ?_⟩
  dsimp only
  rw [bind_apply, session]
  refine leave_of_held library fun _ => ?_
  rw [holders_departed_self, released.holders]
  omega

theorem drop_cursor {c : Cursor} (hsession : c.result.session = some id)
    (hheld : 1 < w.holders id) :
    ∃ w', Unsent w w' ∧ c.drop library w = ((), departed id w') := by
  rw [Cursor.drop, bind_apply]
  have released := c.along_releaseBatch calm w
  have same := Cursor.releaseBatch_gives library c w
  revert released same
  rcases c.releaseBatch library w with ⟨c', w₁⟩
  intro released same
  have session : c'.result.session = some id := by
    rw [show c' = _ from same]
    exact hsession
  obtain ⟨w', unsent, run⟩ := drop session (released.holders id ▸ hheld)
  exact ⟨w', trans_of Unsent released unsent, run⟩

end Unsent

/-! ## Rows to the end -/

/-- Collecting the rows of a reading takes its course. -/
theorem Takes.collect {rd : Reading} {c : Course} {fuel : Nat} (h : Takes rd c)
    (hfuel : c.rows.length < fuel) : (rd.collect fuel).1 = some (c.rows, c.error) := by
  induction h generalizing fuel with
  | row hnext _ ih =>
    obtain ⟨fuel, rfl⟩ := Nat.exists_eq_add_one_of_ne_zero (Nat.ne_of_gt (Nat.zero_lt_of_lt hfuel))
    rw [Reading.collect, hnext]
    dsimp only
    rw [ih (Nat.lt_of_succ_lt_succ hfuel)]
    rfl
  | error hnext | finished hnext =>
    obtain ⟨fuel, rfl⟩ := Nat.exists_eq_add_one_of_ne_zero (Nat.ne_of_gt (Nat.zero_lt_of_lt hfuel))
    rw [Reading.collect, hnext]

end Server

/-- The result of a statement that an open connection sends, and the world with it. -/
theorem Connection.execute_answered {w : World Server.State} {H : Server.Holdings} {sql : String}
    {i : Server.Item} (c : Connection) (ha : Server.Accounts w H)
    (hopen : (w.line c.session).isSome) (hsql : passable? sql = .ok sql)
    (hitem : (w.lib.replyTo sql).item = .ok i) :
    c.execute Server.library sql w = (.ok (.new ⟨w.lib.last + 1⟩ (some c.session)),
      (Session.join c.session (Server.answered w sql i)).2) := by
  rw [c.execute_eq ha hopen hsql, bind_apply, Server.receive_eq hitem]
  rfl


namespace DbApi

open Server (Accounts Course Holdings Reply Rows Shows State Takes Unsent library shown)

namespace Cursor

variable {w w' : World State} {H : Holdings} {con : Querent.Connection} {c c' : Cursor}
  {sql table : String} {batches : List Rows} {fuel : Nat}

/-! ## The description -/

/-- An empty row names no column, so that empty batches are not seen in a description. -/
theorem columns_shown (batches : List Rows) :
    (batches.flatMap shown).filterMap columnOf? = batches.flatten.filterMap columnOf? := by
  induction batches with
  | nil => rfl
  | cons rows rest ih =>
    rw [List.flatMap_cons, List.flatten_cons, List.filterMap_append, List.filterMap_append, ih]
    cases rows <;> rfl

/-- A result of batches is read to its end and leaves its session to the other holders. -/
theorem describedColumns_eq {res : QueryResult} {i : Server.Item} {id : SessionId}
    (hs : Server.Stands w res i) (ht : Server.Talks w res) (hsession : res.session = some id)
    (hheld : 1 < w.holders id) (hitem : (Reply.cursor batches).item = .ok i)
    (hsome : batches ≠ []) (hfuel : (batches.flatMap shown).length < fuel) :
    ∃ w', Unsent w w' ∧ describedColumns library fuel res w =
      (some (.ok (batches.flatten.filterMap columnOf?)), departed id w') := by
  have hok : i.isOk = true := by
    cases hitem
    cases batches with
    | nil => exact absurd rfl hsome
    | cons => rfl
  have shows : Shows w (.ofResult res) (.ofItem i) := ⟨hs, trivial, rfl, rfl⟩
  have read := shows.collect fuel ht
  have unsent := Unsent.collect fuel (.ofResult res) w
  have course := (Reply.takes_shown hitem).collect hfuel
  rw [describedColumns, bind_apply, hs.isOk_eq, hok]
  dsimp only
  rw [if_pos rfl, bind_apply]
  revert read unsent
  rcases (Querent.Cursor.ofResult res).collect library fuel w with ⟨⟨rows, cursor⟩, w₁⟩
  rintro ⟨told, became⟩ unsent
  have session : cursor.result.session = some id := became.same.2.trans hsession
  obtain ⟨w', unsent', dropped⟩ :=
    Unsent.drop_cursor session (unsent.holders id ▸ hheld : 1 < w₁.holders id)
  refine ⟨w', trans_of Unsent unsent unsent', ?_⟩
  have rows_eq : rows = some (batches.flatMap shown, none) := told.trans course
  dsimp only
  rw [bind_apply, dropped, rows_eq, ← columns_shown]
  rfl

/-- **The description of a table.** The server is sent the query for the columns and
nothing else, and no session has changed when they are known. -/
theorem describe_eq (ha : Accounts w H) (hopen : (w.line con.session).isSome)
    (star : Statement.selectColumns sql = .star table)
    (hpass : passable? (describing table) = .ok (describing table))
    (reply : w.lib.replyTo (describing table) = .cursor batches) (hsome : batches ≠ [])
    (hfuel : (batches.flatMap shown).length < fuel) :
    ∃ w', describe library fuel con sql w =
        (some (.ok (batches.flatten.filterMap columnOf?)), w') ∧
      w'.sessions = w.sessions ∧ w'.lib.executed = w.lib.executed ++ [describing table] := by
  obtain ⟨i, hitem⟩ : ∃ i, (Reply.cursor batches).item = .ok i := ⟨_, rfl⟩
  have run := con.execute_answered ha hopen hpass (reply ▸ hitem)
  obtain ⟨i', hitem', obtained⟩ := (Server.Executor.connection con).obtained ha run
  rw [reply, hitem] at hitem'
  cases hitem'
  have held : 0 < w.holders con.session := ha.held _ hopen
  have joined := holders_join (w := Server.answered w (describing table) i) held con.session
  rw [if_pos rfl] at joined
  obtain ⟨w', unsent, described⟩ := describedColumns_eq obtained.stands obtained.talks rfl
    (joined.symm ▸ Nat.succ_lt_succ held) hitem hsome hfuel
  refine ⟨departed con.session w', ?_, ?_, unsent.2⟩
  · rw [describe, star]
    dsimp only
    rw [bind_apply, ← describing, run]
    exact described
  · have same : (departed con.session w').sessions = (departed con.session
        (Session.join con.session (Server.answered w (describing table) i)).2).sessions :=
      congrArg (List.modify · con.session _) unsent.1
    exact same.trans departed_join

/-! ## The statement -/

/-- From `c`, statements were sent, and the cursor is to take a course under these
columns. -/
structure Prepared (w : World State) (c : Cursor) (sent columns : List String) (course : Course)
    (w' : World State) (c' : Cursor) : Prop where
  executed : w'.lib.executed = w.lib.executed ++ sent
  connection : c'.connection = c.connection
  format : c'.format = c.format
  description : c'.description = some columns
  serves : Serves w' c' course

/-- A statement that is answered with rows is sent, whatever its columns are. -/
theorem send_prepares {columns : List String} {before : List String} (hrows : c.rows = none)
    (described : describe library fuel c.connection sql w = (some (.ok columns), w'))
    (hsent : w'.lib.executed = w.lib.executed ++ before) (ha : Accounts w' H)
    (hopen : (w'.line c.connection.session).isSome) (hpass : passable? sql = .ok sql)
    (hreply : (w'.lib.replyTo sql).hasRows = true) :
    ∃ c₁ w₁, c.send library fuel sql w = ((some (.ok ()), c₁), w₁) ∧
      Prepared w c (before ++ [sql]) columns (w'.lib.replyTo sql).shownCourse w₁ c₁ := by
  obtain ⟨i, hitem⟩ : ∃ i, (w'.lib.replyTo sql).item = .ok i := by
    cases hr : w'.lib.replyTo sql with
    | row | cursor | failingCursor => exact ⟨_, rfl⟩
    | status | report | error | sendFailure =>
      rw [hr] at hreply
      cases hreply
  have run := c.connection.execute_answered ha hopen hpass hitem
  obtain ⟨i', hitem', obtained⟩ := (Server.Executor.connection c.connection).obtained ha run
  cases hitem.symm.trans hitem'
  have received (w₁ : World State) (h : w₁.lib.executed = w'.lib.executed ++ [sql]) :
      w₁.lib.executed = w.lib.executed ++ (before ++ [sql]) := by
    rw [h, hsent, List.append_assoc]
  rcases Reply.item_cases hreply hitem with ⟨hok, hsort⟩ | ⟨hok, hcode, hnone, herror⟩
  · have accepted := accept_of_gave (c := c) (gave_rows obtained.stands hok hsort columns)
    refine ⟨_, _, send_accepted described run accepted, received _ rfl, rfl, rfl, rfl, rfl, ?_, ?_,
      fun h => by cases h⟩
    · rintro _ ⟨⟩
      rfl
    · rintro _ ⟨⟩
      exact ⟨.ofItem i, ⟨obtained.stands.learned, trivial, rfl, rfl⟩, Reply.takes_shown hitem⟩
  · -- the result is dropped at once, and the connection stays
    have held : 0 < w'.holders c.connection.session := ha.held _ hopen
    have joined := holders_join (w := Server.answered w' sql i) held c.connection.session
    rw [if_pos rfl] at joined
    obtain ⟨w₁, unsent, dropped⟩ := Unsent.drop (r := .new ⟨w'.lib.last + 1⟩ _) rfl
      (by rw [joined]; exact Nat.succ_lt_succ held)
    have accepted := accept_of_gave (c := c) (gave_ended obtained.stands hok hcode columns)
    rw [dropped] at accepted
    refine ⟨_, _, send_accepted described run accepted, received _ unsent.2, rfl, rfl, rfl, rfl,
      ?_, ?_, fun _ => ⟨?_, herror⟩⟩
    · exact fun rows h => by cases hrows.symm.trans h
    · exact fun rows h => by cases hrows.symm.trans h
    · show (Reply.brought _).flatMap shown = []
      rw [hnone]
      rfl

/-- What was executed before is ended without a statement, and the connection stays. -/
theorem close_unsent (ha : Accounts w (c.holdings + H)) (hs : c.Settled) :
    (c.close library w).2.lib.executed = w.lib.executed ∧
      ∀ id, (c.close library w).2.line id = w.line id := by
  rw [close, bind_apply, dropRows]
  cases hrows : c.rows with
  | none => exact ⟨rfl, fun _ => rfl⟩
  | some rows =>
    have session := (hs rows hrows).2
    -- the connection and the rows hold the session both
    have held : 1 < w.holders c.connection.session := by
      have hcon : c.connection.holdings.2.count c.connection.session = 1 :=
        Multiset.count_singleton_self _
      have hresult : rows.result.holdings.2.count c.connection.session = 1 := by
        rw [QueryResult.holdings, session]
        exact Multiset.count_singleton_self _
      rw [← ha.shares, holdings, hrows]
      show 1 < (c.connection.holdings.2 + ((rows.batch.elim 0 Batch.holdings).2 +
        rows.result.holdings.2) + H.2).count c.connection.session
      rw [Multiset.count_add, Multiset.count_add, Multiset.count_add, hcon, hresult]
      omega
    obtain ⟨w', unsent, dropped⟩ := Unsent.drop_cursor session held
    dsimp only
    rw [dropped]
    exact ⟨unsent.2, fun id => (line_departed id).trans (unsent.line id)⟩

/-- **A select of all columns.** The server receives the query for the columns and the
select, in this order and nothing else, and the rows are to come under the columns that
the description names. -/
theorem execute_prepares {op : String} {params : List Value} (ha : Accounts w (c.holdings + H))
    (hs : c.Settled) (hopen : Open w c) (hsql : statementFor op params = .ok sql)
    (star : Statement.selectColumns sql = .star table)
    (hdescribing : passable? (describing table) = .ok (describing table))
    (hpass : passable? sql = .ok sql)
    (reply : w.lib.replyTo (describing table) = .cursor batches) (hsome : batches ≠ [])
    (hrows : (w.lib.replyTo sql).hasRows = true)
    (hfuel : (batches.flatMap shown).length < fuel) :
    ∃ c' w', c.execute library fuel op params w = ((some (.ok ()), c'), w') ∧
      Prepared w c [describing table, sql] (batches.flatten.filterMap columnOf?)
        (w.lib.replyTo sql).shownCourse w' c' := by
  obtain ⟨hended, spares⟩ := c.keeps_close w H ha
  obtain ⟨executed, line⟩ := close_unsent ha hs
  have closed : (c.close library w).1 = c.reset := c.close_gives w
  rw [closed] at hended
  have alone : c.reset.holdings = c.connection.holdings := holdings_of_none rfl
  have hended : Accounts (c.close library w).2 (c.connection.holdings + H) := alone ▸ hended
  have replies (text : String) :
      (c.close library w).2.lib.replyTo text = w.lib.replyTo text := by
    rw [State.replyTo, State.replyTo, spares.script]
  have open₁ : ((c.close library w).2.line c.connection.session).isSome := by
    rw [line]
    exact hopen
  obtain ⟨w₁, described, sessions, sent⟩ :=
    describe_eq hended open₁ star hdescribing (replies _ ▸ reply) hsome hfuel
  obtain ⟨hdescribed, spares₁⟩ := keeps_describe fuel c.connection sql _ H hended
  rw [described] at hdescribed spares₁
  have replies₁ (text : String) : w₁.lib.replyTo text = w.lib.replyTo text := by
    rw [← replies, State.replyTo, State.replyTo, spares₁.script]
  have open₂ : (w₁.line c.connection.session).isSome := by
    rw [World.line, sessions]
    exact open₁
  obtain ⟨c', w', run, prepared⟩ := send_prepares (c := c.reset) rfl described sent hdescribed
    open₂ hpass (replies₁ sql ▸ hrows)
  rw [replies₁] at prepared
  refine ⟨c', w', ?_, prepared.executed.trans (by rw [executed]; rfl), prepared.connection,
    prepared.format, prepared.description, prepared.serves⟩
  rw [execute_of_statement hsql]
  exact run

end Cursor

end DbApi

end Querent
