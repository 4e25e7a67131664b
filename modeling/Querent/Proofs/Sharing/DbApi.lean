import Querent.DbApi.Connection
import Querent.Proofs.Sharing.Connections

/-!
# What the DB-API enters into the register

A cursor of the DB-API has a stake of its own besides that of its rows. When it executes
it drops the rows that it has, and has those of the new result instead. A connection that
cannot use its database is closed by its only holder, before it is dropped.
-/

namespace Querent.DbApi

variable {σ : Type} {p : Past} {F : Stakes} {L : Library σ}

namespace Cursor

variable {c : Cursor}

def stakes (c : Cursor) : Stakes := c.connection.stakes + c.rows.elim 0 Querent.Cursor.stakes

theorem stakes_of_none (hrows : c.rows = none) : c.stakes = c.connection.stakes := by
  rw [stakes, hrows]
  exact add_zero _

theorem stakes_of_some {rows : Querent.Cursor} (hrows : c.rows = some rows) :
    c.stakes = c.connection.stakes + rows.stakes := by
  rw [stakes, hrows]
  rfl

theorem enters_dropRows (c : Cursor) :
    Enters p (c.dropRows L.recorded) c.stakes fun _ => c.connection.stakes := by
  unfold dropRows
  split
  · next rows hrows =>
    exact (rows.enters_drop.ending c.connection.stakes).conv
      ((stakes_of_some hrows).trans (add_comm _ _)) fun _ => rfl
  · next hrows => exact Enters.pure (stakes_of_none hrows).symm

theorem enters_close (c : Cursor) :
    Enters p (c.close L.recorded) c.stakes fun c' => c'.stakes :=
  c.enters_dropRows.bind fun _ => Enters.pure (add_zero _)

theorem enters_drop (c : Cursor) : Enters p (c.drop L.recorded) c.stakes fun _ => 0 := by
  have left : Enters p (c.connection.drop L.recorded) c.stakes
      fun _ => c.rows.elim 0 Querent.Cursor.stakes :=
    c.connection.enters_drop.ending _
  refine left.bind fun _ => ?_
  unfold dropRows
  split
  · next rows hrows =>
    rw [hrows]
    exact rows.enters_drop
  · next hrows => exact Enters.pure (by rw [hrows]; rfl)

/-! ## Descriptions -/

theorem enters_describedColumns (fuel : Nat) (res : QueryResult) :
    Enters p (describedColumns L.recorded fuel res) res.stakes fun _ => 0 := by
  refine (Enters.quiet (Quiet.calm.isOk res.handle)).bind fun ok => ?_
  split
  · refine ((Querent.Cursor.ofResult res).enters_collect fuel).bind fun (rows, cursor) => ?_
    exact cursor.enters_drop.bind fun _ => Enters.pure rfl
  · exact (Enters.quiet (res.along_details Quiet.calm)).bind fun _ =>
      res.enters_drop.bind fun _ => Enters.pure rfl

theorem enters_describe (fuel : Nat) (con : Querent.Connection) (sql : String) :
    Enters p (describe L.recorded fuel con sql) con.stakes fun _ => con.stakes := by
  unfold describe
  split
  · exact Enters.pure rfl
  · exact Enters.pure rfl
  · refine (con.enters_execute _).bind fun made => ?_
    cases made with
    | error e => exact Enters.pure (zero_add _).symm
    | ok res => exact (enters_describedColumns fuel res).ending con.stakes

/-! ## Executing -/

theorem enters_accept (hrows : c.rows = none) (columns : List String) (res : QueryResult) :
    Enters p (c.accept L.recorded columns res) (res.stakes + c.stakes) fun x => x.2.stakes := by
  -- no rows are at hand, so those of `res` can take their place
  have alone := stakes_of_none hrows
  have dropped (res : QueryResult) :
      Enters p (res.drop L.recorded) (res.stakes + c.stakes) fun _ => c.stakes :=
    res.enters_drop.ending c.stakes
  refine (Enters.quiet (Quiet.calm.isOk res.handle)).bind fun ok => ?_
  split
  · refine (Enters.quiet (res.along_kind Quiet.calm)).bind_gives (res.kind_gives _)
      fun (k, res') same => ?_
    rw [← QueryResult.stakes_same same]
    have kept : c.connection.stakes + (Querent.Cursor.ofResult res').stakes =
        res'.stakes + c.stakes := by
      rw [alone]
      exact add_comm _ _
    cases k with
    | cursor | row => exact Enters.pure kept
    | report =>
      refine (Enters.quiet (res'.along_report Quiet.calm)).bind_gives
        (res'.report_gives _) fun (report, res'') same' => ?_
      rw [← QueryResult.stakes_same same']
      refine (dropped res'').bind fun _ => ?_
      cases report <;> exact Enters.pure rfl
    | nothing | status | unknown => exact (dropped res').bind fun _ => Enters.pure rfl
  · refine (Enters.quiet (Quiet.calm.code res.handle)).bind fun code => ?_
    split
    · exact (dropped res).bind fun _ => Enters.pure rfl
    · refine (Enters.quiet (Quiet.calm.code res.handle)).bind fun code => ?_
      refine (Enters.quiet (res.along_details Quiet.calm)).bind fun details => ?_
      exact (dropped res).bind fun _ => Enters.pure rfl

theorem enters_send (fuel : Nat) (hrows : c.rows = none) (sql : String) :
    Enters p (c.send L.recorded fuel sql) c.stakes fun x => x.2.stakes := by
  have alone := stakes_of_none hrows
  rw [alone]
  refine (enters_describe fuel c.connection sql).bind fun described => ?_
  rcases described with _ | (e | columns)
  · exact Enters.pure alone
  · exact Enters.pure alone
  · refine (c.connection.enters_execute _).bind fun made => ?_
    rw [← alone]
    cases made with
    | error e => exact Enters.pure (zero_add _).symm
    | ok res => exact (enters_accept hrows columns res).bind fun _ => Enters.pure rfl

theorem enters_execute (fuel : Nat) (c : Cursor) (op : String) (params : List Value) :
    Enters p (c.execute L.recorded fuel op params) c.stakes fun x => x.2.stakes := by
  have closed : Gives (c.close L.recorded) fun c' => c' = c.reset :=
    Gives.bind_any fun _ => Gives.pure rfl
  refine c.enters_close.bind_gives closed fun c' hc' => ?_
  split
  · exact Enters.pure rfl
  · exact enters_send fuel (by rw [hc']; rfl) _

theorem enters_executeEach (fuel : Nat) (op : String) (total : Option Int64) (c : Cursor)
    (seq : List (List Value)) :
    Enters p (executeEach L.recorded fuel op total c seq) c.stakes fun x => x.2.stakes := by
  induction seq generalizing total c with
  | nil => cases total <;> exact Enters.pure rfl
  | cons params rest ih =>
    refine (c.enters_execute fuel op params).bind fun (outcome, c') => ?_
    rcases outcome with _ | (e | _)
    · exact Enters.pure rfl
    · exact Enters.pure rfl
    · dsimp only
      split
      · exact ih _ c'
      · exact Enters.pure rfl

/-! ## Fetching -/

theorem enters_fetchOne (c : Cursor) :
    Enters p (c.fetchOne L.recorded) c.stakes fun x => x.2.stakes := by
  unfold fetchOne
  split
  · exact Enters.pure rfl
  · split
    · exact Enters.pure rfl
    · next rows hrows =>
      refine (Enters.quiet rows.quiet_next).bind_gives (Querent.Cursor.next_same _)
        fun (y, rows') same => ?_
      have kept : c.connection.stakes + rows'.stakes = c.stakes := by
        rw [Querent.Cursor.stakes_same same, stakes_of_some hrows]
      exact Enters.pure kept

theorem enters_fetchUpTo (n : Nat) (c : Cursor) :
    Enters p (fetchUpTo L.recorded n c) c.stakes fun x => x.2.stakes := by
  induction n generalizing c with
  | zero => exact Enters.pure rfl
  | succ n ih =>
    refine c.enters_fetchOne.bind fun (row, c') => ?_
    rcases row with e | (_ | row)
    · exact Enters.pure rfl
    · exact Enters.pure rfl
    · exact (ih c').bind fun _ => Enters.pure rfl

theorem enters_fetchMany (size : Option Nat) (c : Cursor) :
    Enters p (c.fetchMany L.recorded size) c.stakes fun x => x.2.stakes := by
  unfold fetchMany
  dsimp only
  split
  · exact enters_fetchUpTo _ c
  · exact Enters.pure rfl

theorem enters_fetchAll (fuel : Nat) (c : Cursor) :
    Enters p (fetchAll L.recorded fuel c) c.stakes fun x => x.2.stakes := by
  induction fuel generalizing c with
  | zero => exact Enters.pure rfl
  | succ fuel ih =>
    refine c.enters_fetchOne.bind fun (row, c') => ?_
    rcases row with e | (_ | row)
    · exact Enters.pure rfl
    · exact Enters.pure rfl
    · exact (ih c').bind fun _ => Enters.pure rfl

end Cursor

/-! ## Connections -/

namespace Connection

variable (c : Connection)

def stakes : Stakes := c.inner.stakes

theorem enters_cursor : Enters p (c.cursor : Action (σ × List Call) (Except Error Cursor))
    c.stakes fun made => ifOk Cursor.stakes made + c.stakes := by
  refine (Enters.quiet c.inner.quiet_isClosed).bind fun closed => ?_
  split
  · exact Enters.pure (zero_add _)
  · refine c.inner.enters_clone.bind fun con => Enters.pure ?_
    exact congrArg (· + c.stakes) (add_zero _)

theorem enters_execute (fuel : Nat) (op : String) (params : List Value) (format : RowFormat) :
    Enters p (c.execute L.recorded fuel op params format) c.stakes
      fun x => x.elim 0 (ifOk Cursor.stakes) + c.stakes := by
  refine c.enters_cursor.bind fun made => ?_
  cases made with
  | error e => exact Enters.pure rfl
  | ok cur =>
    have executed := Cursor.enters_execute (L := L) (p := p) fuel { cur with format } op params
    refine (executed.frame c.stakes).bind fun (outcome, cur) => ?_
    have dropped : Enters p (cur.drop L.recorded) (cur.stakes + c.stakes) fun _ => 0 + c.stakes :=
      cur.enters_drop.frame c.stakes
    rcases outcome with _ | (e | _)
    · exact dropped.bind fun _ => Enters.pure rfl
    · exact dropped.bind fun _ => Enters.pure rfl
    · exact Enters.pure rfl

theorem enters_clone : Enters p (c.clone : Action (σ × List Call) Connection) c.stakes
    fun c' => c'.stakes + c.stakes :=
  c.inner.enters_clone.bind fun _ => Enters.pure rfl

theorem enters_drop : Enters p (c.drop L.recorded) c.stakes fun _ => 0 := c.inner.enters_drop

/-- A connection that is the only holder of its session is closed and dropped. -/
theorem enters_close_drop {α : Type} {con : Querent.Connection}
    (honly : sharesOf con.session F = 0) (a : α) :
    EntersAt p F (con.close L.recorded >>= fun _ => con.drop L.recorded >>= fun _ => pure a)
      con.stakes fun _ => 0 := by
  intro w hr
  rw [zero_add]
  exact hr.close_leave honly

theorem enters_connect (config : Config) :
    Enters p (connect L.recorded config) 0 (ifOk stakes) := by
  intro F
  have only : ∀ w, Register w p (0 + F) → ∀ con,
      (Querent.Connection.connect L.recorded { config with database := none } w).1 = .ok con →
        sharesOf con.session F = 0 := by
    intro w hr con hcon
    rw [Querent.Connection.connect_session _ _ _ con hcon, ← zero_add F]
    exact hr.unborn
  refine EntersAt.bind_known
    (φ := fun made => ∀ con, made = .ok con → sharesOf con.session F = 0)
    (Querent.Connection.enters_connect _ F) only fun made only => ?_
  cases made with
  | error e => exact EntersAt.pure rfl
  | ok con =>
    have only : sharesOf con.session F = 0 := only con rfl
    dsimp only
    split
    · exact EntersAt.pure rfl
    · refine EntersAt.bind (con.enters_execute _ F) fun made => ?_
      cases made with
      | error e =>
        exact (con.enters_drop.conv (zero_add _) fun _ => rfl).bind (fun _ => Enters.pure rfl) F
      | ok res =>
        have dropped : Enters p (res.drop L.recorded) (res.stakes + con.stakes)
            fun _ => con.stakes := res.enters_drop.ending con.stakes
        refine EntersAt.bind (Enters.quiet (Quiet.calm.isOk res.handle) F) fun ok => ?_
        split
        · exact dropped.bind (fun _ => Enters.pure rfl) F
        · exact EntersAt.bind (dropped F) fun _ => enters_close_drop only _

end Connection

end Querent.DbApi
