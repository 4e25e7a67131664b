import Querent.Proofs.Ownership.Connections

/-!
# What the DB-API holds

A cursor of the DB-API goes through results one after the other. Each is dropped
before the next statement is sent, or at once if it has no rows.
-/

namespace Querent.DbApi

open Server (Keeps Holdings share ifMade library)

namespace Cursor

variable {c : Cursor}

def holdings (c : Cursor) : Holdings :=
  c.connection.holdings + c.rows.elim 0 Querent.Cursor.holdings

theorem holdings_of_none (hrows : c.rows = none) : c.holdings = c.connection.holdings := by
  rw [holdings, hrows]
  exact add_zero _

/-- The rows at hand have a batch exactly while they are read, and their result came over
the connection of the cursor. -/
def Settled (c : Cursor) : Prop :=
  ∀ rows, c.rows = some rows →
    rows.Settled ∧ rows.result.session = some c.connection.session

theorem keeps_dropRows (c : Cursor) :
    Keeps (c.dropRows library) c.holdings fun _ => c.connection.holdings := by
  unfold dropRows
  split
  · next rows hrows =>
    exact (rows.keeps_drop.ending c.connection.holdings).conv
      (by rw [holdings, hrows]; exact add_comm _ _) fun _ => rfl
  · next hrows => exact Keeps.pure (holdings_of_none hrows).symm

theorem keeps_close (c : Cursor) :
    Keeps (c.close library) c.holdings fun c' => c'.holdings :=
  c.keeps_dropRows.bind fun _ => Keeps.pure (add_zero _)

theorem close_gives (c : Cursor) : Gives (c.close library) fun c' => c' = c.reset :=
  Gives.bind_any fun _ => Gives.pure rfl

theorem keeps_drop (c : Cursor) : Keeps (c.drop library) c.holdings fun _ => 0 := by
  have left : Keeps (c.connection.drop library) c.holdings
      fun _ => c.rows.elim 0 Querent.Cursor.holdings :=
    c.connection.keeps_drop.ending _
  refine left.bind fun _ => ?_
  unfold dropRows
  split
  · next rows hrows =>
    rw [hrows]
    exact rows.keeps_drop
  · next hrows => exact Keeps.pure (by rw [hrows]; rfl)

/-! ## Descriptions -/

theorem keeps_describedColumns (fuel : Nat) (res : QueryResult) :
    Keeps (describedColumns library fuel res) res.holdings fun _ => 0 := by
  refine res.keeps_isOk.bind fun ok => ?_
  split
  · have collected := Querent.Cursor.keeps_collect fuel (Querent.Cursor.ofResult_settled res)
    refine (collected.conv (Querent.Cursor.holdings_of_none rfl).symm fun _ => rfl).bind
      fun (rows, cursor) => ?_
    exact cursor.keeps_drop.bind fun _ => Keeps.pure rfl
  · exact res.keeps_details.bind fun _ => res.keeps_drop.bind fun _ => Keeps.pure rfl

theorem keeps_describe (fuel : Nat) (con : Querent.Connection) (sql : String) :
    Keeps (describe library fuel con sql) con.holdings fun _ => con.holdings := by
  unfold describe
  split
  · exact Keeps.pure rfl
  · exact Keeps.pure rfl
  · refine (con.keeps_execute _).bind fun made => ?_
    cases made with
    | error e => exact Keeps.pure (zero_add _).symm
    | ok res => exact (keeps_describedColumns fuel res).ending con.holdings

/-! ## Executing -/

theorem keeps_accept (hrows : c.rows = none) (columns : List String) (res : QueryResult) :
    Keeps (c.accept library columns res) (res.holdings + c.holdings) fun x => x.2.holdings := by
  -- no rows are at hand, so those of `res` can take their place
  have alone := holdings_of_none hrows
  have dropped (res : QueryResult) :
      Keeps (res.drop library) (res.holdings + c.holdings) fun _ => c.holdings :=
    res.keeps_drop.ending c.holdings
  refine (res.keeps_isOk.frame c.holdings).bind fun ok => ?_
  split
  · refine (res.keeps_kind.frame c.holdings).bind fun (k, res) => ?_
    have kept : c.connection.holdings + (Querent.Cursor.ofResult res).holdings =
        res.holdings + c.holdings := by
      rw [Querent.Cursor.holdings_of_none rfl, alone]
      exact add_comm _ _
    cases k with
    | cursor | row => exact Keeps.pure kept
    | report =>
      refine (res.keeps_report.frame c.holdings).bind fun (report, res) => ?_
      refine (dropped res).bind fun _ => ?_
      cases report <;> exact Keeps.pure rfl
    | nothing | status | unknown => exact (dropped res).bind fun _ => Keeps.pure rfl
  · refine (res.keeps_code.frame c.holdings).bind fun code => ?_
    split
    · exact (dropped res).bind fun _ => Keeps.pure rfl
    · refine (res.keeps_code.frame c.holdings).bind fun code => ?_
      refine (res.keeps_details.frame c.holdings).bind fun details => ?_
      exact (dropped res).bind fun _ => Keeps.pure rfl

theorem settled_of_none (hrows : c.rows = none) : c.Settled := by
  intro rows h
  rw [hrows] at h
  exact absurd h (by simp)

theorem settled_of_some {rows : Querent.Cursor} (hrows : c.rows = some rows)
    (hs : rows.Settled) (hown : rows.result.session = some c.connection.session) :
    c.Settled := by
  intro rows' h
  rw [← Option.some.inj (hrows.symm.trans h)]
  exact ⟨hs, hown⟩

theorem accept_settled (hrows : c.rows = none) (columns : List String) {res : QueryResult}
    (hown : res.session = some c.connection.session) :
    Gives (c.accept library columns res) fun x => x.2.Settled := by
  refine Gives.bind_any fun ok => ?_
  split
  · refine Gives.bind (res.kind_gives library) fun (k, res') same => ?_
    cases k with
    | cursor | row =>
      exact Gives.pure
        (settled_of_some rfl (Querent.Cursor.ofResult_settled res') (same.2.trans hown))
    | report =>
      refine Gives.bind_any fun (report, res) => Gives.bind_any fun _ => ?_
      cases report <;> exact Gives.pure (settled_of_none hrows)
    | nothing | status | unknown =>
      exact Gives.bind_any fun _ => Gives.pure (settled_of_none hrows)
  · refine Gives.bind_any fun code => ?_
    split
    · exact Gives.bind_any fun _ => Gives.pure (settled_of_none hrows)
    · exact Gives.bind_any fun _ => Gives.bind_any fun _ => Gives.bind_any fun _ =>
        Gives.pure (settled_of_none hrows)

theorem keeps_send (fuel : Nat) (hrows : c.rows = none) (sql : String) :
    Keeps (c.send library fuel sql) c.holdings fun x => x.2.holdings := by
  have alone := holdings_of_none hrows
  rw [alone]
  refine (keeps_describe fuel c.connection sql).bind fun described => ?_
  rcases described with _ | (e | columns)
  · exact Keeps.pure alone
  · exact Keeps.pure alone
  · refine (c.connection.keeps_execute _).bind fun made => ?_
    rw [← alone]
    cases made with
    | error e => exact Keeps.pure (zero_add _).symm
    | ok res => exact (keeps_accept hrows columns res).bind fun _ => Keeps.pure rfl

theorem send_settled (fuel : Nat) (hrows : c.rows = none) (sql : String) :
    Gives (c.send library fuel sql) fun x => x.2.Settled := by
  refine Gives.bind_any fun described => ?_
  rcases described with _ | (e | columns)
  · exact Gives.pure (settled_of_none hrows)
  · exact Gives.pure (settled_of_none hrows)
  · refine (c.connection.execute_session library sql).bind fun made own => ?_
    cases made with
    | error e => exact Gives.pure (settled_of_none hrows)
    | ok res => exact (accept_settled hrows columns (own res rfl)).bind fun _ h => Gives.pure h

theorem keeps_execute (fuel : Nat) (c : Cursor) (op : String) (params : List Value) :
    Keeps (c.execute library fuel op params) c.holdings fun x => x.2.holdings := by
  refine c.keeps_close.bind_gives c.close_gives fun c' hc' => ?_
  split
  · exact Keeps.pure rfl
  · exact keeps_send fuel (by rw [hc']; rfl) _

theorem execute_settled (fuel : Nat) (c : Cursor) (op : String) (params : List Value) :
    Gives (c.execute library fuel op params) fun x => x.2.Settled := by
  refine c.close_gives.bind fun c' hc' => ?_
  have hrows : c'.rows = none := by rw [hc']; rfl
  split
  · exact Gives.pure (settled_of_none hrows)
  · exact send_settled fuel hrows _

theorem keeps_executeEach (fuel : Nat) (op : String) (total : Option Int64) (c : Cursor)
    (seq : List (List Value)) :
    Keeps (executeEach library fuel op total c seq) c.holdings fun x => x.2.holdings := by
  induction seq generalizing total c with
  | nil => cases total <;> exact Keeps.pure rfl
  | cons params rest ih =>
    refine (c.keeps_execute fuel op params).bind fun (outcome, c') => ?_
    rcases outcome with _ | (e | _)
    · exact Keeps.pure rfl
    · exact Keeps.pure rfl
    · dsimp only
      split
      · exact ih _ c'
      · exact Keeps.pure rfl

theorem executeEach_settled (fuel : Nat) (op : String) (total : Option Int64) (hs : c.Settled)
    (seq : List (List Value)) :
    Gives (executeEach library fuel op total c seq) fun x => x.2.Settled := by
  induction seq generalizing total c with
  | nil => cases total <;> exact Gives.pure hs
  | cons params rest ih =>
    refine (c.execute_settled fuel op params).bind fun (outcome, c') hs' => ?_
    rcases outcome with _ | (e | _)
    · exact Gives.pure hs'
    · exact Gives.pure hs'
    · dsimp only
      split
      · exact ih _ hs'
      · exact Gives.pure hs'

/-! ## Fetching -/

theorem keeps_fetchOne (hs : c.Settled) :
    Keeps (c.fetchOne library) c.holdings fun x => x.2.holdings := by
  unfold fetchOne
  split
  · exact Keeps.pure rfl
  · split
    · exact Keeps.pure rfl
    · next rows hrows =>
      have next : Keeps (rows.next library) c.holdings
          fun x => x.2.holdings + c.connection.holdings :=
        ((Querent.Cursor.keeps_next (hs rows hrows).1).frame c.connection.holdings).conv
          (by rw [holdings, hrows]; exact add_comm _ _) fun _ => rfl
      exact next.bind fun _ => Keeps.pure (add_comm _ _)

theorem fetchOne_settled (hs : c.Settled) :
    Gives (c.fetchOne library) fun x => x.2.Settled := by
  unfold fetchOne
  split
  · exact Gives.pure hs
  · split
    · exact Gives.pure hs
    · next rows hrows =>
      obtain ⟨settled, own⟩ := hs rows hrows
      exact (Querent.Cursor.next_gives library settled).bind fun _ hy =>
        Gives.pure (settled_of_some rfl hy.settled (hy.same.2.trans own))

theorem keeps_fetchUpTo (n : Nat) (hs : c.Settled) :
    Keeps (fetchUpTo library n c) c.holdings fun x => x.2.holdings := by
  induction n generalizing c with
  | zero => exact Keeps.pure rfl
  | succ n ih =>
    refine (keeps_fetchOne hs).bind_gives (fetchOne_settled hs) fun (row, c') hs' => ?_
    rcases row with e | (_ | row)
    · exact Keeps.pure rfl
    · exact Keeps.pure rfl
    · exact (ih hs').bind fun _ => Keeps.pure rfl

theorem fetchUpTo_settled (n : Nat) (hs : c.Settled) :
    Gives (fetchUpTo library n c) fun x => x.2.Settled := by
  induction n generalizing c with
  | zero => exact Gives.pure hs
  | succ n ih =>
    refine (fetchOne_settled hs).bind fun (row, c') hs' => ?_
    rcases row with e | (_ | row)
    · exact Gives.pure hs'
    · exact Gives.pure hs'
    · exact (ih hs').bind fun _ h => Gives.pure h

theorem keeps_fetchMany (size : Option Nat) (hs : c.Settled) :
    Keeps (c.fetchMany library size) c.holdings fun x => x.2.holdings := by
  unfold fetchMany
  dsimp only
  split
  · exact keeps_fetchUpTo _ hs
  · exact Keeps.pure rfl

theorem fetchMany_settled (size : Option Nat) (hs : c.Settled) :
    Gives (c.fetchMany library size) fun x => x.2.Settled := by
  unfold fetchMany
  dsimp only
  split
  · exact fetchUpTo_settled _ hs
  · exact Gives.pure hs

theorem keeps_fetchAll (fuel : Nat) (hs : c.Settled) :
    Keeps (fetchAll library fuel c) c.holdings fun x => x.2.holdings := by
  induction fuel generalizing c with
  | zero => exact Keeps.pure rfl
  | succ fuel ih =>
    refine (keeps_fetchOne hs).bind_gives (fetchOne_settled hs) fun (row, c') hs' => ?_
    rcases row with e | (_ | row)
    · exact Keeps.pure rfl
    · exact Keeps.pure rfl
    · exact (ih hs').bind fun _ => Keeps.pure rfl

theorem fetchAll_settled (fuel : Nat) (hs : c.Settled) :
    Gives (fetchAll library fuel c) fun x => x.2.Settled := by
  induction fuel generalizing c with
  | zero => exact Gives.pure hs
  | succ fuel ih =>
    refine (fetchOne_settled hs).bind fun (row, c') hs' => ?_
    rcases row with e | (_ | row)
    · exact Gives.pure hs'
    · exact Gives.pure hs'
    · exact (ih hs').bind fun _ h => Gives.pure h

end Cursor

/-! ## Connections -/

namespace Connection

variable (c : Connection)

def holdings : Holdings := c.inner.holdings

theorem keeps_close : Keeps (c.close library) c.holdings fun _ => c.holdings :=
  c.inner.keeps_close.bind fun _ => Keeps.pure rfl

theorem keeps_clone : Keeps (c.clone : Action Server.State Connection) c.holdings
    fun c' => c'.holdings + c.holdings :=
  c.inner.keeps_clone.bind fun _ => Keeps.pure rfl

theorem keeps_cursor : Keeps (c.cursor : Action Server.State (Except Error Cursor)) c.holdings
    fun made => ifMade Cursor.holdings made + c.holdings := by
  refine c.inner.keeps_isClosed.bind fun closed => ?_
  split
  · exact Keeps.pure (zero_add _)
  · refine c.inner.keeps_clone.bind fun con => Keeps.pure ?_
    exact congrArg (· + c.holdings) (add_zero _)

theorem cursor_settled : Gives (c.cursor : Action Server.State (Except Error Cursor))
    fun made => ∀ cur, made = .ok cur → cur.Settled := by
  refine Gives.bind_any fun closed => ?_
  split
  · exact Gives.pure (by simp)
  · refine Gives.bind_any fun con => Gives.pure ?_
    rintro cur ⟨⟩
    exact Cursor.settled_of_none rfl

theorem keeps_execute (fuel : Nat) (op : String) (params : List Value) (format : RowFormat) :
    Keeps (c.execute library fuel op params format) c.holdings
      fun x => x.elim 0 (ifMade Cursor.holdings) + c.holdings := by
  refine c.keeps_cursor.bind fun made => ?_
  cases made with
  | error e => exact Keeps.pure rfl
  | ok cur =>
    have executed := Cursor.keeps_execute fuel { cur with format } op params
    refine (executed.frame c.holdings).bind fun (outcome, cur) => ?_
    have dropped : Keeps (cur.drop library) (cur.holdings + c.holdings) fun _ => 0 + c.holdings :=
      cur.keeps_drop.frame c.holdings
    rcases outcome with _ | (e | _)
    · exact dropped.bind fun _ => Keeps.pure rfl
    · exact dropped.bind fun _ => Keeps.pure rfl
    · exact Keeps.pure rfl

theorem execute_settled (fuel : Nat) (op : String) (params : List Value) (format : RowFormat) :
    Gives (c.execute library fuel op params format)
      fun x => ∀ cur, x = some (.ok cur) → cur.Settled := by
  refine Gives.bind_any fun made => ?_
  cases made with
  | error e => exact Gives.pure (by simp)
  | ok cur =>
    refine (Cursor.execute_settled fuel { cur with format } op params).bind
      fun (outcome, cur) hs => ?_
    rcases outcome with _ | (e | _)
    · exact Gives.bind_any fun _ => Gives.pure (by simp)
    · exact Gives.bind_any fun _ => Gives.pure (by simp)
    · exact Gives.pure (by rintro cur' ⟨⟩; exact hs)

theorem keeps_drop : Keeps (c.drop library) c.holdings fun _ => 0 := c.inner.keeps_drop

theorem keeps_connect (config : Config) :
    Keeps (connect library config) 0 (ifMade holdings) := by
  refine (Querent.Connection.keeps_connect _).bind fun made => ?_
  cases made with
  | error e => exact Keeps.pure rfl
  | ok con =>
    dsimp only
    split
    · exact Keeps.pure rfl
    · refine (con.keeps_execute _).bind fun made => ?_
      cases made with
      | error e =>
        refine (con.keeps_drop.conv (zero_add _) fun _ => rfl).bind fun _ => Keeps.pure rfl
      | ok res =>
        have dropped : Keeps (res.drop library) (res.holdings + con.holdings)
            fun _ => con.holdings := res.keeps_drop.ending con.holdings
        refine (res.keeps_isOk.frame con.holdings).bind fun ok => ?_
        split
        · exact dropped.bind fun _ => Keeps.pure rfl
        · exact dropped.bind fun _ => con.keeps_close.bind fun _ =>
            con.keeps_drop.bind fun _ => Keeps.pure rfl

end Connection

end Querent.DbApi
