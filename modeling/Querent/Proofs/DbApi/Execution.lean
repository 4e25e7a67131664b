import Querent.DbApi.Connection
import Querent.Proofs.Number.Word
import Querent.Proofs.Result.Iteration
import Querent.Server.Installation

/-!
# What executing a statement comes to

A statement that a cursor of the DB-API executes succeeds, with rows to fetch, a count or
neither, or it fails, at one of four stages. Both are told here without the cursor, which
takes from an outcome what it keeps. A cursor that failed is left as closing leaves it,
but for one thing: once the server has answered, be it with an error, the statement counts
as executed.
-/

namespace Querent.DbApi

variable {σ : Type} {L : Library σ}

/-! ## Results -/

/-- What a statement that succeeded has given. -/
inductive Outcome where
  /-- rows that can be fetched -/
  | rows (columns : List String) (res : QueryResult)
  /-- the end of data at once -/
  | ended (columns : List String)
  | report (counters : Report)
  /-- neither rows nor a count -/
  | nothing

/-- What a result has given to a statement with these columns. Unless it has rows it is
dropped. -/
inductive Gave (L : Library σ) (columns : List String) (first : QueryResult) (w : World σ) :
    Outcome → World σ → Prop
  | rows {w₁ k res w₂} : first.isOk L w = (true, w₁) → first.kind L w₁ = ((k, res), w₂) →
    k.hasRows = true → Gave L columns first w (.rows columns res) w₂
  | report {w₁ res w₂ counters res' w₃ w₄} : first.isOk L w = (true, w₁) →
    first.kind L w₁ = ((.report, res), w₂) → res.report L w₂ = ((.ok counters, res'), w₃) →
    res'.drop L w₃ = ((), w₄) → Gave L columns first w (.report counters) w₄
  | nothing {w₁ k res w₂ w₃} : first.isOk L w = (true, w₁) →
    first.kind L w₁ = ((k, res), w₂) → k ≠ .report → k.hasRows = false →
    res.drop L w₂ = ((), w₃) → Gave L columns first w .nothing w₃
  | ended {w₁ w₂ w₃} : first.isOk L w = (false, w₁) →
    first.code L w₁ = (Code.endOfData, w₂) → first.drop L w₂ = ((), w₃) →
    Gave L columns first w (.ended columns) w₃

/-- The result carries an error that is not the end of data. It is dropped. -/
inductive Refused (L : Library σ) (res : QueryResult) (w : World σ) : Error → World σ → Prop
  | mk {w₁ first w₂ code w₃ details w₄ w₅} : res.isOk L w = (false, w₁) →
    res.code L w₁ = (first, w₂) → first ≠ Code.endOfData → res.code L w₂ = (code, w₃) →
    res.details L w₃ = (details, w₄) → res.drop L w₄ = ((), w₅) →
    Refused L res w (.refused code details) w₅

theorem gave_or_refused (L : Library σ) (columns : List String) (first : QueryResult)
    (w : World σ) : (∃ o w', Gave L columns first w o w') ∨ ∃ e w', Refused L first w e w' := by
  rcases isOk : first.isOk L w with ⟨_ | _, w₁⟩
  · rcases code : first.code L w₁ with ⟨c, w₂⟩
    by_cases ended : c = Code.endOfData
    · subst ended
      exact Or.inl ⟨_, _, .ended isOk code rfl⟩
    · exact Or.inr ⟨_, _, .mk isOk code ended rfl rfl rfl⟩
  · left
    rcases kind : first.kind L w₁ with ⟨⟨k, res⟩, w₂⟩
    cases k with
    | cursor | row => exact ⟨_, _, .rows isOk kind rfl⟩
    | report =>
      -- a report that knows its kind has counters
      obtain ⟨counters, w₃, report⟩ :=
        QueryResult.report_of_known (QueryResult.known_of_kind kind) w₂
      exact ⟨_, _, .report isOk kind report rfl⟩
    | nothing | status | unknown =>
      exact ⟨_, _, .nothing isOk kind (by simp) (by simp [ResultKind.hasRows]) rfl⟩

namespace Cursor

/-- The cursor that has executed a statement with this outcome. -/
def keep (c : Cursor) : Outcome → Cursor
  | .rows columns res =>
    { c with executed := true, description := some columns, rows := some (.ofResult res) }
  | .ended columns => { c with executed := true, description := some columns, rowCount := 0 }
  | .report counters => { c with executed := true, rowCount := clampCount counters.affected }
  | .nothing => { c with executed := true }

section Accepting

variable {c : Cursor} {columns : List String} {res : QueryResult} {o : Outcome} {e : Error}
  {w w' : World σ}

theorem accept_of_gave (h : Gave L columns res w o w') :
    c.accept L columns res w = ((.ok (), c.keep o), w') := by
  cases h with
  | @rows w₁ k _ _ isOk kind hrows =>
    rw [accept, bind_apply, isOk]
    dsimp only
    rw [if_pos rfl, bind_apply, kind]
    cases k with
    | cursor | row => rfl
    | nothing | status | report | unknown => exact absurd hrows (by simp [ResultKind.hasRows])
  | report isOk kind report drop =>
    rw [accept, bind_apply, isOk]
    dsimp only
    rw [if_pos rfl, bind_apply, kind]
    dsimp only
    rw [bind_apply, report]
    dsimp only
    rw [bind_apply, drop]
    rfl
  | @nothing w₁ k _ _ _ isOk kind hreport hrows drop =>
    rw [accept, bind_apply, isOk]
    dsimp only
    rw [if_pos rfl, bind_apply, kind]
    cases k with
    | nothing | status | unknown =>
      dsimp only
      rw [bind_apply, drop]
      rfl
    | report => exact absurd rfl hreport
    | row | cursor => exact absurd hrows (by simp [ResultKind.hasRows])
  | ended isOk code drop =>
    rw [accept, bind_apply, isOk]
    dsimp only
    rw [if_neg Bool.false_ne_true, bind_apply, code]
    dsimp only
    rw [if_pos rfl, bind_apply, drop]
    rfl

theorem accept_of_refused (h : Refused L res w e w') :
    c.accept L columns res w = ((.error e, { c with executed := true }), w') := by
  cases h with
  | mk isOk first other code details drop =>
    rw [accept, bind_apply, isOk]
    dsimp only
    rw [if_neg Bool.false_ne_true, bind_apply, first]
    dsimp only
    rw [if_neg other, bind_apply, code]
    dsimp only
    rw [bind_apply, details]
    dsimp only
    rw [bind_apply, drop]
    rfl

end Accepting

/-! ## Counts -/

/-- The greatest row count. -/
def maxCount : Nat := 0x7fffffffffffffff

/-- The rows that are counted: none while the count is unknown. -/
def counted (c : Cursor) : Nat := c.rowCount.toInt.toNat

theorem counted_le (c : Cursor) : c.counted ≤ maxCount := by
  have := c.rowCount.toInt_lt
  unfold counted maxCount
  omega

theorem toInt_max_zero (n : Int64) : (max n 0).toInt = n.toInt.toNat := by
  show (if n ≤ 0 then 0 else n : Int64).toInt = _
  split
  · next h =>
    rw [Int64.le_iff_toInt_le, Int64.toInt_zero] at h
    rw [Int64.toInt_zero]
    omega
  · next h =>
    rw [Int64.le_iff_toInt_le, Int64.toInt_zero] at h
    omega

theorem nextCount?_eq_some_iff {c : Cursor} {n : Int64} :
    c.nextCount? = some n ↔ n.toInt = (c.counted + 1 : Nat) := by
  unfold nextCount?
  rw [sum64?_eq_some_iff, toInt_max_zero, Int.natCast_add]
  rfl

theorem nextCount?_eq_none_iff {c : Cursor} : c.nextCount? = none ↔ c.counted = maxCount := by
  have hle := c.counted_le
  have one : (1 : Int64).toInt = 1 := rfl
  unfold nextCount?
  rw [sum64?_eq_none_iff, toInt_max_zero, one]
  unfold counted maxCount at *
  omega

/-- How many rows can be counted still. -/
def room (c : Cursor) : Nat := maxCount - c.counted

section Yielding

variable {c : Cursor} {y : Yield} {row : Row} {rows : Querent.Cursor}

/-- A row counts one, up to the greatest row count. -/
theorem toInt_rowCount_afterYield_row :
    (c.afterYield (.row row) rows).rowCount.toInt = (min (c.counted + 1) maxCount : Nat) := by
  have hle := c.counted_le
  unfold afterYield
  dsimp only
  rcases hnext : c.nextCount? with _ | n
  · rw [nextCount?_eq_none_iff] at hnext
    rw [Option.getD_none, toInt_max_zero, Nat.min_eq_right (by omega), ← hnext]
    rfl
  · rw [nextCount?_eq_some_iff] at hnext
    have := n.toInt_lt
    rw [Option.getD_some, hnext, Nat.min_eq_left]
    unfold maxCount
    omega

theorem toInt_rowCount_afterYield (h : ∀ row, y ≠ .row row) :
    (c.afterYield y rows).rowCount.toInt = c.counted := by
  cases y with
  | row row => exact absurd rfl (h row)
  | finished | error => exact toInt_max_zero c.rowCount

theorem room_afterYield_row : (c.afterYield (.row row) rows).room = c.room - 1 := by
  rw [room, counted, toInt_rowCount_afterYield_row, Int.toNat_natCast, room]
  omega

theorem room_afterYield (h : ∀ row, y ≠ .row row) : (c.afterYield y rows).room = c.room := by
  rw [room, counted, toInt_rowCount_afterYield h, Int.toNat_natCast, room]

theorem fetched_row (h : 0 < c.room) :
    c.fetched (.row row) = .ok (some (.ofRow c.format (c.description.getD []) row)) := by
  refine if_pos (Option.isSome_iff_ne_none.mpr fun hnone => ?_)
  have := nextCount?_eq_none_iff.mp hnone
  unfold room at h
  omega

/-- A row that cannot be counted is lost. -/
theorem fetched_row_uncounted (h : c.room = 0) :
    c.fetched (.row row) = .error (.panic .overflow) := by
  have hle := c.counted_le
  unfold room at h
  refine if_neg ?_
  rw [nextCount?_eq_none_iff.mpr (by omega)]
  exact Bool.false_ne_true

end Yielding

/-! ## Fetching -/

/-- A fetch passes on what its rows yield. -/
theorem fetchOne_eq {c : Cursor} {rows : Querent.Cursor} {w : World σ}
    (hexecuted : c.executed = true) (hrows : c.rows = some rows) :
    c.fetchOne L w = ((c.fetched (rows.next L w).1.1,
      c.afterYield (rows.next L w).1.1 (rows.next L w).1.2), (rows.next L w).2) := by
  unfold fetchOne
  rw [if_neg (by rw [hexecuted]; decide), hrows]
  rfl

section Calls

variable {c c' : Cursor} {w w' : World σ} {shaped : ShapedRow}
  {stop : Except Failure (Option ShapedRow)}

/-- A call for more rows returns the one that was fetched before those that come after it. -/
theorem fetchUpTo_of_row (n : Nat) (run : c.fetchOne L w = ((.ok (some shaped), c'), w')) :
    c.fetchUpTo L (n + 1) w = (((c'.fetchUpTo L n w').1.1.map (shaped :: ·),
      (c'.fetchUpTo L n w').1.2), (c'.fetchUpTo L n w').2) := by
  rw [fetchUpTo, bind_apply, run]
  rfl

/-- It ends where no row is fetched, and fails where that fails. -/
theorem fetchUpTo_of_stop (n : Nat) (run : c.fetchOne L w = ((stop, c'), w'))
    (stops : stop.toOption.join = none) :
    c.fetchUpTo L (n + 1) w = ((stop.map fun _ => [], c'), w') := by
  rw [fetchUpTo, bind_apply, run]
  rcases stop with e | (_ | row)
  · rfl
  · rfl
  · cases stops

theorem fetchAll_of_row (fuel : Nat) (run : c.fetchOne L w = ((.ok (some shaped), c'), w')) :
    c.fetchAll L (fuel + 1) w =
      (((c'.fetchAll L fuel w').1.1.map fun more => more.map (shaped :: ·),
        (c'.fetchAll L fuel w').1.2), (c'.fetchAll L fuel w').2) := by
  rw [fetchAll, bind_apply, run]
  rfl

theorem fetchAll_of_stop (fuel : Nat) (run : c.fetchOne L w = ((stop, c'), w'))
    (stops : stop.toOption.join = none) :
    c.fetchAll L (fuel + 1) w = ((some (stop.map fun _ => []), c'), w') := by
  rw [fetchAll, bind_apply, run]
  rcases stop with e | (_ | row)
  · rfl
  · rfl
  · cases stops

end Calls

/-! ## Statements -/

/-- The result at hand was ended, the statement is complete, and its columns are known. -/
def Described (L : Library σ) (fuel : Nat) (c : Cursor) (op : String) (params : List Value)
    (w : World σ) (sql : String) (columns : List String) (w' : World σ) : Prop :=
  statementFor op params = .ok sql ∧
    describe L fuel c.connection sql (c.close L w).2 = (some (.ok columns), w')

/-- The statement is sent, and it succeeds with an outcome. -/
def Comes (L : Library σ) (fuel : Nat) (c : Cursor) (op : String) (params : List Value)
    (w : World σ) (o : Outcome) (w' : World σ) : Prop :=
  ∃ sql columns w₁ res w₂, Described L fuel c op params w sql columns w₁ ∧
    c.connection.execute L sql w₁ = (.ok res, w₂) ∧ Gave L columns res w₂ o w'

/-- Where executing a statement can fail. -/
inductive Stage where
  | substitution
  | description
  | sending
  | result
  deriving DecidableEq

/-- How executing a statement fails: its parameters do not fit it, its columns cannot be
had, it cannot be sent, or the server answers with an error. -/
inductive Fails (L : Library σ) (fuel : Nat) (c : Cursor) (op : String) (params : List Value)
    (w : World σ) : Stage → Error → World σ → Prop
  | substitution {e} : statementFor op params = .error e →
    Fails L fuel c op params w .substitution e (c.close L w).2
  | description {sql e w'} : statementFor op params = .ok sql →
    describe L fuel c.connection sql (c.close L w).2 = (some (.error e), w') →
    Fails L fuel c op params w .description e w'
  | sending {sql columns w₁ e w'} : Described L fuel c op params w sql columns w₁ →
    c.connection.execute L sql w₁ = (.error e, w') →
    Fails L fuel c op params w .sending (.failure e) w'
  | result {sql columns w₁ res w₂ e w'} : Described L fuel c op params w sql columns w₁ →
    c.connection.execute L sql w₁ = (.ok res, w₂) → Refused L res w₂ e w' →
    Fails L fuel c op params w .result e w'

section Executing

variable {fuel : Nat} {c : Cursor} {op sql : String} {params : List Value} {columns : List String}
  {res : QueryResult} {outcome : Except Error Unit} {left : Cursor} {o : Outcome} {stage : Stage}
  {e : Error} {w w₁ w₂ w' : World σ}

theorem execute_of_statement (h : statementFor op params = .ok sql) :
    c.execute L fuel op params w = c.reset.send L fuel sql (c.close L w).2 := by
  rw [execute, bind_apply, h]
  rfl

theorem send_endless (described : describe L fuel c.connection sql w = (none, w')) :
    c.send L fuel sql w = ((none, c), w') := by
  rw [send, bind_apply, described]
  rfl

theorem send_undescribed
    (described : describe L fuel c.connection sql w = (some (.error e), w')) :
    c.send L fuel sql w = ((some (.error e), c), w') := by
  rw [send, bind_apply, described]
  rfl

theorem send_failed (described : describe L fuel c.connection sql w = (some (.ok columns), w₁))
    {e : Querent.Error} (sent : c.connection.execute L sql w₁ = (.error e, w')) :
    c.send L fuel sql w = ((some (.error (.failure e)), c), w') := by
  rw [send, bind_apply, described]
  dsimp only
  rw [bind_apply, sent]
  rfl

theorem send_accepted (described : describe L fuel c.connection sql w = (some (.ok columns), w₁))
    (sent : c.connection.execute L sql w₁ = (.ok res, w₂))
    (accepted : c.accept L columns res w₂ = ((outcome, left), w')) :
    c.send L fuel sql w = ((some outcome, left), w') := by
  rw [send, bind_apply, described]
  dsimp only
  rw [bind_apply, sent]
  dsimp only
  rw [bind_apply, accepted]
  rfl

theorem Comes.execute (h : Comes L fuel c op params w o w') :
    c.execute L fuel op params w = ((some (.ok ()), c.reset.keep o), w') := by
  obtain ⟨sql, columns, w₁, res, w₂, ⟨statement, described⟩, sent, gave⟩ := h
  rw [execute_of_statement statement]
  exact send_accepted (c := c.reset) described sent (accept_of_gave gave)

theorem Fails.execute (h : Fails L fuel c op params w stage e w') :
    c.execute L fuel op params w =
      ((some (.error e), { c.reset with executed := decide (stage = .result) }), w') := by
  cases h with
  | substitution statement =>
    rw [Cursor.execute, bind_apply, statement]
    rfl
  | description statement described =>
    rw [execute_of_statement statement]
    exact send_undescribed (c := c.reset) described
  | sending described sent =>
    rw [execute_of_statement described.1]
    exact send_failed (c := c.reset) described.2 sent
  | result described sent refused =>
    rw [execute_of_statement described.1]
    exact send_accepted (c := c.reset) described.2 sent (accept_of_refused refused)

variable (L fuel c op params w) in
/-- Executing a statement succeeds or fails, if the fuel lasts for its description. -/
theorem execute_cases :
    (c.execute L fuel op params w).1.1 = none ∨ (∃ o w', Comes L fuel c op params w o w') ∨
      ∃ stage e w', Fails L fuel c op params w stage e w' := by
  rcases statement : statementFor op params with e | sql
  · exact Or.inr (Or.inr ⟨_, _, _, .substitution statement⟩)
  rcases description : describe L fuel c.connection sql (c.close L w).2 with ⟨_ | e | columns, w₁⟩
  · left
    rw [execute_of_statement statement, send_endless (c := c.reset) description]
  · exact Or.inr (Or.inr ⟨_, _, _, .description statement description⟩)
  right
  have described : Described L fuel c op params w sql columns w₁ := ⟨statement, description⟩
  rcases sent : c.connection.execute L sql w₁ with ⟨e | res, w₂⟩
  · exact Or.inr ⟨_, _, _, .sending described sent⟩
  · obtain ⟨o, w', gave⟩ | ⟨e, w', refused⟩ := gave_or_refused L columns res w₂
    · exact Or.inl ⟨o, w', sql, columns, w₁, res, w₂, described, sent, gave⟩
    · exact Or.inr ⟨_, _, _, .result described sent refused⟩

/-- **What a failed execution leaves.** Whatever a cursor was, if executing a statement
fails at one of the stages then the cursor is left as closing leaves it, and a fetch says
that nothing was executed. After an error of the server alone the statement counts as
executed, and a fetch finds no row. -/
theorem failed_execution_left
    (h : c.execute L fuel op params w = ((some (.error e), left), w')) :
    ∃ stage, Fails L fuel c op params w stage e w' ∧
      left = { (c.close L w).1 with executed := decide (stage = .result) } ∧
      ∀ w, left.fetchOne L w =
        ((if stage = .result then .ok none else .error (.error .notExecuted), left), w) := by
  obtain hnone | ⟨o, _, comes⟩ | ⟨stage, _, _, fails⟩ := execute_cases L fuel c op params w
  · rw [h] at hnone
    cases hnone
  · rw [comes.execute] at h
    cases h
  · rw [fails.execute] at h
    cases h
    refine ⟨stage, fails, rfl, fun w => ?_⟩
    -- there are no rows at hand, so the fetch looks only at whether something was executed
    cases stage <;> rfl

end Executing

open Server (State library)

/-- A cursor has rows to fetch, and executes a statement that the server refuses: it is left
with no rows, and as one that has executed. -/
theorem failed_execution_left_refused :
    let server := State.scripted [("r", .row [.bool true]), ("s", .error 60 "bad")] none 8192
    ∃ con connected, Connection.connect library {} (.start server) = (.ok con, connected) ∧
      ∃ c before, (Cursor.ofConnection con.inner).execute library 9 "r" [] connected =
          ((some (.ok ()), c), before) ∧ c.rows.isSome ∧
        ∃ left after, c.execute library 9 "s" [] before =
            ((some (.error (.refused 60 "bad")), left), after) ∧
          ∃ stage, Fails library 9 c "s" [] before stage (.refused 60 "bad") after ∧
            left = { (c.close library before).1 with executed := decide (stage = .result) } ∧
            ∀ w, left.fetchOne library w =
              ((if stage = .result then .ok none else .error (.error .notExecuted), left), w) :=
  ⟨_, _, rfl, _, _, rfl, rfl, _, _, rfl, failed_execution_left rfl⟩

/-- The server refuses a statement: a fetch after that finds no row and does not fail, which
it does once the cursor is closed. -/
theorem refused_execution_fetched :
    let server := State.scripted [("s", .error 60 "bad")] none 8192
    ∃ con before, Connection.connect library {} (.start server) = (.ok con, before) ∧
      ∃ left after, (Cursor.ofConnection con.inner).execute library 9 "s" [] before =
          ((some (.error (.refused 60 "bad")), left), after) ∧
        (left.fetchOne library after).1.1 = .ok none ∧
        ((left.close library after).1.fetchOne library (left.close library after).2).1.1 =
          .error (.error .notExecuted) :=
  ⟨_, _, rfl, _, _, rfl, rfl, rfl⟩

end Cursor

end Querent.DbApi
