import Querent.Proofs.DbApi.Execution

/-!
# Asking for the columns of a table

The columns of a `select *` are asked from the server, with a query of its own before the
statement. That query can fail as any statement can: it cannot be sent, the server answers
it with an error, or its rows end in an error. All of these are told in one class, which
is not always the class that the same failure of a statement has.
-/

namespace Querent.DbApi

variable {σ : Type} {L : Library σ}

/-! ## Failures -/

/-- The query for the columns of a table. -/
def describing (table : String) : String := "describe " ++ table

/-- How a query for columns fails, with the error that the same failure of a statement
would be. An answer with the end of data is among the failures. -/
inductive Spoilt (L : Library σ) (fuel : Nat) (con : Querent.Connection) (query : String)
    (w : World σ) : Error → World σ → Prop
  | sending {e w'} : con.execute L query w = (.error e, w') →
    Spoilt L fuel con query w (.failure e) w'
  | refused {res w₁ w₂ code details w₃ w'} : con.execute L query w = (.ok res, w₁) →
    res.isOk L w₁ = (false, w₂) → (res.code L w₂).1 = code →
    res.details L w₂ = (details, w₃) → res.drop L w₃ = ((), w') →
    Spoilt L fuel con query w (.refused code details) w'
  | midway {res w₁ w₂ rows e cursor w₃ w'} : con.execute L query w = (.ok res, w₁) →
    res.isOk L w₁ = (true, w₂) →
    (Querent.Cursor.ofResult res).collect L fuel w₂ = ((some (rows, some e), cursor), w₃) →
    cursor.drop L w₃ = ((), w') → Spoilt L fuel con query w (.failure e) w'

/-- What an error is called where the query for columns ends in it. -/
def Error.describing : Error → Error
  | .failure e => .cannotDescribe e
  | .refused _ details => .describeRefused details
  | e => e

namespace Cursor

section Describing

variable {fuel : Nat} {con : Querent.Connection} {sql table : String} {e told : Error}
  {w w' : World σ}

theorem describe_spoilt (star : Statement.selectColumns sql = .star table)
    (h : Spoilt L fuel con (describing table) w e w') :
    describe L fuel con sql w = (some (.error e.describing), w') := by
  rw [describe, star]
  cases h with
  | sending sent =>
    dsimp only
    rw [bind_apply, ← describing, sent]
    rfl
  | refused sent isOk _ details drop =>
    dsimp only
    rw [bind_apply, ← describing, sent]
    dsimp only
    rw [describedColumns, bind_apply, isOk]
    dsimp only
    rw [if_neg Bool.false_ne_true, bind_apply, details]
    dsimp only
    rw [bind_apply, drop]
    rfl
  | midway sent isOk collected drop =>
    dsimp only
    rw [bind_apply, ← describing, sent]
    dsimp only
    rw [describedColumns, bind_apply, isOk]
    dsimp only
    rw [if_pos rfl, bind_apply, collected]
    dsimp only
    rw [bind_apply, drop]
    rfl

/-- Asking for columns fails only where there is a table, and its query fails. -/
theorem spoilt_of_describe (h : describe L fuel con sql w = (some (.error told), w')) :
    ∃ table e, Statement.selectColumns sql = .star table ∧
      Spoilt L fuel con (describing table) w e w' ∧ told = e.describing := by
  rw [describe] at h
  rcases columns : Statement.selectColumns sql with names | table | _
  · rw [columns] at h
    cases h
  · rw [columns] at h
    dsimp only at h
    rw [bind_apply, ← describing] at h
    rcases sent : con.execute L (describing table) w with ⟨failure | res, w₁⟩
    · rw [sent] at h
      cases h
      exact ⟨table, _, rfl, .sending sent, rfl⟩
    rw [sent] at h
    dsimp only at h
    rw [describedColumns, bind_apply] at h
    rcases isOk : res.isOk L w₁ with ⟨_ | _, w₂⟩
    · rw [isOk] at h
      cases h
      exact ⟨table, _, rfl, .refused sent isOk rfl rfl rfl, rfl⟩
    · rw [isOk] at h
      dsimp only at h
      rw [if_pos rfl, bind_apply] at h
      rcases collected : (Querent.Cursor.ofResult res).collect L fuel w₂ with
        ⟨⟨_ | ⟨rows, _ | failure⟩, cursor⟩, w₃⟩
      · rw [collected] at h
        cases h
      · rw [collected] at h
        cases h
      · rw [collected] at h
        cases h
        exact ⟨table, _, rfl, .midway sent isOk collected rfl, rfl⟩
  · rw [columns] at h
    cases h

end Describing

section Executing

variable {fuel : Nat} {c : Cursor} {op sql table : String} {params : List Value} {e told : Error}
  {w w' : World σ}

/-- Executing a statement fails before it is sent, other than for its parameters, exactly
where it selects all columns of a table and the query for them fails. -/
theorem fails_description_iff (statement : statementFor op params = .ok sql) :
    Fails L fuel c op params w .description told w' ↔
      ∃ table e, Statement.selectColumns sql = .star table ∧
        Spoilt L fuel c.connection (describing table) (c.close L w).2 e w' ∧
        told = e.describing := by
  constructor
  · rintro (- | ⟨statement', described⟩)
    cases statement.symm.trans statement'
    exact spoilt_of_describe described
  · rintro ⟨table, e, star, spoilt, rfl⟩
    exact .description statement (describe_spoilt star spoilt)

/-- **A failed query for columns is told in one class.** If the query for the columns of
a `select *` fails, then executing the select fails with the text of that failure, the
select is not sent, and the cursor is left as closing leaves it. The class is `database`
always. It is that of the same failure of a statement only for an error of the server
whose code has no class of its own, and the end of data, which fails no statement, is
among these. -/
theorem failed_description_classed (statement : statementFor op params = .ok sql)
    (star : Statement.selectColumns sql = .star table)
    (spoilt : Spoilt L fuel c.connection (describing table) (c.close L w).2 e w') :
    ∃ told, c.execute L fuel op params w = ((some (.error told), c.reset), w') ∧
      told.message = e.message ∧ told.cls = .database ∧
      (told.cls = e.cls ↔ ∃ code text, (e = .failure (.server code text) ∨
        e = .refused code text) ∧ ErrorClass.ofCode code = .database) := by
  have fails : Fails L fuel c op params w .description e.describing w' :=
    (fails_description_iff statement).mpr ⟨table, e, star, spoilt, rfl⟩
  refine ⟨e.describing, fails.execute, ?_⟩
  cases spoilt with
  | @sending failure | @midway _ _ _ _ failure =>
    refine ⟨rfl, rfl, ?_⟩
    cases failure <;> simp [Error.describing, Error.cls, ErrorClass.ofError, eq_comm]
  | refused =>
    refine ⟨rfl, rfl, ?_⟩
    simp [Error.describing, Error.cls, eq_comm]

open Server (State library)

/-- The server finds no table to describe: a wrong statement, but told as any failure of
the database is. -/
theorem failed_description_classed_not_found :
    let server := State.scripted [("describe t", .error 59 "no t")] none 8192
    ∃ con before, Connection.connect library {} (.start server) = (.ok con, before) ∧
      let c := Cursor.ofConnection con.inner
      let e := Error.refused 59 "no t"
      e.cls = .programming ∧
      ∃ after, Spoilt library 9 c.connection (describing "t") (c.close library before).2 e after ∧
        after.lib.executed = ["describe t"] ∧
        ∃ told, c.execute library 9 "select * from t" [] before =
            ((some (.error told), c.reset), after) ∧
          told.message = e.message ∧ told.cls = .database ∧
          (told.cls = e.cls ↔ ∃ code text, (e = .failure (.server code text) ∨
            e = .refused code text) ∧ ErrorClass.ofCode code = .database) :=
  ⟨_, _, rfl, rfl, _, .refused rfl rfl rfl rfl rfl, rfl,
    failed_description_classed rfl rfl (.refused rfl rfl rfl rfl rfl)⟩

/-- A server that refuses the description with a duplicate key, and then with the end of
data: both fail the select in the class `database`, where the same answers to a statement
of its own are an error of integrity and no error. -/
theorem description_refused_classed :
    let server := State.scripted [("describe t", .error 27 "dup"), ("describe u", .error 8 "eof")]
      none 8192
    ∃ con before, Connection.connect library {} (.start server) = (.ok con, before) ∧
      let c := Cursor.ofConnection con.inner
      let outcome (op : String) := (c.execute library 9 op [] before).1.1
      (outcome "select * from t" = some (.error (.describeRefused "dup")) ∧
        (Error.describeRefused "dup").cls = .database) ∧
      (outcome "describe t" = some (.error (.refused 27 "dup")) ∧
        (Error.refused 27 "dup").cls = .integrity) ∧
      outcome "select * from u" = some (.error (.describeRefused "eof")) ∧
      outcome "describe u" = some (.ok ()) :=
  ⟨_, _, rfl, ⟨rfl, rfl⟩, ⟨rfl, rfl⟩, rfl, rfl⟩

end Executing

end Cursor

end Querent.DbApi
