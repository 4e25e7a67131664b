import Querent.CommandLine.Run
import Querent.Proofs.Result.Iteration
import Querent.Proofs.Text.Passing

/-!
# What comes of the statements of a script

What a statement comes to is told without the program that sends it: it delivers rows,
and it may fail, in one of a few ways. The program sends the statements of a script one
after the other, up to the first that fails, and prints on standard output what they
delivered. It ends exactly if its fuel lasts for the rows of each statement. All of this
holds over every library.
-/

namespace Querent

variable {σ : Type} {L : Library σ}

/-! ## Delivering all rows -/

namespace Cursor

/-- Asked on and on, the cursor yields these rows, and then this error or else the end;
it has become `c'` by then. -/
inductive Delivers (L : Library σ) : Cursor → World σ → List Row → Option Error → Cursor →
    World σ → Prop
  | finished {c w c' w'} : c.next L w = ((.finished, c'), w') → Delivers L c w [] none c' w'
  | error {c w e c' w'} : c.next L w = ((.error e, c'), w') → Delivers L c w [] (some e) c' w'
  | row {c w row c₁ w₁ rows e c' w'} : c.next L w = ((.row row, c₁), w₁) →
    Delivers L c₁ w₁ rows e c' w' → Delivers L c w (row :: rows) e c' w'

variable {fuel : Nat} {c c' : Cursor} {w w' : World σ} {rows : List Row} {e : Option Error}

theorem delivers_of_collect (h : collect L fuel c w = ((some (rows, e), c'), w')) :
    Delivers L c w rows e c' w' ∧ rows.length < fuel := by
  induction fuel generalizing c w rows with
  | zero => cases h
  | succ fuel ih =>
    rw [collect, bind_apply] at h
    rcases hnext : c.next L w with ⟨⟨y, c₁⟩, w₁⟩
    rw [hnext] at h
    cases y with
    | finished =>
      cases h
      exact ⟨.finished hnext, Nat.zero_lt_succ fuel⟩
    | error e =>
      cases h
      exact ⟨.error hnext, Nat.zero_lt_succ fuel⟩
    | row row =>
      dsimp only at h
      rw [bind_apply] at h
      rcases hmore : collect L fuel c₁ w₁ with ⟨⟨more, c₂⟩, w₂⟩
      rw [hmore] at h
      cases more with
      | none => cases h
      | some more =>
        cases h
        obtain ⟨later, hlt⟩ := ih hmore
        exact ⟨.row hnext later, Nat.succ_lt_succ hlt⟩

/-- What is delivered is collected, if the fuel lasts. -/
theorem Delivers.collect (h : Delivers L c w rows e c' w') (hfuel : rows.length < fuel) :
    collect L fuel c w = ((some (rows, e), c'), w') := by
  induction h generalizing fuel with
  | finished hnext | error hnext =>
    obtain ⟨fuel, rfl⟩ := Nat.exists_eq_add_one.mpr hfuel
    rw [Cursor.collect, bind_apply, hnext]
    rfl
  | row hnext _ ih =>
    obtain ⟨fuel, rfl⟩ := Nat.exists_eq_add_one.mpr (Nat.zero_lt_of_lt hfuel)
    rw [Cursor.collect, bind_apply, hnext]
    dsimp only
    rw [bind_apply, ih (Nat.lt_of_succ_lt_succ hfuel)]
    rfl

end Cursor

/-- A statement that was executed could be passed. -/
theorem Connection.passable_of_execute {c : Connection} {sql : String} {r : QueryResult}
    {w w' : World σ} (h : c.execute L sql w = (.ok r, w')) : Passable sql := by
  obtain ⟨hpass, -⟩ | ⟨-, e, run⟩ := passable?_of sql
  · exact hpass
  · rw [execute, run] at h
    cases h

namespace CommandLine

open Cursor (Delivers delivers_of_collect)

/-! ## One statement -/

/-- A result carries no error that counts: none at all, or the end of data. -/
def Accepted (L : Library σ) (r : QueryResult) (w : World σ) : Prop :=
  (r.isOk L w).1 = true ∨ (r.code L (r.isOk L w).2).1 = Code.endOfData

/-- The statement gives a result of the kind `k` that carries no error that counts. -/
def Obtains (L : Library σ) (con : Connection) (sql : String) (w : World σ) (k : ResultKind)
    (r : QueryResult) (w' : World σ) : Prop :=
  ∃ first w₁, con.execute L sql w = (.ok first, w₁) ∧ Accepted L first w₁ ∧
    first.kind L (refusal? L first w₁).2 = ((k, r), w')

/-- What the statement comes to: the rows that it delivers, fewer than the fuel, how it
fails if it does, and the world that is left. -/
inductive Answers (L : Library σ) (fuel : Nat) (con : Connection) (sql : String) (w : World σ) :
    List Row → Option Failure → World σ → Prop
  /-- it was not sent, or not executed -/
  | unsent {e w'} : con.execute L sql w = (.error e, w') →
    Answers L fuel con sql w [] (some (.error e)) w'
  /-- its result carries an error -/
  | refused {r w₁ f w₂} : con.execute L sql w = (.ok r, w₁) → ¬Accepted L r w₁ →
    refusal? L r w₁ = (some f, w₂) → Answers L fuel con sql w [] (some f) (r.drop L w₂).2
  | status {r w₁} : Obtains L con sql w .status r w₁ →
    Answers L fuel con sql w [] none (r.drop L w₁).2
  | report {r w₁ counters r' w₂} : Obtains L con sql w .report r w₁ →
    r.report L w₁ = ((.ok counters, r'), w₂) → Answers L fuel con sql w [] none (r'.drop L w₂).2
  /-- its rows are read, up to an error if there is one -/
  | rows {k r w₁ rows e c w₂} : Obtains L con sql w k r w₁ → k.hasRows = true →
    Delivers L (.ofResult r) w₁ rows e c w₂ → rows.length < fuel →
    Answers L fuel con sql w rows (e.map rowFailure) (c.drop L w₂).2
  | unexpected {k r w₁} : Obtains L con sql w k r w₁ → k ≠ .status → k ≠ .report →
    k.hasRows = false → Answers L fuel con sql w [] (some (.unexpected k)) (r.drop L w₁).2

/-! ## The statements of a script -/

/-- A statement that was sent or refused, the rows that it delivered, and how it failed. -/
structure Exchange where
  statement : String
  rows : List Row
  failure : Option Failure

/-- The world after the time was taken, if it is to be. -/
def timed (clock : StateM σ Nat) (timing : Bool) (w : World σ) : World σ :=
  if timing then (call clock w).2 else w

/-- What the statements come to, one after the other, up to the first that fails. -/
inductive Transcript (L : Library σ) (fuel : Nat) (clock : StateM σ Nat) (timing : Bool)
    (con : Connection) : World σ → List String → List Exchange → World σ → Prop
  | done {w} : Transcript L fuel clock timing con w [] [] w
  | failed {w sql rest rows f w'} : Answers L fuel con sql (call clock w).2 rows (some f) w' →
    Transcript L fuel clock timing con w (sql :: rest) [⟨sql, rows, some f⟩] w'
  | passed {w sql rest rows w₁ xs w'} : Answers L fuel con sql (call clock w).2 rows none w₁ →
    Transcript L fuel clock timing con (timed clock timing w₁) rest xs w' →
    Transcript L fuel clock timing con w (sql :: rest) (⟨sql, rows, none⟩ :: xs) w'

section Statements

variable {fuel bound : Nat} {clock : StateM σ Nat} {timing : Bool} {con : Connection}
  {sql : String} {w w' : World σ} {rows : List Row} {failure : Option Failure}
  {statements : List String} {xs : List Exchange}

/-- A statement that did not fail could be passed. -/
theorem Answers.passable (h : Answers L fuel con sql w rows none w') : Passable sql := by
  have obtained {k : ResultKind} {r : QueryResult} {w₁ : World σ}
      (h : Obtains L con sql w k r w₁) : Passable sql := by
    obtain ⟨first, w₀, run, -⟩ := h
    exact Connection.passable_of_execute run
  generalize hf : (none : Option Failure) = f at h
  cases h with
  | unsent | refused | unexpected => cases hf
  | status h | report h | rows h => exact obtained h

/-- More fuel changes nothing. -/
theorem Answers.mono (h : Answers L bound con sql w rows failure w') (hle : bound ≤ fuel) :
    Answers L fuel con sql w rows failure w' := by
  cases h with
  | unsent run => exact .unsent run
  | refused run accepted refusal => exact .refused run accepted refusal
  | status obtained => exact .status obtained
  | report obtained report => exact .report obtained report
  | rows obtained hrows delivers hlt =>
    exact .rows obtained hrows delivers (Nat.lt_of_lt_of_le hlt hle)
  | unexpected obtained hstatus hreport hrows => exact .unexpected obtained hstatus hreport hrows

namespace Transcript

theorem mono (h : Transcript L bound clock timing con w statements xs w') (hle : bound ≤ fuel) :
    Transcript L fuel clock timing con w statements xs w' := by
  induction h with
  | done => exact .done
  | failed answers => exact .failed (answers.mono hle)
  | passed answers _ ih => exact .passed (answers.mono hle) ih

variable (h : Transcript L fuel clock timing con w statements xs w')

include h

end Transcript

end Statements

/-! ## What is printed of a statement -/

variable {fuel : Nat} {clock : StateM σ Nat} {o : Options} {con : Connection} {sql : String}
  {w w' w₁ : World σ} {rows : List Row} {failure : Option Failure} {r : QueryResult}
  {k : ResultKind}

theorem refusal?_eq_none_iff : (refusal? L r w).1 = none ↔ Accepted L r w := by
  rw [refusal?, bind_apply, Accepted]
  obtain ⟨ok, w₁⟩ := r.isOk L w
  cases ok with
  | true => simp
  | false =>
    dsimp only
    rw [if_neg (by simp), bind_apply]
    obtain ⟨code, w₂⟩ := r.code L w₁
    dsimp only
    split
    · next h => simp [h]
    · next h =>
      rw [bind_apply, bind_apply]
      simp [h]

/-- The text of a line on standard output. -/
def Line.output? : Line → Option String
  | .output s => some s
  | _ => none

/-- What is printed of rows on standard output. -/
def Options.printed (o : Options) (rows : List Row) : List String :=
  rows.map (o.format.getD .text).row

/-- The outcome shows the rows, and how it ended. -/
structure Shows (o : Options) (out : Outcome) (rows : List Row) (failure : Option Failure) :
    Prop where
  output : out.lines.filterMap Line.output? = o.printed rows
  result : out.result = some (failure.elim (.ok ()) .error)

theorem Shows.failed (f : Failure) : Shows o (.failed f) [] (some f) := ⟨rfl, rfl⟩

/-- Feedback is not on standard output. -/
theorem output_feedback (s : String) : (o.feedback s).filterMap Line.output? = [] := by
  unfold Options.feedback
  split <;> rfl

/-- What is done with a result that carries no error that counts. -/
theorem Obtains.send_eq (h : Obtains L con sql w k r w₁) (fuel : Nat) (o : Options) :
    ∃ first w₀, first.kind L w₀ = ((k, r), w₁) ∧
      send L fuel o con sql w = printResult L fuel o first w₀ := by
  obtain ⟨first, w₀, run, accepted, kind⟩ := h
  refine ⟨first, _, kind, ?_⟩
  rw [send, bind_apply, run]
  dsimp only
  rw [bind_apply, refusal?_eq_none_iff.mpr accepted]

/-- **What is printed of a statement is what it comes to.** -/
theorem Answers.send (h : Answers L fuel con sql w rows failure w') :
    (send L fuel o con sql w).2 = w' ∧
      Shows o (CommandLine.send L fuel o con sql w).1 rows failure := by
  cases h with
  | unsent run =>
    rw [CommandLine.send, bind_apply, run]
    exact ⟨rfl, .failed _⟩
  | refused run _ refusal =>
    rw [CommandLine.send, bind_apply, run]
    dsimp only
    rw [bind_apply, refusal]
    exact ⟨rfl, .failed _⟩
  | status obtained =>
    obtain ⟨first, w₀, kind, eq⟩ := obtained.send_eq fuel o
    rw [eq, printResult, bind_apply, kind]
    exact ⟨rfl, output_feedback "OK", rfl⟩
  | report obtained report =>
    obtain ⟨first, w₀, kind, eq⟩ := obtained.send_eq fuel o
    rw [eq, printResult, bind_apply, kind]
    dsimp only
    rw [bind_apply, report]
    exact ⟨rfl, rfl, rfl⟩
  | @rows k r w₁ rows e c w₂ obtained hrows delivers hfuel =>
    obtain ⟨first, w₀, kind, eq⟩ := obtained.send_eq fuel o
    have printed : (printRows L fuel o r w₁).2 = (c.drop L w₂).2 ∧
        Shows o (printRows L fuel o r w₁).1 rows (e.map rowFailure) := by
      rw [printRows, bind_apply, delivers.collect hfuel]
      refine ⟨rfl, ?_, ?_⟩
      · show (rows.map fun row => Line.output _).filterMap Line.output? = _
        rw [List.filterMap_map]
        exact congrFun List.filterMap_eq_map rows
      · cases e <;> rfl
    rw [eq, printResult, bind_apply, kind]
    cases k with
    | row | cursor => exact printed
    | nothing | status | report | unknown => exact absurd hrows (by simp [ResultKind.hasRows])
  | @unexpected k r w₁ obtained hstatus hreport hrows =>
    obtain ⟨first, w₀, kind, eq⟩ := obtained.send_eq fuel o
    rw [eq, printResult, bind_apply, kind]
    cases k with
    | nothing | unknown => exact ⟨rfl, .failed _⟩
    | status => exact absurd rfl hstatus
    | report => exact absurd rfl hreport
    | row | cursor => exact absurd hrows (by simp [ResultKind.hasRows])

/-- A statement comes to something, if the fuel lasts. -/
theorem answers_of_send (hdone : (send L fuel o con sql w).1.result ≠ none) :
    ∃ rows failure w', Answers L fuel con sql w rows failure w' := by
  rcases run : con.execute L sql w with ⟨e | first, w₁⟩
  · exact ⟨_, _, _, .unsent run⟩
  rcases refusal : refusal? L first w₁ with ⟨_ | f, w₂⟩
  · have accepted : Accepted L first w₁ := refusal?_eq_none_iff.mp (congrArg Prod.fst refusal)
    rcases kind : first.kind L w₂ with ⟨⟨k, r⟩, w₃⟩
    have obtained : Obtains L con sql w k r w₃ :=
      ⟨first, w₁, run, accepted, by rw [refusal]; exact kind⟩
    rw [send, bind_apply, run] at hdone
    dsimp only at hdone
    rw [bind_apply, refusal] at hdone
    dsimp only at hdone
    rw [printResult, bind_apply, kind] at hdone
    cases k with
    | status => exact ⟨_, _, _, .status obtained⟩
    | report =>
      obtain ⟨counters, w₄, report⟩ :=
        QueryResult.report_of_known (QueryResult.known_of_kind kind) w₃
      exact ⟨_, _, _, .report obtained report⟩
    | nothing | unknown =>
      exact ⟨_, _, _, .unexpected obtained (by simp) (by simp) (by simp [ResultKind.hasRows])⟩
    | row | cursor =>
      rcases collected : Cursor.collect L fuel (.ofResult r) w₃ with ⟨⟨_ | ⟨rows, e⟩, c⟩, w₄⟩
      · dsimp only at hdone
        rw [printRows, bind_apply, collected] at hdone
        exact absurd rfl hdone
      · obtain ⟨delivers, hfuel⟩ := delivers_of_collect collected
        exact ⟨_, _, _, .rows obtained (by simp [ResultKind.hasRows]) delivers hfuel⟩
  · refine ⟨_, _, _, .refused run (fun accepted => ?_) refusal⟩
    rw [← refusal?_eq_none_iff, refusal] at accepted
    cases accepted

/-! ## All statements -/

variable {statements : List String} {xs : List Exchange}

/-- Handling a statement shows what it comes to. The time is taken before, and after it
if it did not fail. -/
theorem Answers.handle (h : Answers L fuel con sql (call clock w).2 rows failure w') :
    (CommandLine.handle L fuel clock o con sql w).2 =
        failure.elim (timed clock o.timing w') (fun _ => w') ∧
      Shows o (CommandLine.handle L fuel clock o con sql w).1 rows failure := by
  obtain ⟨left, output, result⟩ := h.send (o := o)
  rcases run : CommandLine.send L fuel o con sql (call clock w).2 with ⟨⟨lines, ended⟩, w₁⟩
  rw [run] at left output result
  obtain rfl : w₁ = w' := left
  obtain rfl : ended = some (failure.elim (.ok ()) .error) := result
  have shown (time : List Line) (htime : time.filterMap Line.output? = []) :
      (o.feedback ("executing \"" ++ sql ++ "\"") ++ lines ++ time).filterMap Line.output? =
        o.printed rows := by
    rw [List.filterMap_append, List.filterMap_append, output_feedback, htime, List.append_nil]
    exact output
  rw [CommandLine.handle, bind_apply, bind_apply, run]
  cases failure with
  | some f => exact ⟨rfl, shown [] rfl, rfl⟩
  | none =>
    dsimp only [Option.elim]
    unfold timed
    cases o.timing with
    | false => exact ⟨rfl, shown [] rfl, rfl⟩
    | true => exact ⟨rfl, shown [.elapsed _] rfl, rfl⟩

variable (L fuel clock o con sql w) in
/-- To handle a statement is to send it, and perhaps to take the time after that. -/
theorem handle_send :
    (handle L fuel clock o con sql w).1.result =
        (send L fuel o con sql (call clock w).2).1.result ∧
      ∃ timing, (handle L fuel clock o con sql w).2 =
        timed clock timing (send L fuel o con sql (call clock w).2).2 := by
  rw [handle, bind_apply, bind_apply]
  obtain ⟨⟨lines, _ | f | _⟩, w₁⟩ := send L fuel o con sql (call clock w).2
  · exact ⟨rfl, false, rfl⟩
  · exact ⟨rfl, false, rfl⟩
  · cases o.timing with
    | false => exact ⟨rfl, false, rfl⟩
    | true => exact ⟨rfl, true, rfl⟩

/-- **What is printed of a script is what its statements come to.** -/
theorem Transcript.handleAll (h : Transcript L fuel clock o.timing con w statements xs w') :
    (CommandLine.handleAll L fuel clock o con statements w).2 = w' ∧
      (CommandLine.handleAll L fuel clock o con statements w).1.lines.filterMap Line.output? =
        o.printed (xs.flatMap Exchange.rows) ∧
      (CommandLine.handleAll L fuel clock o con statements w).1.result =
        some ((xs.findSome? Exchange.failure).elim (.ok ()) .error) := by
  induction h with
  | done => exact ⟨rfl, rfl, rfl⟩
  | @failed w sql rest rows f w' answers =>
    obtain ⟨left, output, result⟩ := answers.handle (o := o)
    rw [CommandLine.handleAll, bind_apply, result]
    refine ⟨left, ?_, result⟩
    rw [List.flatMap_singleton]
    exact output
  | @passed w sql rest rows w₁ xs w' answers _ ih =>
    obtain ⟨left, output, result⟩ := answers.handle (o := o)
    obtain ⟨left', output', result'⟩ := ih
    rw [CommandLine.handleAll, bind_apply, result]
    dsimp only [Option.elim]
    rw [bind_apply, left]
    refine ⟨left', ?_, result'⟩
    show (_ ++ _ : List Line).filterMap Line.output? = _
    rw [List.filterMap_append, output]
    show _ ++ _ = (rows ++ xs.flatMap Exchange.rows).map _
    rw [List.map_append]
    exact congrArg _ output'

/-- The statements come to something, if the fuel lasts. -/
theorem transcript_of_handleAll
    (hdone : (handleAll L fuel clock o con statements w).1.result ≠ none) :
    ∃ xs w', Transcript L fuel clock o.timing con w statements xs w' := by
  induction statements generalizing w with
  | nil => exact ⟨[], w, .done⟩
  | cons sql rest ih =>
    have first : (send L fuel o con sql (call clock w).2).1.result ≠ none := by
      rw [← (handle_send L fuel clock o con sql w).1]
      intro hnone
      rw [handleAll, bind_apply, hnone] at hdone
      exact hdone hnone
    obtain ⟨rows, failure, w₁, answers⟩ := answers_of_send first
    cases failure with
    | some f => exact ⟨_, _, .failed answers⟩
    | none =>
      obtain ⟨left, -, result⟩ := answers.handle (o := o)
      rw [handleAll, bind_apply, result] at hdone
      dsimp only [Option.elim] at hdone
      rw [bind_apply, left] at hdone
      obtain ⟨xs, w', later⟩ := ih hdone
      exact ⟨_, _, .passed answers later⟩

end CommandLine

end Querent
