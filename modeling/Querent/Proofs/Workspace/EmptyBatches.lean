import Querent.Proofs.Procedure.Building
import Querent.Proofs.Workspace.Iteration

/-!
# Batches without rows

A cursor hands out a row as soon as it has taken a batch, and does not ask whether the
batch has one. So an empty batch shows as one empty row, and so does a row result that
was finished without a row: what an iteration yields is counted here by the batches that
it gets, whichever of them are empty.
-/

namespace Querent

open Server (Course Executor Reply Rows State installation library shown)

/-! ## Counting -/

theorem length_shown (rows : Rows) :
    (shown rows).length = rows.length + if rows.isEmpty then 1 else 0 := by
  cases rows <;> rfl

/-- The rows that are made of batches: theirs, and one for each that is empty. -/
theorem length_flatMap_shown (batches : List Rows) : (batches.flatMap shown).length =
    batches.flatten.length + batches.countP List.isEmpty := by
  induction batches with
  | nil => rfl
  | cons rows rest ih =>
    rw [List.flatMap_cons, List.length_append, ih, length_shown, List.flatten_cons,
      List.length_append, List.countP_cons]
    omega

/-- Whoever asks for more than the rows of a course gets them all. -/
theorem Server.Course.countP_yields {c : Course} {n : Nat} (h : c.rows.length < n) :
    (c.yields n).countP Yield.isRow = c.rows.length := by
  have hle : (c.rows.map Yield.row).length ≤ n := by
    rw [List.length_map]
    exact h.le
  have rows : (c.rows.map Yield.row).countP Yield.isRow = c.rows.length := by
    rw [List.countP_map]
    exact List.countP_eq_length.mpr fun _ _ => rfl
  -- neither the error nor the end is a row
  have others : ∀ y ∈ (c.error.toList.map Yield.error ++ List.replicate n Yield.finished).take
      (n - (c.rows.map Yield.row).length), ¬ y.isRow = true := by
    intro y hy
    rcases List.mem_append.mp (List.mem_of_mem_take hy) with hy | hy
    · obtain ⟨e, -, rfl⟩ := List.mem_map.mp hy
      exact Bool.false_ne_true
    · rw [(List.mem_replicate.mp hy).2]
      exact Bool.false_ne_true
  rw [Course.yields, List.append_assoc, List.take_append, List.take_of_length_le hle,
    List.countP_append, rows, List.countP_eq_zero.mpr others, Nat.add_zero]

/-! ## Iterating -/

/-- A cursor over the result that is asked until there is nothing more has yielded the rows
of the batches, and a row for each of them that is empty. -/
def YieldsShown (w : World State) (r : QueryResult) (batches : List Rows) : Prop :=
  ∀ n, batches.flatten.length + batches.countP List.isEmpty < n →
    let out := Cursor.nexts library n (.ofResult r) w
    out.1.2.isDone ∧
      out.1.1.countP Yield.isRow = batches.flatten.length + batches.countP List.isEmpty

/-- It does so if it follows a course of that length. -/
theorem YieldsShown.of_follows {w : World State} {r : QueryResult} {batches : List Rows}
    {c : Course} (hrows : c.rows = batches.flatMap shown)
    (follows : ∀ n, let out := Cursor.nexts library n (.ofResult r) w
      out.1.1 = c.yields n ∧ (c.rows.length < n →
        out.1.2.isDone ∧ out.2.lib.fetches = w.lib.fetches + c.fetches)) :
    YieldsShown w r batches := by
  intro n hn out
  have hlen := length_flatMap_shown batches
  rw [← hrows] at hlen
  rw [← hlen] at hn ⊢
  obtain ⟨yields, ended⟩ := follows n
  refine ⟨(ended hn).1, ?_⟩
  rw [show out.1.1 = c.yields n from yields]
  exact Course.countP_yields hn

namespace Workspace

/-- **An empty batch shows as a row.** In any state that a program can reach, let a
statement be executed over an open connection or by a procedure, and let the server send
its reply. A cursor over the result yields as many rows as the batches that it gets hold,
and one more for each of them that is empty; so it yields as many as they hold exactly if
none is empty. A cursor over the result that a builder finishes yields the rows that were
ended, or one row if there are none. -/
theorem empty_batches_shown (replies : List (String × Reply)) (connectFailure : Option Code)
    (rowCapacity : Int32) (fuel : Nat) (steps : List Step) :
    let server := State.scripted replies connectFailure rowCapacity
    let before := (play installation fuel steps (start server)).world
    (∀ (x : Executor) (sql : String), x.Ready before → passable? sql = .ok sql →
      (∀ code, server.replyTo sql ≠ .sendFailure code) →
      ∃ r after, x.execute sql before = (.ok r, after) ∧
        YieldsShown after r (server.replyTo sql).brought) ∧
    ∃ b begun, RowBuilder.start library before = (.ok b, begun) ∧ ∀ edits,
      let built := (b.performAll edits begun).2
      YieldsShown built b.finish [built.lib.builtRows b.result.handle] := by
  intro server before
  obtain ⟨hobj, -⟩ := State.scripted_fresh replies connectFailure rowCapacity
  have hk := (kept_start hobj).after_play fuel steps
  constructor
  · intro x sql hready hsql hsent
    have reply : before.lib.replyTo sql = server.replyTo sql :=
      (kept_start hobj).replyTo_play fuel steps sql
    obtain ⟨item, hitem⟩ : ∃ item, (server.replyTo sql).item = .ok item := by
      cases hr : server.replyTo sql with
      | sendFailure code => exact absurd hr (hsent code)
      | _ => exact ⟨_, rfl⟩
    obtain ⟨r, after, run, obtained⟩ := x.obtains hk.accounts hready hsql (reply ▸ hitem)
    exact ⟨r, after, run, .of_follows rfl fun n =>
      obtained.stands.follows obtained.talks (Reply.takes_shown hitem) n⟩
  · obtain ⟨b, begun, run, writes⟩ := RowBuilder.start_writes hk.accounts
    refine ⟨b, begun, run, fun edits => ?_⟩
    obtain ⟨s, writes⟩ := RowBuilder.performAll_writes writes edits
    have held : (b.performAll edits begun).2.lib.builtRows b.result.handle = s.rows := by
      rw [State.builtRows, writes.stands.there]
      rfl
    refine .of_follows (c := ⟨shown s.rows, none, 0⟩) ?_ fun n => writes.follows n
    rw [held, List.flatMap_cons, List.flatMap_nil, List.append_nil]

/-- Of three batches the first and the last are empty: three rows are yielded where one is
held. -/
theorem empty_batches_shown_around :
    let reply : Reply := .cursor [[], [[.bool true]], []]
    let before :=
      (play installation 9 [.connect {} "c"] (start (.scripted [("q", reply)] none 8192))).world
    ∃ r after, (Executor.connection ⟨0⟩).execute "q" before = (.ok r, after) ∧
      let out := Cursor.nexts library 4 (.ofResult r) after
      out.1.2.isDone ∧ out.1.1.countP Yield.isRow = 3 := by
  intro reply before
  obtain ⟨results, -⟩ :=
    empty_batches_shown [("q", reply)] none 8192 9 [.connect {} "c"]
  obtain ⟨r, after, run, counts⟩ := results (.connection ⟨0⟩) "q" rfl rfl
    (fun code => by simp [State.scripted, State.on, State.replyTo, reply])
  exact ⟨r, after, run, counts 4 (by decide)⟩

/-- A statement that is answered with an empty batch, and a row result that is finished
without a row: no row is held, and one is yielded. -/
theorem empty_batch_yielded :
    let ws := play installation 9 [.connect {} "c", .ask "c" (.execute "q" [] .dict "r"),
      .procedure 1 "p", .ask "p" (.buildRow "b"), .ask "b" (.finish "s")]
      (start (.scripted [("q", .cursor [[]])] none 8192))
    let all (name : String) : List Answer :=
      let made := step installation 9 (.ask name (.intoCursor name)) ws
      [made.1, (step installation 9 (.ask name .all) made.2).1]
    (step installation 9 (.ask "s" .builtRows) ws).1 = .rows [] ∧
      all "r" = [.done, .items [[]] none] ∧ all "s" = [.done, .items [[]] none] := by
  decide +kernel

end Workspace

end Querent
