import Querent.Proofs.Server.Execution
import Querent.Proofs.Server.Iteration
import Querent.Proofs.Workspace.Ownership

/-!
# Iterating over the results of a program

Whatever a program has done with its server before, a cursor over the result of a
statement delivers what the reply to the statement says, and then nothing more.
-/

namespace Querent

def Yield.isRow : Yield → Bool
  | .row _ => true
  | _ => false

/-- A cursor counts the rows that it yields. -/
theorem Cursor.rows_nexts {σ : Type} (L : Library σ) (n : Nat) {c : Cursor} (hc : c.Settled)
    (w : World σ) :
    (nexts L n c w).1.2.rows = c.rows + (nexts L n c w).1.1.countP Yield.isRow := by
  obtain ⟨rows, e, k, hys, hrows, -⟩ := (nexts_progress L n hc w).shape
  have hrow : (rows.map Yield.row).countP Yield.isRow = rows.length := by
    rw [List.countP_map]
    exact List.countP_eq_length.mpr fun _ _ => rfl
  have herror : (e.toList.map Yield.error).countP Yield.isRow = 0 := by
    cases e <;> rfl
  have hend : (List.replicate k Yield.finished).countP Yield.isRow = 0 := by
    rw [List.countP_replicate]
    rfl
  rw [hrows, hys, List.countP_append, List.countP_append, hrow, herror, hend,
    Nat.add_zero]

namespace Workspace

open Server (State Executor installation library)

/-- **A cursor delivers the reply.** In any state that a program can reach, let a
statement be executed over an open connection or by a procedure. If the server can send
its reply, and sends no batch that is empty, then a cursor over the result yields the
rows of the reply and its error, and from then on only the end. When that is
reached the cursor is done, after just the fetches that the reply takes. At all times the
cursor knows how many rows it has yielded. -/
theorem cursor_delivers (replies : List (String × Server.Reply)) (connectFailure : Option Code)
    (rowCapacity : Int32) (fuel : Nat) (steps : List Step) (x : Executor) (sql : String)
    (hready : x.Ready (play installation fuel steps
      (start (.scripted replies connectFailure rowCapacity))).world)
    (hsql : passable? sql = .ok sql)
    (hsent : ∀ code,
      (State.scripted replies connectFailure rowCapacity).replyTo sql ≠ .sendFailure code)
    (hfull : ∀ rows ∈ ((State.scripted replies connectFailure rowCapacity).replyTo sql).batches,
      rows ≠ []) :
    let server := State.scripted replies connectFailure rowCapacity
    let before := (play installation fuel steps (start server)).world
    let course := (server.replyTo sql).course
    ∃ r after, x.execute sql before = (.ok r, after) ∧ ∀ n,
      let out := Cursor.nexts library n (.ofResult r) after
      out.1.1 = course.yields n ∧
      out.1.2.rows = out.1.1.countP Yield.isRow ∧
      (course.rows.length < n →
        out.1.2.isDone ∧ out.2.lib.fetches = before.lib.fetches + course.fetches) := by
  intro server before course
  obtain ⟨hobj, -⟩ := Server.State.scripted_fresh replies connectFailure rowCapacity
  have hk := (kept_start hobj).after_play fuel steps
  have reply : before.lib.replyTo sql = server.replyTo sql :=
    (kept_start hobj).replyTo_play fuel steps sql
  obtain ⟨item, hitem⟩ : ∃ item, (server.replyTo sql).item = .ok item := by
    cases hr : server.replyTo sql with
    | sendFailure code => exact absurd hr (hsent code)
    | _ => exact ⟨_, rfl⟩
  obtain ⟨r, after, run, obtained⟩ := x.obtains hk.accounts hready hsql (reply ▸ hitem)
  refine ⟨r, after, run, fun n => ?_⟩
  have shows : Server.Shows after (.ofResult r) (.ofItem item) :=
    ⟨obtained.stands, trivial, rfl, rfl⟩
  obtain ⟨hyields, became⟩ := shows.nexts n obtained.talks
  obtain ⟨hcourse, hend⟩ := (Server.Reply.takes hitem hfull).nexts n
  refine ⟨hyields.trans hcourse, ?_, fun hlt => ?_⟩
  · have hrows := Cursor.rows_nexts library n (Cursor.ofResult_settled r) after
    rw [hrows]
    exact Nat.zero_add _
  · obtain ⟨hdone, hfetches⟩ := hend hlt
    refine ⟨?_, ?_⟩
    · rw [Cursor.isDone, became.shows.phase, hdone]
      rfl
    · have h := became.fetches
      rw [hfetches, obtained.fetches] at h
      exact h

/-- Of three batches of one row the second fetch fails, over a connection. -/
theorem cursor_delivers_until_failure :
    let reply : Server.Reply :=
      .failingCursor [[[.bool true]], [[.bool false]], [[.null]]] 1 Code.noMemory
    let before :=
      (play installation 9 [.connect {} "c"] (start (.scripted [("q", reply)] none 8192))).world
    ∃ r after, (Executor.connection ⟨0⟩).execute "q" before = (.ok r, after) ∧
      let out := Cursor.nexts library 4 (.ofResult r) after
      out.1.1 = [.row [.bool true], .row [.bool false],
        .error (.server Code.noMemory Code.noMemory.name), .finished] ∧
      out.1.2.isDone ∧ out.2.lib.fetches = 2 := by
  intro reply before
  obtain ⟨r, after, run, delivers⟩ := cursor_delivers [("q", reply)] none 8192 9
    [.connect {} "c"] (.connection ⟨0⟩) "q" rfl rfl
    (fun code => by simp [State.scripted, State.on, State.replyTo, reply])
    (by decide)
  obtain ⟨yields, -, ended⟩ := delivers 4
  exact ⟨r, after, run, yields, ended (by decide)⟩

end Workspace

end Querent
