import Querent.Proofs.Library.Recorded
import Querent.Proofs.Result.Iteration

/-!
# A log changes nothing

Sessions, results and cursors do over a recorded library what they do over the
library itself: they give the same answers, and leave it in the same state.
-/

namespace Querent

variable {σ : Type} (L : Library σ)

/-! ## Sessions -/

namespace Session

theorem erases_update (id : SessionId) (f : Session → Session) :
    Erases (update (σ := σ × List Call) id f) (update id f) :=
  fun _ => ⟨rfl, rfl⟩

theorem erases_get (id : SessionId) : Erases (get (σ := σ × List Call) id) (get id) :=
  fun _ => ⟨rfl, rfl⟩

theorem erases_hangUp (con : Handle) : Erases (hangUp L.recorded con) (hangUp L con) := by
  refine Erases.bind (Erases.called fun _ => ⟨rfl, rfl⟩) fun code => ?_
  split
  · exact Erases.pure _
  · exact Erases.bind (Erases.called fun _ => ⟨rfl, rfl⟩) fun _ =>
      Erases.bind (Erases.called fun _ => ⟨rfl, rfl⟩) fun _ => Erases.pure _

theorem erases_leave (id : SessionId) : Erases (leave L.recorded id) (leave L id) := by
  refine Erases.bind (erases_update id _) fun _ => Erases.bind (erases_get id) fun s => ?_
  split
  · exact Erases.bind (erases_update id _) fun _ =>
      Erases.bind (erases_hangUp L _) fun _ => Erases.pure _
  · exact Erases.pure _

theorem erases_leave? (id : Option SessionId) :
    Erases (leave? L.recorded id) (leave? L id) := by
  cases id with
  | none => exact Erases.pure _
  | some id => exact erases_leave L id

end Session

/-! ## Results -/

namespace QueryResult

variable (r : QueryResult)

theorem erases_kind : Erases (r.kind L.recorded) (r.kind L) := by
  unfold kind
  cases r.known with
  | some k => exact Erases.pure _
  | none => exact Erases.bind (Erases.called fun _ => ⟨rfl, rfl⟩) fun _ => Erases.pure _

theorem erases_error : Erases (r.error L.recorded) (r.error L) :=
  Erases.bind (Erases.called fun _ => ⟨rfl, rfl⟩) fun _ =>
    Erases.bind (Erases.bind (Erases.called fun _ => ⟨rfl, rfl⟩) fun _ => Erases.pure _)
      fun _ => Erases.pure _

theorem erases_failure? : Erases (r.failure? L.recorded) (r.failure? L) := by
  refine Erases.bind (Erases.called fun _ => ⟨rfl, rfl⟩) fun code => ?_
  split
  · exact Erases.pure _
  · exact Erases.bind (Erases.bind (Erases.called fun _ => ⟨rfl, rfl⟩) fun _ => Erases.pure _)
      fun _ => Erases.pure _

theorem erases_batchOf (made : Option Handle) :
    Erases (r.batchOf L.recorded made) (r.batchOf L made) := by
  cases made with
  | some b => exact Erases.pure _
  | none => exact Erases.bind (erases_error L r) fun _ => Erases.pure _

theorem erases_row : Erases (r.row L.recorded) (r.row L) := by
  refine Erases.bind (erases_kind L r) fun (k, r') => ?_
  cases k with
  | cursor | row =>
    exact Erases.bind (Erases.called fun _ => ⟨rfl, rfl⟩) fun made =>
      Erases.bind (erases_batchOf L r' made) fun _ => Erases.pure _
  | nothing | status | report | unknown => exact Erases.pure _

theorem erases_canTalk : Erases (r.canTalk (σ := σ × List Call)) r.canTalk := by
  unfold canTalk
  cases r.session with
  | none => exact Erases.pure _
  | some id =>
    exact Erases.bind (Erases.bind (Session.erases_get id) fun _ => Erases.pure _)
      fun _ => Erases.pure _

theorem erases_classify (code : Code) (what : Request) :
    Erases (r.classify L.recorded code what) (r.classify L code what) := by
  refine Erases.bind (Erases.called fun _ => ⟨rfl, rfl⟩) fun ok => ?_
  split
  · exact Erases.pure _
  · split
    · refine Erases.bind (erases_failure? L r) fun e => ?_
      cases e <;> exact Erases.pure _
    · refine Erases.bind (Erases.called fun _ => ⟨rfl, rfl⟩) fun atEnd => ?_
      split
      · exact Erases.pure _
      · cases r.session <;> exact Erases.pure _

theorem erases_request (what : Request) :
    Erases (r.request L.recorded what) (r.request L what) := by
  refine Erases.bind (erases_canTalk r) fun talks => ?_
  split
  · cases what with
    | opening | fetching =>
      exact Erases.bind (Erases.called fun _ => ⟨rfl, rfl⟩) fun code => erases_classify L r code _
  · exact Erases.pure _

theorem erases_openRows : Erases (r.openRows L.recorded) (r.openRows L) := by
  refine Erases.bind (erases_kind L r) fun (k, r') => ?_
  cases k with
  | cursor => exact Erases.bind (erases_request L r' _) fun _ => Erases.pure _
  | row | nothing | status | report | unknown => exact Erases.pure _

theorem erases_fetch : Erases (r.fetch L.recorded) (r.fetch L) := by
  refine Erases.bind (erases_kind L r) fun (k, r') => ?_
  cases k with
  | cursor => exact Erases.bind (erases_request L r' _) fun _ => Erases.pure _
  | row | nothing | status | report | unknown => exact Erases.pure _

theorem erases_drop : Erases (r.drop L.recorded) (r.drop L) :=
  Erases.bind (erases_kind L r) fun (_, r') =>
    Erases.bind (Erases.called fun _ => ⟨rfl, rfl⟩) fun _ => Session.erases_leave? L r'.session

end QueryResult

/-! ## Cursors -/

theorem Batch.erases_row (b : Batch) : Erases (b.row L.recorded) (b.row L) :=
  Erases.bind (Erases.called fun _ => ⟨rfl, rfl⟩) fun _ =>
    Erases.mapM (fun _ => Erases.called fun _ => ⟨rfl, rfl⟩) _

namespace Cursor

variable (c : Cursor)

theorem erases_releaseBatch : Erases (c.releaseBatch L.recorded) (c.releaseBatch L) := by
  unfold releaseBatch
  cases c.batch with
  | some b => exact Erases.bind (Erases.called fun _ => ⟨rfl, rfl⟩) fun _ => Erases.pure _
  | none => exact Erases.pure _

theorem erases_afterRequest (fetched : Except Error Fetched) :
    Erases (c.afterRequest L.recorded fetched) (c.afterRequest L fetched) := by
  rcases fetched with e | (_ | _)
  · exact Erases.pure _
  · refine Erases.bind (QueryResult.erases_row L c.result) fun (b, result) => ?_
    cases b <;> exact Erases.pure _
  · exact Erases.pure _

theorem erases_start : Erases (c.start L.recorded) (c.start L) := by
  refine Erases.bind (Erases.called fun _ => ⟨rfl, rfl⟩) fun isOk => ?_
  cases isOk with
  | false =>
    refine Erases.bind (Erases.called fun _ => ⟨rfl, rfl⟩) fun code => ?_
    split
    · exact Erases.pure _
    · exact Erases.bind (QueryResult.erases_error L c.result) fun _ => Erases.pure _
  | true =>
    refine Erases.bind (QueryResult.erases_kind L c.result) fun (k, result) => ?_
    dsimp only
    split
    · exact Erases.bind (QueryResult.erases_openRows L result) fun (_, _) =>
        erases_afterRequest L _ _
    · exact Erases.pure _

theorem erases_advance : Erases (c.advance L.recorded) (c.advance L) := by
  have more : Erases (c.hasNext L.recorded) (c.hasNext L) := by
    unfold hasNext
    cases c.batch with
    | some b => exact Erases.called fun _ => ⟨rfl, rfl⟩
    | none => exact Erases.pure _
  refine Erases.bind more fun more => ?_
  cases more with
  | true => exact Erases.pure _
  | false =>
    refine Erases.bind (erases_releaseBatch L c) fun c' => ?_
    refine Erases.bind (QueryResult.erases_kind L c'.result) fun (k, result) => ?_
    dsimp only
    split
    · exact Erases.pure _
    · exact Erases.bind (QueryResult.erases_fetch L result) fun (_, _) =>
        erases_afterRequest L _ _

theorem erases_finish : Erases (c.finish L.recorded) (c.finish L) :=
  Erases.bind (erases_releaseBatch L c) fun _ => Erases.pure _

theorem erases_position : Erases (c.position L.recorded) (c.position L) := by
  unfold position
  cases c.phase with
  | pending => exact erases_start L c
  | reading => exact erases_advance L c
  | done => exact Erases.pure _

theorem erases_next : Erases (c.next L.recorded) (c.next L) := by
  unfold next
  cases c.isDone with
  | true => exact Erases.pure _
  | false =>
    refine Erases.bind (erases_position L c) fun (found, c') => ?_
    rcases found with e | (_ | _)
    · exact Erases.bind (erases_finish L c') fun _ => Erases.pure _
    · exact Erases.bind (erases_finish L c') fun _ => Erases.pure _
    · dsimp only
      cases c'.batch with
      | some b => exact Erases.bind (Batch.erases_row L b) fun _ => Erases.pure _
      | none => exact Erases.bind (erases_finish L c') fun _ => Erases.pure _

theorem erases_nexts (n : Nat) : Erases (nexts L.recorded n c) (nexts L n c) := by
  induction n generalizing c with
  | zero => exact Erases.pure _
  | succ n ih =>
    exact Erases.bind (erases_next L c) fun (_, c') =>
      Erases.bind (ih c') fun _ => Erases.pure _

theorem erases_drop : Erases (c.drop L.recorded) (c.drop L) :=
  Erases.bind (erases_releaseBatch L c) fun c' => QueryResult.erases_drop L c'.result

end Cursor

end Querent
