import Mathlib.Order.Defs.Unbundled
import Querent.Proofs.Result.Iteration
import Querent.Workspace.Basic

/-!
# Actions along a relation

An action leads along a relation if, wherever it starts, it ends at a state that the
relation has with the first. Such actions compose, for a preorder. What is asked of
a result, its batches and its cursors is made of a few calls of the library: if these
lead along a relation between worlds, so does all of it, and requests to the server
are the only ones that depend on the session.
-/

namespace Querent

/-- Wherever the action starts, it leads along the relation. -/
def Along {τ α : Type} (R : τ → τ → Prop) (act : StateM τ α) : Prop := ∀ s, R s (act s).2

namespace Along

theorem map {τ α β : Type} {R : τ → τ → Prop} {act : StateM τ α} {f : α → β}
    (ha : Along R act) : Along R (f <$> act) :=
  fun s => ha s

section Composing

variable {τ α β : Type} {R : τ → τ → Prop} [IsPreorder τ R] {act : StateM τ α}

theorem pure (a : α) : Along R (Pure.pure a : StateM τ α) := fun s => refl_of R s

theorem bind {f : α → StateM τ β} (ha : Along R act) (hf : ∀ a, Along R (f a)) :
    Along R (act >>= f) :=
  fun s => trans_of R (ha s) (hf _ _)

theorem mapM {f : β → StateM τ α} (hf : ∀ b, Along R (f b)) (l : List β) :
    Along R (l.mapM f) := by
  induction l with
  | nil => exact pure []
  | cons b l ih =>
    rw [List.mapM_cons]
    exact (hf b).bind fun _ => ih.bind fun _ => pure _

end Composing

/-- What is known of the first answer may be used. -/
theorem bind_gives {σ α β : Type} {R : World σ → World σ → Prop} [IsPreorder (World σ) R]
    {act : Action σ α} {f : α → Action σ β} {φ : α → Prop} (ha : Along R act)
    (hφ : Gives act φ) (hf : ∀ a, φ a → Along R (f a)) : Along R (act >>= f) :=
  fun w => trans_of R (ha w) (hf _ (hφ w) _)

end Along

variable {σ : Type} {L : Library σ} {R : World σ → World σ → Prop}

/-- The calls on results and rows lead along a relation, up to those that make a
request. -/
structure Calm (L : Library σ) (R : World σ → World σ → Prop) : Prop where
  kind : ∀ h, Along R (call (L.results.kind h))
  isOk : ∀ h, Along R (call (L.results.isOk h))
  code : ∀ h, Along R (call (L.results.code h))
  details : ∀ h, Along R (call (L.results.details h))
  report : ∀ h, Along R (call (L.results.report h))
  atEnd : ∀ h, Along R (call (L.results.atEnd h))
  release : ∀ h k, Along R (call (L.results.release h k))
  copyBatch : ∀ h, Along R (call (L.results.copyBatch h))
  copyRow : ∀ h, Along R (call (L.results.copyRow h))
  nextRow : ∀ h, Along R (call (L.results.nextRow h))
  fieldCount : ∀ h, Along R (call (L.results.fieldCount h))
  field : ∀ h i, Along R (call (L.results.field h i))

/-- Requests of the results of a session lead along a relation. -/
def Requests (L : Library σ) (R : World σ → World σ → Prop) (id : Option SessionId) : Prop :=
  ∀ r : QueryResult, r.session = id → ∀ what, Along R (r.request L what)

variable [IsPreorder (World σ) R]

/-! ## Results -/

namespace QueryResult

variable (hc : Calm L R) (r : QueryResult)

include hc

theorem along_kind : Along R (r.kind L) := by
  unfold kind
  split
  · exact .pure _
  · exact (hc.kind r.handle).bind fun _ => .pure _

theorem along_details : Along R (r.details L) := (hc.details r.handle).bind fun _ => .pure _

theorem along_error : Along R (r.error L) :=
  (hc.code r.handle).bind fun _ => (along_details hc r).bind fun _ => .pure _

theorem along_failure? : Along R (r.failure? L) := by
  refine (hc.code r.handle).bind fun code => ?_
  split
  · exact .pure _
  · exact (along_details hc r).bind fun _ => .pure _

theorem along_check : Along R (r.check L) := by
  refine (hc.isOk r.handle).bind fun ok => ?_
  split
  · exact .pure _
  · refine (along_failure? hc r).bind fun e => ?_
    cases e <;> exact .pure _

theorem along_report : Along R (r.report L) := by
  refine (along_kind hc r).bind fun (k, r') => ?_
  cases k with
  | report => exact (hc.report r'.handle).bind fun _ => .pure _
  | nothing | status | row | cursor | unknown => exact .pure _

theorem along_batchOf (made : Option Handle) : Along R (r.batchOf L made) := by
  cases made with
  | some b => exact .pure _
  | none => exact (along_error hc r).bind fun _ => .pure _

theorem along_row : Along R (r.row L) := by
  refine (along_kind hc r).bind fun (k, r') => ?_
  cases k with
  | cursor =>
    exact (hc.copyBatch r'.handle).bind fun made =>
      (along_batchOf hc r' made).bind fun _ => .pure _
  | row =>
    exact (hc.copyRow r'.handle).bind fun made =>
      (along_batchOf hc r' made).bind fun _ => .pure _
  | nothing | status | report | unknown => exact .pure _

theorem along_classify (code : Code) (what : Request) : Along R (r.classify L code what) := by
  refine (hc.isOk r.handle).bind fun ok => ?_
  split
  · exact .pure _
  · split
    · refine (along_failure? hc r).bind fun e => ?_
      cases e <;> exact .pure _
    · refine (hc.atEnd r.handle).bind fun atEnd => ?_
      split
      · exact .pure _
      · split <;> exact .pure _

variable {r} (hr : Requests L R r.session)

include hr

theorem along_openRows : Along R (r.openRows L) := by
  refine (along_kind hc r).bind_gives (kind_gives L r) fun (k, r') same => ?_
  cases k with
  | cursor => exact (hr r' same.2 .opening).bind fun _ => .pure _
  | row | nothing | status | report | unknown => exact .pure _

theorem along_fetch : Along R (r.fetch L) := by
  refine (along_kind hc r).bind_gives (kind_gives L r) fun (k, r') same => ?_
  cases k with
  | cursor => exact (hr r' same.2 .fetching).bind fun _ => .pure _
  | row | nothing | status | report | unknown => exact .pure _

end QueryResult

theorem Workspace.along_resultInfo {I : Installation σ} (hc : Calm I.library R)
    (r : QueryResult) : Along R (resultInfo I r) :=
  (r.along_kind hc).bind fun (_, r) => (hc.isOk r.handle).bind fun _ =>
    (hc.code r.handle).bind fun _ => (r.along_details hc).bind fun _ =>
      (hc.atEnd r.handle).bind fun _ => .pure _

/-! ## Batches and cursors -/

theorem Batch.along_row (hc : Calm L R) (b : Batch) : Along R (b.row L) :=
  (hc.fieldCount b.handle).bind fun _ => Along.mapM (fun i => hc.field b.handle i) _

namespace Cursor

variable (hc : Calm L R) (c : Cursor)

include hc

theorem along_releaseBatch : Along R (c.releaseBatch L) := by
  unfold releaseBatch
  split
  · next b _ => exact (hc.release b.handle .row).bind fun _ => .pure _
  · exact .pure _

theorem along_takeBatch : Along R (c.takeBatch L) := by
  refine (QueryResult.along_row hc c.result).bind fun (b, result) => ?_
  cases b <;> exact .pure _

theorem along_afterRequest (fetched : Except Error Fetched) :
    Along R (c.afterRequest L fetched) := by
  rcases fetched with e | (_ | _)
  · exact .pure _
  · exact along_takeBatch hc c
  · exact .pure _

theorem along_hasNext : Along R (c.hasNext L) := by
  unfold hasNext
  split
  · next b _ => exact hc.nextRow b.handle
  · exact .pure _

theorem along_finish : Along R (c.finish L) :=
  (along_releaseBatch hc c).bind fun _ => .pure _

variable {c} (hr : Requests L R c.result.session)

include hr

theorem along_start : Along R (c.start L) := by
  refine (hc.isOk c.result.handle).bind fun ok => ?_
  split
  · refine (c.result.along_kind hc).bind_gives (c.result.kind_gives L) fun (k, r) same => ?_
    dsimp only
    split
    · exact (r.along_openRows hc (same.2 ▸ hr)).bind fun (fetched, r') =>
        along_afterRequest hc _ fetched
    · exact .pure _
  · refine (hc.code c.result.handle).bind fun code => ?_
    split
    · exact .pure _
    · exact (c.result.along_error hc).bind fun _ => .pure _

theorem along_advance : Along R (c.advance L) := by
  refine (along_hasNext hc c).bind fun more => ?_
  split
  · exact .pure _
  · refine (along_releaseBatch hc c).bind_gives (releaseBatch_gives L c) fun c' hc' => ?_
    have same : c'.result = c.result := by rw [hc']
    refine (c'.result.along_kind hc).bind_gives (c'.result.kind_gives L) fun (k, r) hr' => ?_
    have session : r.session = c.result.session := hr'.2.trans (congrArg _ same)
    dsimp only
    split
    · exact .pure _
    · exact (r.along_fetch hc (session ▸ hr)).bind fun (fetched, r') =>
        along_afterRequest hc _ fetched

theorem along_position : Along R (c.position L) := by
  unfold position
  split
  · exact along_start hc hr
  · exact along_advance hc hr
  · exact .pure _

theorem along_next : Along R (c.next L) := by
  unfold next
  split
  · exact .pure _
  · refine (along_position hc hr).bind fun (found, c') => ?_
    rcases found with e | (_ | _)
    · exact (along_finish hc c').bind fun _ => .pure _
    · exact (along_finish hc c').bind fun _ => .pure _
    · dsimp only
      split
      · next b _ => exact (b.along_row hc).bind fun _ => .pure _
      · exact (along_finish hc c').bind fun _ => .pure _

omit hc hr

/-- The rows to the end, where what a cursor needs for a call it needs for the next
one. -/
theorem along_collect {φ : Cursor → Prop} (hnext : ∀ c, φ c → Along R (c.next L))
    (hφ : ∀ c, φ c → Gives (c.next L) fun x => φ x.2) (fuel : Nat) (h : φ c) :
    Along R (collect L fuel c) := by
  induction fuel generalizing c with
  | zero => exact .pure _
  | succ fuel ih =>
    refine (hnext c h).bind_gives (hφ c h) fun (y, c') h' => ?_
    cases y with
    | finished | error => exact .pure _
    | row row => exact (ih h').bind fun _ => .pure _

end Cursor

end Querent
