import Querent.Proofs.Server.Closing
import Querent.Proofs.Server.Iteration

/-!
# Cursors of a closed session

A cursor may be anywhere in its iteration when its session is closed. It still delivers
what it has at hand: the rest of its batch, or a row result that it has yet to open.
Where it would have to ask the server it meets an error instead, once, and ends.
-/

namespace Querent.Server

/-! ## Courses, call by call -/

namespace Course

/-- What the next call yields, and the course that remains. -/
def step : Course → Yield × Course
  | ⟨row :: rows, e, k⟩ => (.row row, ⟨rows, e, k⟩)
  | ⟨[], some e, k⟩ => (.error e, ⟨[], none, k⟩)
  | ⟨[], none, k⟩ => (.finished, ⟨[], none, k⟩)

end Course

/-! ## Results of a closed session -/

/-- A result lives with this item, and is of this kind as far as it knows or can see. -/
structure ShowsAs (w : World State) (r : QueryResult) (i : Item) (k : ResultKind) : Prop where
  there : w.lib.objects.get? r.handle.number = some i
  kind : r.known.getD i.sort = k

/-- The result when it knows its kind. -/
def knowing (r : QueryResult) (k : ResultKind) : QueryResult := { r with known := some k }

variable {w : World State} {r : QueryResult} {i : Item} {k : ResultKind} {id : SessionId}
  {b : Batch} {rows : Rows} {pos : Nat}

namespace ShowsAs

theorem call_inspect {α : Type} (h : ShowsAs w r i k) (operation : String) (missing : α)
    (f : Item → α) : call (inspect operation missing f r.handle) w = (f i, w) := by
  rw [call_apply, inspect_of_live h.there]

theorem kind_eq (h : ShowsAs w r i k) : r.kind library w = ((k, knowing r k), w) := by
  have called : call (library.results.kind r.handle) w = (i.kind, w) := h.call_inspect _ _ _
  obtain ⟨there, kind⟩ := h
  obtain ⟨handle, _ | known, session⟩ := r
  · obtain rfl : i.sort = k := kind
    show (call (library.results.kind handle) >>= fun tag =>
      pure (ResultKind.ofTag tag, (⟨handle, some (ResultKind.ofTag tag), session⟩ : QueryResult)))
        w = _
    rw [bind_apply, called]
    rfl
  · obtain rfl : known = k := kind
    rfl

theorem isOk_eq (h : ShowsAs w r i k) : r.isOk library w = (i.isOk, w) := h.call_inspect _ _ _

theorem knowing (h : ShowsAs w r i k) : ShowsAs w (knowing r k) i k := ⟨h.there, rfl⟩

/-- What a result tells of itself changes nothing. -/
theorem info_eq (h : ShowsAs w r i k) : ∃ info,
    Workspace.resultInfo installation r w = ((info, Server.knowing r k), w) := by
  have told := h.knowing
  have code : (Server.knowing r k).code library w = (i.code, w) := told.call_inspect _ _ _
  have atEnd : (Server.knowing r k).atEnd library w = (i.atEnd, w) := told.call_inspect _ _ _
  have details : (Server.knowing r k).details library w =
      (i.details.getD QueryResult.noDetails, w) := by
    have called : call (library.results.details r.handle) w = (i.details, w) :=
      h.call_inspect _ _ _
    rw [QueryResult.details, bind_apply]
    exact congrArg (fun x => (x.1.getD QueryResult.noDetails, x.2)) called
  simp only [Workspace.resultInfo, installation_library, bind_apply, pure_apply, h.kind_eq,
    told.isOk_eq, code, details, atEnd]
  exact ⟨_, rfl⟩

/-- What a result shows depends on its own item only. -/
theorem of_item {w' : World State} (h : ShowsAs w r i k)
    (hi : w'.lib.objects.get? r.handle.number = w.lib.objects.get? r.handle.number) :
    ShowsAs w' r i k :=
  ⟨hi.trans h.there, h.kind⟩

theorem turned (h : ShowsAs w r i k) (hne : b.handle ≠ r.handle)
    (hget : w.lib.objects.get? b.handle.number = some (.batch rows pos)) (pos' : Nat) :
    ShowsAs (Server.turned w b.handle rows pos') r i k := by
  have other : r.handle.number ≠ b.handle.number := fun heq => hne (congrArg Handle.mk heq.symm)
  exact h.of_item (by rw [turned_get? hget, if_neg other])

theorem freed (h : ShowsAs w r i k) {j : Handle} (hne : j ≠ r.handle) :
    ShowsAs (Server.freed w j) r i k := by
  have other : r.handle.number ≠ j.number := fun heq => hne (congrArg Handle.mk heq.symm)
  exact h.of_item (by rw [freed_get?, if_neg other])

theorem openRows_closed (h : ShowsAs w r i .cursor) (hr : r.session = some id)
    (hc : w.line id = none) : r.openRows library w =
      ((.error .connectionClosed, Server.knowing r .cursor), w) := by
  have refused := QueryResult.request_closed (r := Server.knowing r .cursor) hr hc .opening
  rw [QueryResult.openRows, bind_apply, h.kind_eq]
  dsimp only
  rw [bind_apply, refused]
  rfl

theorem fetch_closed (h : ShowsAs w r i .cursor) (hr : r.session = some id)
    (hc : w.line id = none) : r.fetch library w =
      ((.error .connectionClosed, Server.knowing r .cursor), w) := by
  have refused := QueryResult.request_closed (r := Server.knowing r .cursor) hr hc .fetching
  rw [QueryResult.fetch, bind_apply, h.kind_eq]
  dsimp only
  rw [bind_apply, refused]
  rfl

theorem openRows_row (h : ShowsAs w r i .row) :
    r.openRows library w = ((.ok .batch, Server.knowing r .row), w) := by
  rw [QueryResult.openRows, bind_apply, h.kind_eq]
  rfl

/-- A row result needs no server to be copied. -/
theorem row_eq {cap : Int32} {row : Row} (h : ShowsAs w r (.built cap rows row) .row) :
    r.row library w = ((.ok ⟨⟨w.lib.last + 1⟩⟩, Server.knowing r .row), copying w rows) := by
  have copied : call (copyRow r.handle) w = (some ⟨w.lib.last + 1⟩, copying w rows) := by
    rw [call_apply, copyRow_of_live h.there]
    rfl
  rw [QueryResult.row, bind_apply, h.kind_eq]
  show (call (copyRow r.handle) >>= fun made =>
    (Server.knowing r .row).batchOf library made >>= fun b => pure (b, _)) w = _
  rw [bind_apply, copied]
  rfl

end ShowsAs

/-! ## Cursors of a closed session -/

/-- What comes after the last row at hand, by the kind of the result. -/
inductive Lost : ResultKind → Option Error → Prop
  | cursor : Lost .cursor (some .connectionClosed)
  | row : Lost .row none

/-- What a cursor has yet to deliver without the server. -/
inductive Stranded (w : World State) (c : Cursor) : Course → Prop
  | done : c.phase = .done → Stranded w c ⟨[], none, 0⟩
  /-- on a row of a batch -/
  | reading {b : Batch} {rows : Rows} {pos : Nat} {i : Item} {k : ResultKind} {e : Option Error} :
    c.phase = .reading → c.batch = some b →
    w.lib.objects.get? b.handle.number = some (.batch rows pos) → b.handle ≠ c.result.handle →
    ShowsAs w c.result i k → Lost k e → Stranded w c ⟨rows.drop (pos + 1), e, 0⟩
  /-- over a cursor of the server that was not opened -/
  | unopened {i : Item} : c.phase = .pending → c.batch = none → ShowsAs w c.result i .cursor →
    i.isOk = true → Stranded w c ⟨[], some .connectionClosed, 0⟩
  /-- over a row result that was not read -/
  | unread {cap : Int32} {rows : Rows} {row : Row} : c.phase = .pending → c.batch = none →
    ShowsAs w c.result (.built cap rows row) .row → Stranded w c ⟨shown rows, none, 0⟩

variable {c : Cursor} {course : Course} {e : Option Error}

/-- What a cursor without a batch comes to at the end of its rows. -/
theorem finish_of_none (hb : c.batch = none) (w : World State) :
    c.finish library w = ({ c with phase := .done }, w) := by
  have released : c.releaseBatch library w = (c, w) := by
    unfold Cursor.releaseBatch
    rw [hb]
    rfl
  rw [Cursor.finish, bind_apply, released]
  rfl

/-- A cursor that finds no row on its way ends. -/
theorem next_of_none {c' : Cursor} {w' : World State} (hp : c.phase ≠ .done)
    (found : c.position library w = ((e.elim (.ok false) .error, c'), w'))
    (hb : c'.batch = none) :
    c.next library w = ((e.elim .finished .error, { c' with phase := .done }), w') := by
  have hd : ¬c.isDone = true := by simpa [Cursor.isDone] using hp
  rw [Cursor.next, if_neg hd, bind_apply, found]
  cases e with
  | none => exact congrArg (fun x => ((Yield.finished, x.1), x.2)) (finish_of_none hb w')
  | some e => exact congrArg (fun x => ((Yield.error e, x.1), x.2)) (finish_of_none hb w')

/-- A cursor that finds a row reads it. -/
theorem next_of_row {c' : Cursor} {w' : World State} (hp : c.phase ≠ .done)
    (found : c.position library w = ((.ok true, c'), w')) (hb : c'.batch = some b)
    (hget : w'.lib.objects.get? b.handle.number = some (.batch rows pos)) :
    c.next library w = ((.row (rowAt rows pos),
      { c' with phase := .reading, rows := c'.rows + 1 }), w') := by
  have hd : ¬c.isDone = true := by simpa [Cursor.isDone] using hp
  rw [Cursor.next, if_neg hd, bind_apply, found]
  dsimp only
  rw [hb]
  dsimp only
  rw [bind_apply, batch_row_eq hget]
  rfl

theorem position_pending (hp : c.phase = .pending) (w : World State) :
    c.position library w = c.start library w := by
  rw [Cursor.position, hp]

/-- At the end of a batch there is no other one to be had. -/
theorem refill_closed (hb : c.batch = some b)
    (hget : w.lib.objects.get? b.handle.number = some (.batch rows pos))
    (hne : b.handle ≠ c.result.handle) (hs : ShowsAs w c.result i k) (hl : Lost k e)
    (hr : c.result.session = some id) (hc : w.line id = none) :
    refillCursor c w = ((e.elim (.ok false) .error,
      { c with batch := none, result := knowing c.result k }), freed w b.handle) := by
  have released : c.releaseBatch library w = ({ c with batch := none }, freed w b.handle) := by
    unfold Cursor.releaseBatch
    rw [hb]
    dsimp only
    rw [bind_apply, batch_release_eq hget]
    rfl
  have left := hs.freed hne
  rw [refillCursor, bind_apply, released]
  dsimp only
  rw [bind_apply, left.kind_eq]
  cases hl with
  | row => rfl
  | cursor =>
    dsimp only
    rw [if_neg (by simp), bind_apply, left.knowing.fetch_closed hr hc]
    rfl

namespace Stranded

variable (hr : c.result.session = some id) (hc : w.line id = none)

include hr hc

/-- A cursor on a row of a batch goes to the next one, or is at its end. -/
theorem next_reading (hp : c.phase = .reading) (hb : c.batch = some b)
    (hget : w.lib.objects.get? b.handle.number = some (.batch rows pos))
    (hne : b.handle ≠ c.result.handle) (hs : ShowsAs w c.result i k) (hl : Lost k e) :
    let course : Course := ⟨rows.drop (pos + 1), e, 0⟩
    ∃ c' w', c.next library w = ((course.step.1, c'), w') ∧ Stranded w' c' course.step.2 := by
  intro course
  have hnot : c.phase ≠ .done := by simp [hp]
  have turn : c.hasNext library w =
      (decide (pos + 1 < rows.length), turned w b.handle rows (pos + 1)) := by
    unfold Cursor.hasNext
    rw [hb]
    exact batch_next_eq hget
  have moved : (turned w b.handle rows (pos + 1)).lib.objects.get? b.handle.number =
      some (.batch rows (pos + 1)) := (turned_get? hget _ _).trans (if_pos rfl)
  have shows := hs.turned hne hget (pos + 1)
  have run : c.position library w = (if (c.hasNext library w).1 then
      (pure (.ok true, c) : Action State _) else refillCursor c) (c.hasNext library w).2 := by
    rw [Cursor.position, hp]
    rfl
  rw [turn] at run
  by_cases hlt : pos + 1 < rows.length
  · rw [if_pos (by simpa using hlt)] at run
    have hrow : rowAt rows (pos + 1) = rows[pos + 1] := by
      rw [rowAt, List.getElem?_eq_getElem hlt]
      rfl
    have hcourse : course = ⟨rowAt rows (pos + 1) :: rows.drop (pos + 1 + 1), e, 0⟩ := by
      rw [hrow, ← List.drop_eq_getElem_cons hlt]
    rw [hcourse]
    exact ⟨_, _, next_of_row hnot run hb moved, .reading rfl hb moved hne shows hl⟩
  · rw [if_neg (by simpa using hlt), refill_closed hb moved hne shows hl hr hc] at run
    have hcourse : course = ⟨[], e, 0⟩ := by
      rw [show course = ⟨rows.drop (pos + 1), e, 0⟩ from rfl,
        List.drop_eq_nil_of_le (Nat.le_of_not_lt hlt)]
    have ended := next_of_none hnot run rfl
    rw [hcourse]
    cases e <;> exact ⟨_, _, ended, .done rfl⟩

/-- A cursor that was not opened cannot be opened any more. -/
theorem next_unopened (hp : c.phase = .pending) (hb : c.batch = none)
    (hs : ShowsAs w c.result i .cursor) (hok : i.isOk = true) :
    ∃ c' w', c.next library w = ((.error .connectionClosed, c'), w') ∧
      Stranded w' c' ⟨[], none, 0⟩ := by
  have found : c.position library w =
      ((.error .connectionClosed, { c with result := knowing c.result .cursor }), w) := by
    rw [position_pending hp, Cursor.start, bind_apply, hs.isOk_eq]
    dsimp only
    rw [if_pos hok, bind_apply, hs.kind_eq]
    dsimp only
    rw [if_pos (by rfl), bind_apply, hs.knowing.openRows_closed hr hc]
    rfl
  exact ⟨_, _, next_of_none (e := some .connectionClosed) (by simp [hp]) found hb, .done rfl⟩

omit hr hc

/-- A row result is read as ever. -/
theorem next_unread {cap : Int32} {row : Row} (hp : c.phase = .pending)
    (hbound : ∀ n, w.lib.last < n → w.lib.objects.get? n = none)
    (hs : ShowsAs w c.result (.built cap rows row) .row) :
    ∃ c' w', c.next library w = ((.row (rowAt rows 0), c'), w') ∧
      Stranded w' c' ⟨rows.tail, none, 0⟩ := by
  let b : Batch := ⟨⟨w.lib.last + 1⟩⟩
  have copied (n : Nat) : (copying w rows).lib.objects.get? n =
      if n = w.lib.last + 1 then some (.batch rows 0) else w.lib.objects.get? n :=
    Table.get?_snoc _ n _ _ (hbound _ (Nat.lt_succ_self _))
  have other : c.result.handle.number ≠ w.lib.last + 1 := by
    intro heq
    have there := hs.there
    rw [heq, hbound _ (Nat.lt_succ_self _)] at there
    cases there
  have found : c.position library w =
      ((.ok true, { c with result := knowing c.result .row, batch := some b }),
        copying w rows) := by
    rw [position_pending hp, Cursor.start, bind_apply, hs.isOk_eq]
    dsimp only
    rw [if_pos (show (Item.built cap rows row).isOk = true from rfl), bind_apply, hs.kind_eq]
    dsimp only
    rw [if_pos (by rfl), bind_apply, hs.knowing.openRows_row]
    show Cursor.takeBatch library { c with result := knowing c.result .row } w = _
    rw [Cursor.takeBatch, bind_apply, hs.knowing.row_eq]
    rfl
  have there : (copying w rows).lib.objects.get? b.handle.number = some (.batch rows 0) :=
    (copied _).trans (if_pos rfl)
  have shows : ShowsAs (copying w rows) (knowing c.result .row) (.built cap rows row) .row :=
    hs.knowing.of_item ((copied _).trans (if_neg other))
  refine ⟨_, _, next_of_row (by simp [hp]) found rfl there, ?_⟩
  rw [← List.drop_one]
  exact .reading rfl rfl there (fun heq => other (congrArg Handle.number heq).symm) shows .row

/-- Telling how it stands changes nothing for a cursor. -/
theorem told (h : Stranded w c course) :
    let out := Workspace.resultInfo installation c.result w
    Stranded out.2 { c with result := out.1.2 } course := by
  intro out
  cases h with
  | done hp => exact .done hp
  | reading hp hb hget hne hs hl =>
    obtain ⟨info, run⟩ := hs.info_eq
    rw [show out = _ from run]
    exact .reading hp hb hget hne hs.knowing hl
  | unopened hp hb hs hok =>
    obtain ⟨info, run⟩ := hs.info_eq
    rw [show out = _ from run]
    exact .unopened hp hb hs.knowing hok
  | unread hp hb hs =>
    obtain ⟨info, run⟩ := hs.info_eq
    rw [show out = _ from run]
    exact .unread hp hb hs.knowing

/-- What a cursor has yet to deliver depends on what it holds only. -/
theorem of_items {w' : World State} (h : Stranded w c course)
    (hitems : ∀ j ∈ c.holdings.1,
      w'.lib.objects.get? j.number = w.lib.objects.get? j.number) : Stranded w' c course := by
  have own : c.result.handle ∈ c.holdings.1 :=
    Multiset.mem_add.mpr (Or.inr (Multiset.mem_add.mpr (Or.inl (Multiset.mem_singleton_self _))))
  cases h with
  | done hp => exact .done hp
  | @reading b rows pos i k e hp hb hget hne hs hl =>
    have held : b.handle ∈ c.holdings.1 := by
      refine Multiset.mem_add.mpr (Or.inl ?_)
      rw [hb]
      exact Multiset.mem_singleton_self _
    exact .reading hp hb ((hitems _ held).trans hget) hne (hs.of_item (hitems _ own)) hl
  | unopened hp hb hs hok => exact .unopened hp hb (hs.of_item (hitems _ own)) hok
  | unread hp hb hs => exact .unread hp hb (hs.of_item (hitems _ own))

/-- **One call of a cursor of a closed session** yields the next of what it has yet to
deliver. -/
theorem next (h : Stranded w c course) (hr : c.result.session = some id)
    (hc : w.line id = none) (hbound : ∀ n, w.lib.last < n → w.lib.objects.get? n = none) :
    ∃ c' w', c.next library w = ((course.step.1, c'), w') ∧ Stranded w' c' course.step.2 := by
  cases h with
  | done hp =>
    exact ⟨c, w, Cursor.next_done library (by simp [Cursor.isDone, hp]) w, .done hp⟩
  | reading hp hb hget hne hs hl => exact next_reading hr hc hp hb hget hne hs hl
  | unopened hp hb hs hok => exact next_unopened hr hc hp hb hs hok
  | unread hp hb hs => exact next_unread hp hbound hs

end Stranded

end Querent.Server
