import Querent.Proofs.Server.Reading

/-!
# What a reply delivers

The rows and the error that a cursor delivers are those of the reply that its
result was made from. One induction goes through the rows of a batch, another
one through the batches that are still to be fetched.
-/

namespace Querent

namespace Server

/-! ## The course of an iteration -/

/-- What an iteration delivers, and the number of fetches that it takes. -/
structure Course where
  rows : List Row
  error : Option Error
  fetches : Nat

namespace Course

/-- What is yielded in `n` calls: the rows, the error if there is one, and from then
on only the end. -/
def yields (c : Course) (n : Nat) : List Yield :=
  (c.rows.map Yield.row ++ c.error.toList.map Yield.error ++
    List.replicate n Yield.finished).take n

/-- One row more, in front. -/
def after (row : Row) (c : Course) : Course := { c with rows := row :: c.rows }

theorem take_ended (ys : List Yield) (n : Nat) :
    (ys ++ List.replicate (n + 1) Yield.finished).take n =
      (ys ++ List.replicate n Yield.finished).take n := by
  have hmin : min (n - ys.length) (n + 1) = min (n - ys.length) n := by omega
  rw [List.take_append, List.take_append, List.take_replicate, List.take_replicate, hmin]

theorem yields_after (row : Row) (c : Course) (n : Nat) :
    (c.after row).yields (n + 1) = .row row :: c.yields n :=
  congrArg (Yield.row row :: ·) (take_ended _ n)

theorem yields_error (e : Error) (k n : Nat) :
    (⟨[], some e, k⟩ : Course).yields (n + 1) = .error e :: List.replicate n .finished := by
  have h : (⟨[], some e, k⟩ : Course).yields (n + 1) =
      .error e :: (List.replicate (n + 1) Yield.finished).take n := rfl
  rw [h, List.take_replicate, Nat.min_eq_left (Nat.le_succ n)]

theorem yields_finished (k n : Nat) :
    (⟨[], none, k⟩ : Course).yields n = List.replicate n .finished := by
  have h : (⟨[], none, k⟩ : Course).yields n = (List.replicate n Yield.finished).take n := rfl
  rw [h, List.take_replicate, Nat.min_self]

end Course

/-- The error of a failed result. The end of data is none. -/
def failing (code : Code) (details : String) : Option Error :=
  if code = Code.endOfData then none else some (.server code details)

/-- What a cursor over the result of a reply delivers. -/
def Reply.course : Reply → Course
  | .status => ⟨[], some (.wrongType (.notRows .status)), 0⟩
  | .report _ => ⟨[], some (.wrongType (.notRows .report)), 0⟩
  | .error code details => ⟨[], failing code details, 0⟩
  | .row values => ⟨[values], none, 0⟩
  | .cursor batches => ⟨batches.flatten, none, batches.length⟩
  | .failingCursor batches n code =>
    if n < batches.length then ⟨(batches.take (n + 1)).flatten, failing code code.name, n + 1⟩
    else ⟨batches.flatten, none, batches.length⟩
  | .sendFailure _ => ⟨[], none, 0⟩

/-- The batches of a reply. -/
def Reply.batches : Reply → List Rows
  | .cursor batches | .failingCursor batches _ _ => batches
  | _ => []

/-! ## Readings and their courses -/

/-- A reading takes this course, where the fetches count from the first one on. -/
inductive Takes : Reading → Course → Prop
  | row {rd rd' : Reading} {row : Row} {c : Course} :
    rd.next = (.row row, rd') → Takes rd' c → Takes rd (c.after row)
  | error {rd rd' : Reading} {e : Error} :
    rd.next = (.error e, rd') → Takes rd ⟨[], some e, rd'.fetches⟩
  | finished {rd rd' : Reading} :
    rd.next = (.finished, rd') → Takes rd ⟨[], none, rd'.fetches⟩

namespace Reading

variable {rd rd' : Reading} {rows : Rows} {pos : Nat} {e : Error}

theorem next_row (hp : rd.phase ≠ .done) (h : rd.position = (.ok true, rd'))
    (hb : rd'.batch = some (rows, pos)) :
    rd.next = (.row (rowAt rows pos), { rd' with phase := .reading, rows := rd'.rows + 1 }) := by
  rw [Reading.next, if_neg hp, h]
  dsimp only
  rw [hb]

theorem next_finished (hp : rd.phase ≠ .done) (h : rd.position = (.ok false, rd')) :
    rd.next = (.finished, rd'.finish) := by
  rw [Reading.next, if_neg hp, h]

theorem next_error (hp : rd.phase ≠ .done) (h : rd.position = (.error e, rd')) :
    rd.next = (.error e, rd'.finish) := by
  rw [Reading.next, if_neg hp, h]

/-- After anything else than a row a reading is through. -/
theorem next_done {y : Yield} (h : rd.next = (y, rd')) (hy : ∀ row, y ≠ .row row) :
    rd'.phase = .done := by
  by_cases hp : rd.phase = .done
  · rw [Reading.next, if_pos hp] at h
    exact (Prod.mk.inj h).2 ▸ hp
  · rcases hpos : rd.position with ⟨e | (_ | _), found⟩
    · rw [next_error hp hpos] at h
      exact (Prod.mk.inj h).2 ▸ rfl
    · rw [next_finished hp hpos] at h
      exact (Prod.mk.inj h).2 ▸ rfl
    · cases hb : found.batch with
      | none =>
        rw [Reading.next, if_neg hp, hpos] at h
        dsimp only at h
        rw [hb] at h
        exact (Prod.mk.inj h).2 ▸ rfl
      | some at' =>
        rw [next_row hp hpos hb] at h
        exact absurd (Prod.mk.inj h).1.symm (hy _)

theorem nexts_done (n : Nat) (h : rd.phase = .done) :
    nexts n rd = (List.replicate n .finished, rd) := by
  induction n with
  | zero => rfl
  | succ n ih =>
    have hnext : rd.next = (.finished, rd) := by rw [Reading.next, if_pos h]
    rw [nexts, hnext, ih]
    rfl

end Reading

/-- **What a course is good for.** It tells all that is yielded, however often the
cursor is asked, and what is left behind when it has ended. -/
theorem Takes.nexts {rd : Reading} {c : Course} (h : Takes rd c) (n : Nat) :
    (Reading.nexts n rd).1 = c.yields n ∧
      (c.rows.length < n →
        (Reading.nexts n rd).2.phase = .done ∧ (Reading.nexts n rd).2.fetches = c.fetches) := by
  induction h generalizing n with
  | @row rd rd' row c hnext _ ih =>
    cases n with
    | zero => exact ⟨rfl, fun hlt => absurd hlt (Nat.not_lt_zero _)⟩
    | succ n =>
      obtain ⟨hyields, hend⟩ := ih n
      rw [Reading.nexts, hnext, Course.yields_after]
      exact ⟨congrArg _ hyields, fun hlt => hend (Nat.lt_of_succ_lt_succ hlt)⟩
  | @error rd rd' e hnext =>
    have hdone := Reading.next_done hnext (by simp)
    cases n with
    | zero => exact ⟨rfl, fun hlt => absurd hlt (Nat.not_lt_zero _)⟩
    | succ n =>
      rw [Reading.nexts, hnext, Course.yields_error, Reading.nexts_done n hdone]
      exact ⟨rfl, fun _ => ⟨hdone, rfl⟩⟩
  | @finished rd rd' hnext =>
    have hdone := Reading.next_done hnext (by simp)
    cases n with
    | zero => exact ⟨rfl, fun hlt => absurd hlt (Nat.not_lt_zero _)⟩
    | succ n =>
      rw [Reading.nexts, hnext, Course.yields_finished, Reading.nexts_done n hdone]
      exact ⟨rfl, fun _ => ⟨hdone, rfl⟩⟩

/-! ## Through a batch -/

/-- The rows that a cursor makes of a batch: an empty one shows as one empty row. -/
def shown (rows : Rows) : Rows := rowAt rows 0 :: rows.tail

theorem shown_of_ne_nil {rows : Rows} (h : rows ≠ []) : shown rows = rows := by
  cases rows with
  | nil => exact absurd rfl h
  | cons row rows => rfl

def Course.afterRows (rows : List Row) (c : Course) : Course :=
  { c with rows := rows ++ c.rows }

/-- A reading on a row of a batch. -/
def Reading.on (item : Item) (rows : Rows) (pos count fetches : Nat) : Reading :=
  ⟨item, some (rows, pos), .reading, count, fetches⟩

variable {item : Item} {rows : Rows} {pos count fetches : Nat} {c : Course}

/-- **Through the rows of a batch.** A course that is right at the end of the batch is
right before it, with the rows in between. -/
theorem Takes.through (hend : ∀ pos count, rows.length ≤ pos + 1 →
    Takes (.on item rows pos count fetches) c) (pos count : Nat) :
    Takes (.on item rows pos count fetches) (c.afterRows (rows.drop (pos + 1))) := by
  -- by the number of rows that are left
  induction hk : rows.length - (pos + 1) generalizing pos count with
  | zero =>
    have hlen : rows.length ≤ pos + 1 := by omega
    have hdrop : rows.drop (pos + 1) = [] := List.drop_eq_nil_of_le hlen
    rw [hdrop]
    exact hend pos count hlen
  | succ k ih =>
    have hlt : pos + 1 < rows.length := by omega
    have moved : (Reading.on item rows pos count fetches).position =
        (.ok true, { Reading.on item rows pos count fetches with
          batch := some (rows, pos + 1) }) := if_pos hlt
    have hnext := Reading.next_row (by simp [Reading.on]) moved rfl
    have rest := ih (pos + 1) (count + 1) (by omega)
    have hrow : rowAt rows (pos + 1) = rows[pos + 1] := by
      rw [rowAt, List.getElem?_eq_getElem hlt]
      rfl
    have heq : c.afterRows (rows.drop (pos + 1)) =
        (c.afterRows (rows.drop (pos + 2))).after (rowAt rows (pos + 1)) := by
      rw [hrow, List.drop_eq_getElem_cons hlt]
      rfl
    rw [heq]
    exact Takes.row hnext rest

/-- A batch that has just been taken, from its first row on. -/
theorem Takes.batch {rd rd' : Reading} (hp : rd.phase ≠ .done)
    (h : rd.position = (.ok true, rd')) (hb : rd'.batch = some (rows, 0))
    (hend : ∀ pos count, rows.length ≤ pos + 1 →
      Takes (.on rd'.item rows pos count rd'.fetches) c) :
    Takes rd (c.afterRows (shown rows)) := by
  have hnext := Reading.next_row hp h hb
  have rest := Takes.through hend 0 (rd'.rows + 1)
  rw [List.drop_one] at rest
  have heq : { rd' with phase := .reading, rows := rd'.rows + 1 } =
      Reading.on rd'.item rows 0 (rd'.rows + 1) rd'.fetches := by
    rw [Reading.on, ← hb]
  rw [heq] at hnext
  exact Takes.row hnext rest

/-! ## Through the batches of a cursor -/

namespace CursorState

variable {s : CursorState}

/-- The cursor after a fetch of the next batch. -/
def received (s : CursorState) (rows : Rows) (rest : List Rows) : CursorState :=
  { s with fetches := s.fetches + 1, current := some rows, pending := rest }

/-- The next fetch does not fail. -/
def Goes (s : CursorState) : Prop := ∀ n code, s.failure = some (n, code) → s.fetches ≠ n

/-- A fetch that fails only after those that remain. -/
theorem Goes.of_later
    (h : ∀ n code, s.failure = some (n, code) → s.fetches + s.pending.length < n) : s.Goes := by
  intro n code hf hn
  have := h n code hf
  omega

theorem fetch_of_goes (h : s.Goes) : s.fetch = { s with fetches := s.fetches + 1 }.proceed := by
  unfold fetch
  cases hf : s.failure with
  | none => rfl
  | some failure => exact if_neg (h failure.1 failure.2 hf)

theorem fetch_of_fails {n : Nat} {code : Code} (h : s.failure = some (n, code))
    (hn : s.fetches = n) :
    s.fetch = (code,
      { s with fetches := s.fetches + 1, current := none, ok := false, code := code }) := by
  unfold fetch
  rw [h]
  exact if_pos hn

end CursorState

namespace Reading

variable {s : CursorState}

theorem refill_cursor (rd : Reading) (h : rd.item = .cursor s) :
    rd.refill = afterRequest ⟨.cursor s.fetch.2, none, rd.phase, rd.rows, rd.fetches + 1⟩
      (Item.cursor s.fetch.2).outcome := by
  obtain ⟨item, batch, phase, rows, fetches⟩ := rd
  obtain rfl := h
  rfl

/-- At the end of a batch the next one is asked for. -/
theorem position_on (count fetches : Nat) (hlen : rows.length ≤ pos + 1) :
    (on (.cursor s) rows pos count fetches).position =
      afterRequest ⟨.cursor s.fetch.2, none, .reading, count, fetches + 1⟩
        (Item.cursor s.fetch.2).outcome := by
  have hlt : ¬ pos + 1 < rows.length := by omega
  have hpos : (on (.cursor s) rows pos count fetches).position =
      (on (.cursor s) rows pos count fetches).refill := if_neg hlt
  rw [hpos, refill_cursor _ rfl]
  rfl

end Reading

namespace Takes

variable {s : CursorState}

/-- Another batch arrives. -/
theorem received {rows' : Rows} {rest : List Rows} (count fetches : Nat) (hok : s.ok) (hgo : s.Goes)
    (hpend : s.pending = rows' :: rest) (hlen : rows.length ≤ pos + 1)
    (hend : ∀ pos count, rows'.length ≤ pos + 1 →
      Takes (.on (.cursor (s.received rows' rest)) rows' pos count (fetches + 1)) c) :
    Takes (.on (.cursor s) rows pos count fetches) (c.afterRows (shown rows')) := by
  have fetched : s.fetch.2 = s.received rows' rest := by
    rw [CursorState.fetch_of_goes hgo, CursorState.proceed, hpend]
    rfl
  have arrived : (Item.cursor (s.received rows' rest)).outcome = .ok .batch := if_pos hok
  have moved : (Reading.on (.cursor s) rows pos count fetches).position =
      (.ok true, ⟨.cursor (s.received rows' rest), some (rows', 0), .reading, count,
        fetches + 1⟩) := by
    rw [Reading.position_on count fetches hlen, fetched, arrived]
    rfl
  exact Takes.batch (by simp [Reading.on]) moved rfl hend

/-- No fetch fails. -/
theorem all_batches (count fetches : Nat) (hok : s.ok)
    (hgo : ∀ n code, s.failure = some (n, code) → s.fetches + s.pending.length < n)
    (hlen : rows.length ≤ pos + 1) :
    Takes (.on (.cursor s) rows pos count fetches)
      ⟨s.pending.flatMap shown, none, fetches + s.pending.length + 1⟩ := by
  -- by the batches to come; each is fetched at the end of the one before
  induction hp : s.pending generalizing s rows pos count fetches with
  | nil =>
    have fetched : s.fetch.2 = { s with
        fetches := s.fetches + 1
        current := none
        ok := false
        code := Code.endOfData
        atEnd := true } := by
      rw [CursorState.fetch_of_goes (.of_later hgo), CursorState.proceed, hp]
    have ended := Reading.position_on (s := s) count fetches hlen
    rw [fetched] at ended
    exact Takes.finished (Reading.next_finished (by simp [Reading.on]) ended)
  | cons rows' rest ih =>
    have later : ∀ n code, (s.received rows' rest).failure = some (n, code) →
        (s.received rows' rest).fetches + (s.received rows' rest).pending.length < n := by
      intro n code hf
      have := hgo n code hf
      rw [hp, List.length_cons] at this
      show s.fetches + 1 + rest.length < n
      omega
    have tail := Takes.received count fetches hok (.of_later hgo) hp hlen
      fun pos count hlen' => ih count (fetches + 1) hok later hlen' rfl
    have hcount : fetches + (rows' :: rest).length + 1 = fetches + 1 + rest.length + 1 := by
      rw [List.length_cons]
      omega
    rw [List.flatMap_cons, hcount]
    exact tail

/-- A fetch fails after `k` more batches. -/
theorem until_failure {n k : Nat} {code : Code} (count fetches : Nat) (hok : s.ok)
    (hfail : s.failure = some (n, code)) (hn : s.fetches + k = n) (hk : k ≤ s.pending.length)
    (hlen : rows.length ≤ pos + 1) :
    Takes (.on (.cursor s) rows pos count fetches)
      ⟨(s.pending.take k).flatMap shown, failing code code.name, fetches + k + 1⟩ := by
  induction k generalizing s rows pos count fetches with
  | zero =>
    have fetched := CursorState.fetch_of_fails hfail hn
    have failed := Reading.position_on (s := s) count fetches hlen
    rw [fetched] at failed
    have outcome : (Item.cursor { s with
        fetches := s.fetches + 1
        current := none
        ok := false
        code := code }).outcome = (failing code code.name).elim (.ok .endOfData) .error :=
      Item.outcome_of_failed rfl
    rw [outcome] at failed
    cases hcode : failing code code.name with
    | none =>
      rw [hcode] at failed
      exact Takes.finished (Reading.next_finished (by simp [Reading.on]) failed)
    | some e =>
      rw [hcode] at failed
      exact Takes.error (Reading.next_error (by simp [Reading.on]) failed)
  | succ k ih =>
    cases hp : s.pending with
    | nil =>
      rw [hp] at hk
      exact absurd hk (by simp)
    | cons rows' rest =>
      have goes : s.Goes := by
        intro m code' hf hm
        rw [hfail] at hf
        cases hf
        omega
      have hk' : k ≤ rest.length := by
        rw [hp, List.length_cons] at hk
        omega
      have tail := Takes.received count fetches hok goes hp hlen
        fun pos count hlen' => ih (s := s.received rows' rest) count (fetches + 1) hok hfail
          (by show s.fetches + 1 + k = n; omega) hk' hlen'
      have hcount : fetches + (k + 1) + 1 = fetches + 1 + k + 1 := by omega
      rw [List.take_succ_cons, List.flatMap_cons, hcount]
      exact tail

end Takes

/-! ## Replies -/

theorem flatMap_shown {batches : List Rows} (h : ∀ rows ∈ batches, rows ≠ []) :
    batches.flatMap shown = batches.flatten := by
  induction batches with
  | nil => rfl
  | cons rows rest ih =>
    rw [List.flatMap_cons, List.flatten_cons, shown_of_ne_nil (h rows List.mem_cons_self),
      ih fun rows hr => h rows (List.mem_cons_of_mem _ hr)]

namespace Takes

theorem pending (i : Item) : (Reading.ofItem i).phase ≠ .done := by simp [Reading.ofItem]

/-- A result that is in order but has no rows. -/
theorem no_rows {kind : ResultKind} {report : Report}
    (hkind : kind = .status ∨ kind = .report) :
    Takes (.ofItem (.result kind true Code.ok none report))
      ⟨[], some (.wrongType (.notRows kind)), 0⟩ := by
  have started : (Reading.ofItem (.result kind true Code.ok none report)).position =
      (.error (.wrongType (.notRows kind)),
        Reading.ofItem (.result kind true Code.ok none report)) := by
    rcases hkind with rfl | rfl <;> rfl
  exact Takes.error (Reading.next_error (pending _) started)

/-- A failed result. -/
theorem failed (code : Code) (details : String) :
    Takes (.ofItem (.result .status false code (some details) .zero))
      ⟨[], failing code details, 0⟩ := by
  let rd := Reading.ofItem (.result .status false code (some details) .zero)
  have started : rd.position =
      if code = Code.endOfData then (.ok false, rd) else (.error (.server code details), rd) :=
    rfl
  unfold failing
  split
  · next hcode =>
    rw [if_pos hcode] at started
    exact Takes.finished (Reading.next_finished (pending _) started)
  · next hcode =>
    rw [if_neg hcode] at started
    exact Takes.error (Reading.next_error (pending _) started)

/-- The rows of a row result. -/
theorem built (capacity : Int32) (rows : Rows) (current : Row) :
    Takes (.ofItem (.built capacity rows current)) ⟨shown rows, none, 0⟩ := by
  let item : Item := .built capacity rows current
  have started : (Reading.ofItem item).position =
      (.ok true, ⟨item, some (rows, 0), .pending, 0, 0⟩) := rfl
  have ended (pos count : Nat) (hlen : rows.length ≤ pos + 1) :
      Takes (.on item rows pos count 0) ⟨[], none, 0⟩ := by
    have refilled : (Reading.on item rows pos count 0).position =
        (Reading.on item rows pos count 0).refill := if_neg (by omega)
    exact Takes.finished (Reading.next_finished (by simp [Reading.on]) refilled)
  have course := Takes.batch (pending item) started rfl ended
  rw [Course.afterRows, List.append_nil] at course
  exact course

/-- A cursor over no batches is at its end from the start. -/
theorem no_batches (failure : Option (Nat × Code)) :
    Takes (.ofItem (.cursor (.ofBatches [] failure))) ⟨[], none, 0⟩ := by
  have ended : (Reading.ofItem (.cursor (.ofBatches [] failure))).next =
      (.finished, (Reading.ofItem (.cursor (.ofBatches [] failure))).finish) :=
    Reading.next_finished (pending _) rfl
  exact Takes.finished ended

/-- A cursor whose first batch has come with the reply. -/
theorem ofBatches {first : Rows} {rest : List Rows} {failure : Option (Nat × Code)}
    (hend : ∀ pos count, first.length ≤ pos + 1 →
      Takes (.on (.cursor (.ofBatches (first :: rest) failure)) first pos count 0) c) :
    Takes (.ofItem (.cursor (.ofBatches (first :: rest) failure)))
      (c.afterRows (shown first)) := by
  have started : (Reading.ofItem (.cursor (.ofBatches (first :: rest) failure))).position =
      (.ok true, ⟨.cursor (.ofBatches (first :: rest) failure), some (first, 0), .pending, 0,
        0⟩) := rfl
  exact Takes.batch (pending _) started rfl hend

/-- A cursor of which no fetch fails before the end. -/
theorem in_order (batches : List Rows) (failure : Option (Nat × Code))
    (hlate : ∀ n code, failure = some (n, code) → batches.length ≤ n) :
    Takes (.ofItem (.cursor (.ofBatches batches failure)))
      ⟨batches.flatMap shown, none, batches.length⟩ := by
  cases batches with
  | nil => exact no_batches failure
  | cons first rest =>
    have course := ofBatches fun pos count hlen =>
      all_batches (s := .ofBatches (first :: rest) failure) count 0 rfl
        (fun n code hf => by
          have := hlate n code hf
          show 0 + rest.length < n
          rw [List.length_cons] at this
          omega) hlen
    have hcount : 0 + rest.length + 1 = (first :: rest).length := by
      rw [List.length_cons]
      omega
    rw [List.flatMap_cons, ← hcount]
    exact course

/-- A cursor of which a fetch fails. -/
theorem in_failure {batches : List Rows} {n : Nat} (code : Code) (hn : n < batches.length) :
    Takes (.ofItem (.cursor (.ofBatches batches (some (n, code)))))
      ⟨(batches.take (n + 1)).flatMap shown, failing code code.name, n + 1⟩ := by
  cases batches with
  | nil => exact absurd hn (Nat.not_lt_zero n)
  | cons first rest =>
    have hlen' : n ≤ rest.length := Nat.le_of_lt_succ hn
    have course := ofBatches fun pos count hlen =>
      until_failure (s := .ofBatches (first :: rest) (some (n, code))) count 0 rfl rfl
        (Nat.zero_add n) hlen' hlen
    rw [Nat.zero_add] at course
    rw [List.take_succ_cons, List.flatMap_cons]
    exact course

end Takes

namespace Reply

/-- The batches that a cursor over the result of a reply gets. -/
def brought : Reply → List Rows
  | .row values => [[values]]
  | .cursor batches => batches
  | .failingCursor batches n _ => batches.take (n + 1)
  | _ => []

/-- The course of a reply if an empty batch shows as a row. -/
def shownCourse (reply : Reply) : Course :=
  { reply.course with rows := reply.brought.flatMap shown }

theorem course_rows (reply : Reply) : reply.course.rows = reply.brought.flatten := by
  cases reply with
  | failingCursor batches n code =>
    unfold course brought
    dsimp only
    split
    · rfl
    · next hn => rw [List.take_of_length_le (Nat.le_succ_of_le (Nat.le_of_not_lt hn))]
  | _ => rfl

theorem brought_full {reply : Reply} (hfull : ∀ rows ∈ reply.batches, rows ≠ []) :
    ∀ rows ∈ reply.brought, rows ≠ [] := by
  cases reply with
  | row values => simp [brought]
  | cursor batches => exact hfull
  | failingCursor batches n code => exact fun rows hr => hfull rows (List.mem_of_mem_take hr)
  | status | report | error | sendFailure => simp [brought]

theorem shownCourse_eq {reply : Reply} (hfull : ∀ rows ∈ reply.batches, rows ≠ []) :
    reply.shownCourse = reply.course := by
  rw [shownCourse, flatMap_shown (brought_full hfull), ← course_rows]

/-- **A reply takes its course**, and an empty batch shows as a row on it. -/
theorem takes_shown {reply : Reply} {item : Item} (hitem : reply.item = .ok item) :
    Takes (.ofItem item) reply.shownCourse := by
  cases reply with
  | status =>
    cases hitem
    exact Takes.no_rows (Or.inl rfl)
  | report r =>
    cases hitem
    exact Takes.no_rows (Or.inr rfl)
  | error code details =>
    cases hitem
    exact Takes.failed code details
  | row values =>
    cases hitem
    exact Takes.built 0 [values] []
  | cursor batches =>
    cases hitem
    exact Takes.in_order batches none (by simp)
  | failingCursor batches n code =>
    cases hitem
    unfold shownCourse course brought
    dsimp only
    split
    · next hn => exact Takes.in_failure code hn
    · next hn =>
      have hle : batches.length ≤ n := Nat.le_of_not_lt hn
      rw [List.take_of_length_le (Nat.le_succ_of_le hle)]
      refine Takes.in_order batches (some (n, code)) fun m code' hf => ?_
      cases hf
      exact hle
  | sendFailure code => exact absurd hitem (by simp [Reply.item])

/-- If none of its batches is empty, that is the course of their rows. -/
theorem takes {reply : Reply} {item : Item} (hitem : reply.item = .ok item)
    (hfull : ∀ rows ∈ reply.batches, rows ≠ []) : Takes (.ofItem item) reply.course :=
  shownCourse_eq hfull ▸ takes_shown hitem

end Reply

/-- **A new cursor follows the course** of the item under the handle of its result: in its
yields, and when they are over, in the fetches that it took. -/
theorem Stands.follows {w : World State} {r : QueryResult} {i : Item} {c : Course}
    (hs : Stands w r i) (ht : Talks w r) (takes : Takes (.ofItem i) c) (n : Nat) :
    let out := Cursor.nexts library n (.ofResult r) w
    out.1.1 = c.yields n ∧ (c.rows.length < n →
      out.1.2.isDone ∧ out.2.lib.fetches = w.lib.fetches + c.fetches) := by
  intro out
  have shows : Shows w (.ofResult r) (.ofItem i) := ⟨hs, trivial, rfl, rfl⟩
  obtain ⟨yields, became⟩ := shows.nexts n ht
  obtain ⟨course, ended⟩ := takes.nexts n
  refine ⟨yields.trans course, fun hlt => ?_⟩
  obtain ⟨hdone, hfetches⟩ := ended hlt
  refine ⟨?_, ?_⟩
  · rw [Cursor.isDone, became.shows.phase, hdone]
    rfl
  · rw [← hfetches]
    exact became.fetches

end Server

end Querent
