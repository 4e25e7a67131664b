import Querent.Proofs.DbApi.Execution
import Querent.Proofs.Ownership.DbApi
import Querent.Proofs.Server.Execution
import Querent.Proofs.Server.Iteration

/-!
# Rows in portions

A cursor of the DB-API fetches the rows of a result one by one, so many at a time, or
all that are left. Whatever the portions are, they are cut from the course of the
result: each call takes the next rows of it, and the call for which they do not
suffice comes to its end. Two calls panic: one that reaches a row that cannot be
counted any more, and one that asks for more rows than there can be room for.
-/

namespace Querent.Server

open DbApi (Failure)
open DbApi.Cursor (maxReserved)

/-! ## Portions of a course -/

/-- What is left of a course, and how many rows of it can be counted. -/
structure Remainder where
  course : Course
  room : Nat

namespace Remainder

/-- What is left after `n` rows. -/
def past (n : Nat) (r : Remainder) : Remainder :=
  ⟨{ r.course with rows := r.course.rows.drop n }, r.room - n⟩

/-- What is left at the end of the course: nothing but the room. -/
def ended (r : Remainder) : Remainder :=
  ⟨⟨[], none, r.course.fetches⟩, r.room - r.course.rows.length⟩

/-- What a call for `n` rows takes of a course, and what it leaves. A call that reaches
the error of the course loses the rows before it, and so does one that reaches a row
that cannot be counted, with that row. -/
def serve (n : Nat) (r : Remainder) : Except Failure (List Row) × Remainder :=
  if n ≤ r.course.rows.length ∧ n ≤ r.room then (.ok (r.course.rows.take n), r.past n)
  else if r.course.rows.length ≤ r.room then
    (r.course.error.elim (.ok r.course.rows) fun e => .error (.error (.failure e)), r.ended)
  else (.error (.panic .overflow), r.past (r.room + 1))

/-- There are no rows to be had: none is left, or none can be counted. -/
def Spent (r : Remainder) : Prop := r.course.rows = [] ∨ r.room = 0

section Serving

variable (n : Nat) (row : Row) (rows : List Row) (e : Error) (error : Option Error) (k room : Nat)

theorem serve_row : serve (n + 1) ⟨⟨row :: rows, error, k⟩, room + 1⟩ =
    ((serve n ⟨⟨rows, error, k⟩, room⟩).1.map (row :: ·),
      (serve n ⟨⟨rows, error, k⟩, room⟩).2) := by
  simp only [serve, past, ended, List.length_cons, Nat.add_le_add_iff_right,
    Nat.add_sub_add_right, List.drop_succ_cons]
  split
  · rfl
  · split
    · cases error <;> rfl
    · rfl

theorem serve_uncounted : serve (n + 1) ⟨⟨row :: rows, error, k⟩, 0⟩ =
    (.error (.panic .overflow), ⟨⟨rows, error, k⟩, 0⟩) :=
  (if_neg (by simp)).trans (if_neg (by simp))

theorem serve_error : serve (n + 1) ⟨⟨[], some e, k⟩, room⟩ =
    (.error (.error (.failure e)), ⟨⟨[], none, k⟩, room⟩) :=
  (if_neg (by simp)).trans (if_pos (Nat.zero_le room))

theorem serve_end : serve n ⟨⟨[], none, k⟩, room⟩ = (.ok [], ⟨⟨[], none, k⟩, room⟩) := by
  cases n with
  | zero => exact if_pos ⟨Nat.zero_le _, Nat.zero_le _⟩
  | succ n => exact (if_neg (by simp)).trans (if_pos (Nat.zero_le room))

theorem serve_zero (r : Remainder) : r.serve 0 = (.ok [], r) :=
  if_pos ⟨Nat.zero_le _, Nat.zero_le _⟩

end Serving

/-- What a call takes that asks for so many rows, or for all that remain. There is no
room for more than so many at once. -/
def serve? (wanted : Option Nat) (r : Remainder) : Except Failure (List Row) × Remainder :=
  match wanted with
  | none => r.serve (r.course.rows.length + 1)
  | some n => if n ≤ maxReserved then r.serve n else (.error (.panic .capacity), r)

theorem serve?_one (r : Remainder) : r.serve? (some 1) = r.serve 1 := by
  rw [serve?, if_pos (by decide)]

/-- The four ways in which a call for so many rows ends. -/
inductive Served (wanted : Option Nat) (r : Remainder) :
    Except Failure (List Row) × Remainder → Prop
  | taken {n} : wanted = some n → n ≤ maxReserved → n ≤ r.course.rows.length → n ≤ r.room →
    Served wanted r (.ok (r.course.rows.take n), r.past n)
  | through : (∀ n, wanted = some n → n ≤ maxReserved ∧ r.course.rows.length < n) →
    r.course.rows.length ≤ r.room →
    Served wanted r
      (r.course.error.elim (.ok r.course.rows) fun e => .error (.error (.failure e)), r.ended)
  | uncounted : (∀ n, wanted = some n → n ≤ maxReserved ∧ r.room < n) →
    r.room < r.course.rows.length →
    Served wanted r (.error (.panic .overflow), r.past (r.room + 1))
  | oversized {n} : wanted = some n → maxReserved < n →
    Served wanted r (.error (.panic .capacity), r)

theorem serve?_served (wanted : Option Nat) (r : Remainder) :
    Served wanted r (r.serve? wanted) := by
  have counted {n : Nat} (beyond : ¬(n ≤ r.course.rows.length ∧ n ≤ r.room))
      (small : ∀ m, wanted = some m → m ≤ maxReserved ∧ m = n) : Served wanted r (r.serve n) := by
    rw [serve, if_neg beyond]
    split
    · next fits =>
      refine .through (fun m hm => ?_) fits
      obtain ⟨hle, rfl⟩ := small m hm
      exact ⟨hle, by omega⟩
    · next exceeds =>
      refine .uncounted (fun m hm => ?_) (Nat.lt_of_not_le exceeds)
      obtain ⟨hle, rfl⟩ := small m hm
      exact ⟨hle, by omega⟩
  cases wanted with
  | none => exact counted (by omega) nofun
  | some n =>
    rw [serve?]
    split
    · next small =>
      by_cases within : n ≤ r.course.rows.length ∧ n ≤ r.room
      · rw [serve, if_pos within]
        exact .taken rfl small within.1 within.2
      · refine counted within ?_
        rintro m ⟨⟩
        exact ⟨small, rfl⟩
    · next large => exact .oversized rfl (Nat.lt_of_not_le large)

/-- No call brings rows back. -/
theorem serve?_length_le (wanted : Option Nat) (r : Remainder) :
    (r.serve? wanted).2.course.rows.length ≤ r.course.rows.length := by
  rcases h : r.serve? wanted with ⟨answer, left⟩
  cases h ▸ serve?_served wanted r with
  | taken | uncounted => exact (List.length_drop ..).le.trans (Nat.sub_le _ _)
  | through => exact Nat.zero_le _
  | oversized => exact Nat.le_refl _

end Remainder

/-- The first step of a course. -/
theorem Takes.next_cases {rd : Reading} {c : Course} (h : Takes rd c) :
    (∃ row rd' c', c = c'.after row ∧ rd.next = (.row row, rd') ∧ Takes rd' c') ∨
    (∃ e rd', c = ⟨[], some e, rd'.fetches⟩ ∧ rd.next = (.error e, rd')) ∨
    (∃ rd', c = ⟨[], none, rd'.fetches⟩ ∧ rd.next = (.finished, rd')) := by
  cases h with
  | row hnext htail => exact Or.inl ⟨_, _, _, rfl, hnext, htail⟩
  | error hnext => exact Or.inr (Or.inl ⟨_, _, rfl, hnext⟩)
  | finished hnext => exact Or.inr (Or.inr ⟨_, rfl, hnext⟩)

/-- A reading that is through delivers nothing more. -/
theorem Takes.of_done {rd : Reading} (h : rd.phase = .done) : Takes rd ⟨[], none, rd.fetches⟩ :=
  Takes.finished (by rw [Reading.next, if_pos h])

/-! ## Replies with rows -/

namespace Reply

/-- The reply returns rows, and no batch of it is empty. -/
def Returns : Reply → Prop
  | .row _ => True
  | .cursor batches | .failingCursor batches _ _ => ∀ rows ∈ batches, rows ≠ []
  | _ => False

instance : DecidablePred Returns
  | .row _ => .isTrue trivial
  | .cursor batches | .failingCursor batches _ _ =>
    inferInstanceAs (Decidable (∀ rows ∈ batches, rows ≠ []))
  | .status | .report _ | .error .. | .sendFailure _ => .isFalse id

variable {reply : Reply}

theorem Returns.full (h : reply.Returns) : ∀ rows ∈ reply.batches, rows ≠ [] := by
  cases reply with
  | cursor | failingCursor => exact h
  | _ => simp [batches]

/-- The reply returns rows, whatever its batches are. -/
def hasRows : Reply → Bool
  | .row _ | .cursor _ | .failingCursor .. => true
  | _ => false

/-- What comes with a reply of rows are rows, or the end at once. -/
theorem item_cases {i : Item} (h : reply.hasRows = true) (hitem : reply.item = .ok i) :
    (i.isOk = true ∧ (i.sort = .cursor ∨ i.sort = .row)) ∨
    (i.isOk = false ∧ i.code = Code.endOfData ∧
      reply.brought = [] ∧ reply.course.error = none) := by
  cases reply with
  | row =>
    cases hitem
    exact Or.inl ⟨rfl, Or.inr rfl⟩
  | cursor batches =>
    cases hitem
    cases batches with
    | nil => exact Or.inr ⟨rfl, rfl, rfl, rfl⟩
    | cons => exact Or.inl ⟨rfl, Or.inl rfl⟩
  | failingCursor batches n code =>
    cases hitem
    cases batches with
    | nil => exact Or.inr ⟨rfl, rfl, rfl, rfl⟩
    | cons => exact Or.inl ⟨rfl, Or.inl rfl⟩
  | status | error | report | sendFailure => cases h

theorem Returns.hasRows (h : reply.Returns) : reply.hasRows = true := by
  cases reply with
  | row | cursor | failingCursor => rfl
  | status | error | report | sendFailure => exact h.elim

theorem Returns.item_cases {i : Item} (h : reply.Returns) (hitem : reply.item = .ok i) :
    (i.isOk = true ∧ (i.sort = .cursor ∨ i.sort = .row)) ∨
    (i.isOk = false ∧ i.code = Code.endOfData ∧
      reply.course.rows = [] ∧ reply.course.error = none) := by
  rcases Reply.item_cases h.hasRows hitem with hrows | ⟨hok, hcode, hnone, herror⟩
  · exact Or.inl hrows
  · exact Or.inr ⟨hok, hcode, by rw [course_rows, hnone]; rfl, herror⟩

/-- An error in the course of such a reply is one of the server. -/
theorem Returns.course_error {e : Error} (h : reply.Returns) (he : reply.course.error = some e) :
    ∃ code details, e = .server code details := by
  have failed {code : Code} {details : String} (hf : failing code details = some e) :
      ∃ code details, e = .server code details := by
    unfold failing at hf
    split at hf
    · cases hf
    · exact ⟨code, details, (Option.some.inj hf).symm⟩
  cases reply with
  | row | cursor => cases he
  | failingCursor batches n code =>
    unfold course at he
    dsimp only at he
    split at he
    · exact failed he
    · cases he
  | status | error | report | sendFailure => exact h.elim

end Reply

end Querent.Server

namespace Querent.DbApi

open Server (State Course Remainder Shows Takes Talks library)

/-- The format of a row is another form of the same values. -/
theorem ShapedRow.values_ofRow (format : RowFormat) (description : List String) (row : Row) :
    (ofRow format description row).values = row := by
  cases format with
  | dict => exact List.ext_getElem (by simp [ofRow, values]) (by simp [ofRow, values])
  | tuple | list => rfl

namespace Cursor

/-! ## Fetching -/

/-- The cursor has executed, and its rows, which come over its connection, are to take
the course `course`. Without rows at hand there is nothing to come. -/
structure Serves (w : World State) (c : Cursor) (course : Course) : Prop where
  executed : c.executed = true
  session : ∀ rows, c.rows = some rows → rows.result.session = some c.connection.session
  reads : ∀ rows, c.rows = some rows → ∃ rd, Shows w rows rd ∧ Takes rd course
  nothing : c.rows = none → course.rows = [] ∧ course.error = none

/-- The cursor has become one that is to take what remains from here on. -/
structure GoesOn (w : World State) (c : Cursor) (w' : World State) (c' : Cursor)
    (r : Remainder) : Prop where
  serves : Serves w' c' r.course
  room : c'.room = r.room
  connection : c'.connection = c.connection
  sessions : w'.sessions = w.sessions

/-- The connection of the cursor is open. -/
def Open (w : World State) (c : Cursor) : Prop := (w.line c.connection.session).isSome

variable {w w' w'' : World State} {c c' c'' : Cursor} {course course' : Course}
  {r r' : Remainder}

theorem GoesOn.refl (h : Serves w c course) : GoesOn w c w c ⟨course, c.room⟩ := ⟨h, rfl, rfl, rfl⟩

theorem GoesOn.trans (h : GoesOn w c w' c' r) (h' : GoesOn w' c' w'' c'' r') :
    GoesOn w c w'' c'' r' :=
  ⟨h'.serves, h'.room, h'.connection.trans h.connection, h'.sessions.trans h.sessions⟩

theorem GoesOn.isOpen (h : GoesOn w c w' c' r) (ht : Open w c) : Open w' c' := by
  rw [Open, World.line, h.sessions, h.connection]
  exact ht

theorem Serves.talks {rows : Querent.Cursor} (h : Serves w c course) (ht : Open w c)
    (hrows : c.rows = some rows) : Talks w rows.result := by
  intro id hid
  rw [h.session rows hrows] at hid
  exact Option.some.inj hid ▸ ht

namespace Serves

variable {rows rows' : Querent.Cursor} {row : Row} {left : List Row} {e : Querent.Error}
  {error : Option Querent.Error} {k : Nat}

/-- Rows are at hand while there is something to come. -/
theorem atHand (h : Serves w c course) (hsome : course.rows ≠ [] ∨ course.error ≠ none) :
    ∃ rows rd, c.rows = some rows ∧ Shows w rows rd ∧ Takes rd course := by
  cases hrows : c.rows with
  | none =>
    obtain ⟨hnone, herror⟩ := h.nothing hrows
    exact (hsome.elim (· hnone) (· herror)).elim
  | some rows =>
    obtain ⟨rd, shows, takes⟩ := h.reads rows hrows
    exact ⟨rows, rd, rfl, shows, takes⟩

/-- What a fetch makes of the rows at hand. -/
theorem goesOn {rd rd' : Server.Reading} (h : Serves w c course) (hrows : c.rows = some rows)
    (y : Yield) (became : Server.Becomes w rows rd w' rows' rd') (tail : Takes rd' course') :
    GoesOn w c w' (c.afterYield y rows') ⟨course', (c.afterYield y rows').room⟩ where
  serves := ⟨h.executed,
    fun _ heq => Option.some.inj heq ▸ became.same.2.trans (h.session rows hrows),
    fun _ heq => Option.some.inj heq ▸ ⟨rd', became.shows, tail⟩, fun hnone => by cases hnone⟩
  room := rfl
  connection := rfl
  sessions := became.sessions

/-- There is a row: it is fetched if it can be counted, and lost otherwise. -/
theorem fetchOne_row (h : Serves w c ⟨row :: left, error, k⟩) (ht : Open w c) :
    ∃ c' w', GoesOn w c w' c' ⟨⟨left, error, k⟩, c.room - 1⟩ ∧
      (0 < c.room → ∃ shaped, c.fetchOne library w = ((.ok (some shaped), c'), w') ∧
        shaped.values = row) ∧
      (c.room = 0 → c.fetchOne library w = ((.error (.panic .overflow), c'), w')) := by
  obtain ⟨rows, rd, hrows, shows, takes⟩ := h.atHand (Or.inl (by simp))
  obtain ⟨yields, became⟩ := shows.next (h.talks ht hrows)
  have run := fetchOne_eq (L := library) (w := w) h.executed hrows
  rcases takes.next_cases with ⟨row', rd', course', heq, hnext, tail⟩ | ⟨_, _, heq, _⟩ | ⟨_, heq, _⟩
  · cases heq
    rw [hnext] at yields became
    have goes := h.goesOn hrows (rows.next library w).1.1 became tail
    rw [yields] at run goes
    rw [room_afterYield_row] at goes
    refine ⟨_, _, goes, fun counted => ?_, fun full => ?_⟩
    · rw [fetched_row counted] at run
      exact ⟨_, run, ShapedRow.values_ofRow ..⟩
    · rw [fetched_row_uncounted full] at run
      exact run
  · cases heq
  · cases heq

theorem fetchOne_error (h : Serves w c ⟨[], some e, k⟩) (ht : Open w c) :
    ∃ c' w', c.fetchOne library w = ((.error (.error (.failure e)), c'), w') ∧
      GoesOn w c w' c' ⟨⟨[], none, k⟩, c.room⟩ := by
  obtain ⟨rows, rd, hrows, shows, takes⟩ := h.atHand (Or.inr (by simp))
  obtain ⟨yields, became⟩ := shows.next (h.talks ht hrows)
  have run := fetchOne_eq (L := library) (w := w) h.executed hrows
  rcases takes.next_cases with ⟨_, _, _, heq, _⟩ | ⟨e', rd', heq, hnext⟩ | ⟨_, heq, _⟩
  · cases heq
  · cases heq
    rw [hnext] at yields became
    have through := Takes.of_done (Server.Reading.next_done hnext (by simp))
    have goes := h.goesOn hrows (rows.next library w).1.1 became through
    rw [yields] at run goes
    rw [room_afterYield (by simp)] at goes
    exact ⟨_, _, run, goes⟩
  · cases heq

theorem fetchOne_end (h : Serves w c ⟨[], none, k⟩) (ht : Open w c) :
    ∃ c' w', c.fetchOne library w = ((.ok none, c'), w') ∧
      GoesOn w c w' c' ⟨⟨[], none, k⟩, c.room⟩ := by
  cases hrows : c.rows with
  | none =>
    have run : c.fetchOne library w = ((.ok none, c), w) := by
      unfold fetchOne
      rw [h.executed, hrows]
      rfl
    exact ⟨c, w, run, .refl h⟩
  | some rows =>
    obtain ⟨rd, shows, takes⟩ := h.reads rows hrows
    obtain ⟨yields, became⟩ := shows.next (h.talks ht hrows)
    have run := fetchOne_eq (L := library) (w := w) h.executed hrows
    rcases takes.next_cases with ⟨_, _, _, heq, _⟩ | ⟨_, _, heq, _⟩ | ⟨rd', heq, hnext⟩
    · cases heq
    · cases heq
    · cases heq
      rw [hnext] at yields became
      have through := Takes.of_done (Server.Reading.next_done hnext (by simp))
      have goes := h.goesOn hrows (rows.next library w).1.1 became through
      rw [yields] at run goes
      rw [room_afterYield (by simp)] at goes
      exact ⟨_, _, run, goes⟩

/-- A fetch of one row gives the first one of the course, or it stops every call for rows. -/
theorem fetchOne_cases (h : Serves w c course) (ht : Open w c) :
    (∃ shaped c' w' left, c.fetchOne library w = ((.ok (some shaped), c'), w') ∧
      GoesOn w c w' c' left ∧
      (⟨course, c.room⟩ : Remainder) = ⟨left.course.after shaped.values, left.room + 1⟩) ∨
    (∃ stop c' w' left, c.fetchOne library w = ((stop, c'), w') ∧ stop.toOption.join = none ∧
      GoesOn w c w' c' left ∧
      ∀ n, (⟨course, c.room⟩ : Remainder).serve (n + 1) = (stop.map fun _ => [], left)) := by
  obtain ⟨_ | ⟨row, left⟩, error, k⟩ := course
  · right
    cases error with
    | none =>
      obtain ⟨c', w', run, goes⟩ := h.fetchOne_end ht
      exact ⟨_, c', w', _, run, rfl, goes, fun n => Remainder.serve_end ..⟩
    | some e =>
      obtain ⟨c', w', run, goes⟩ := h.fetchOne_error ht
      exact ⟨_, c', w', _, run, rfl, goes, fun n => Remainder.serve_error ..⟩
  · obtain ⟨c', w', goes, counted, lost⟩ := h.fetchOne_row ht
    rcases hroom : c.room with _ | room
    · right
      rw [hroom] at goes
      exact ⟨_, c', w', _, lost hroom, rfl, goes, fun n => Remainder.serve_uncounted ..⟩
    · left
      obtain ⟨shaped, run, rfl⟩ := counted (by omega)
      rw [hroom] at goes
      exact ⟨shaped, c', w', _, run, goes, rfl⟩

/-- A call for one row. -/
theorem fetchOne (h : Serves w c course) (ht : Open w c) :
    let out := c.fetchOne library w
    let served := (⟨course, c.room⟩ : Remainder).serve 1
    out.1.1.map (fun row => row.toList.map ShapedRow.values) = served.1 ∧
      GoesOn w c out.2 out.1.2 served.2 := by
  intro out served
  obtain ⟨shaped, c', w', left, run, goes, all⟩ | ⟨stop, c', w', left, run, stops, goes, all⟩ :=
    h.fetchOne_cases ht
  · have hserved : served = (.ok [shaped.values], left) := by
      rw [show served = _ from congrArg (Remainder.serve 1) all]
      exact (Remainder.serve_row ..).trans (by rw [Remainder.serve_zero]; rfl)
    rw [show out = _ from run, hserved]
    exact ⟨rfl, goes⟩
  · rw [show out = _ from run, show served = _ from all 0]
    refine ⟨?_, goes⟩
    rcases stop with e | (_ | row)
    · rfl
    · rfl
    · cases stops

/-- **A call for `n` rows** gives what the course serves, and leaves the rest of it. -/
theorem fetchUpTo (n : Nat) (h : Serves w c course) (ht : Open w c) :
    let out := c.fetchUpTo library n w
    let served := (⟨course, c.room⟩ : Remainder).serve n
    out.1.1.map (List.map ShapedRow.values) = served.1 ∧ GoesOn w c out.2 out.1.2 served.2 := by
  induction n generalizing w c course with
  | zero =>
    intro out served
    rw [show served = _ from Remainder.serve_zero _]
    exact ⟨rfl, .refl h⟩
  | succ n ih =>
    intro out served
    obtain ⟨shaped, c', w', left, run, goes, all⟩ | ⟨stop, c', w', left, run, stops, goes, all⟩ :=
      h.fetchOne_cases ht
    · obtain ⟨told, goes'⟩ := ih goes.serves (goes.isOpen ht)
      rw [goes.room] at told goes'
      have hserved : served = ((left.serve n).1.map (shaped.values :: ·), (left.serve n).2) :=
        (congrArg (Remainder.serve (n + 1)) all).trans (Remainder.serve_row ..)
      rw [show out = _ from fetchUpTo_of_row n run, hserved]
      refine ⟨?_, goes.trans goes'⟩
      -- the row that was fetched stands before those of the rest
      rw [← told]
      cases (c'.fetchUpTo library n w').1.1 <;> rfl
    · rw [show out = _ from fetchUpTo_of_stop n run stops, show served = _ from all n]
      refine ⟨?_, goes⟩
      cases stop <;> rfl

/-- A call for many rows, more than there can be room for included. -/
theorem fetchMany (size : Option Nat) (h : Serves w c course) (ht : Open w c) :
    let out := c.fetchMany library size w
    let served := (⟨course, c.room⟩ : Remainder).serve? (some (size.getD c.arraySize))
    out.1.1.map (List.map ShapedRow.values) = served.1 ∧ GoesOn w c out.2 out.1.2 served.2 := by
  unfold Cursor.fetchMany Remainder.serve?
  dsimp only
  split
  · exact h.fetchUpTo _ ht
  · exact ⟨rfl, .refl h⟩

/-- **A call for all rows** comes to the end of the course. -/
theorem fetchAll (fuel : Nat) (h : Serves w c course) (ht : Open w c)
    (hfuel : course.rows.length < fuel) :
    let out := c.fetchAll library fuel w
    let served := (⟨course, c.room⟩ : Remainder).serve (course.rows.length + 1)
    out.1.1.map (Except.map (List.map ShapedRow.values)) = some served.1 ∧
      GoesOn w c out.2 out.1.2 served.2 := by
  induction fuel generalizing w c course with
  | zero => exact absurd hfuel (Nat.not_lt_zero _)
  | succ fuel ih =>
    intro out served
    obtain ⟨shaped, c', w', left, run, goes, all⟩ | ⟨stop, c', w', left, run, stops, goes, all⟩ :=
      h.fetchOne_cases ht
    · have length : course.rows.length = left.course.rows.length + 1 := by
        rw [congrArg (fun r => r.course.rows.length) all]
        rfl
      obtain ⟨told, goes'⟩ := ih goes.serves (goes.isOpen ht) (by omega)
      rw [goes.room, ← length] at told goes'
      have hserved : served = ((left.serve course.rows.length).1.map (shaped.values :: ·),
          (left.serve course.rows.length).2) :=
        (congrArg (Remainder.serve (course.rows.length + 1)) all).trans (Remainder.serve_row ..)
      rw [show out = _ from fetchAll_of_row fuel run, hserved]
      refine ⟨?_, goes.trans goes'⟩
      obtain ⟨more, hmore, htold⟩ := Option.map_eq_some_iff.mp told
      rw [hmore, ← htold]
      cases more <;> rfl
    · rw [show out = _ from fetchAll_of_stop fuel run stops, show served = _ from all _]
      refine ⟨?_, goes⟩
      cases stop <;> rfl

end Serves

/-! ## Executing -/

section Executing

variable {H : Server.Holdings} {i : Server.Item} {res : QueryResult} {sql : String}

/-- A result with rows gives them. -/
theorem gave_rows (hs : Server.Stands w res i) (hok : i.isOk = true)
    (hsort : i.sort = .cursor ∨ i.sort = .row) (columns : List String) :
    Gave library columns res w (.rows columns (res.learned i)) w := by
  have isOk := hs.isOk_eq
  rw [hok] at isOk
  refine .rows isOk hs.kind_eq ?_
  rcases hsort with hsort | hsort <;> rw [hsort] <;> rfl

/-- A result that is at its end gives no rows. -/
theorem gave_ended (hs : Server.Stands w res i) (hok : i.isOk = false)
    (hcode : i.code = Code.endOfData) (columns : List String) :
    Gave library columns res w (.ended columns) (res.drop library w).2 := by
  have isOk := hs.isOk_eq
  have code := hs.code_eq
  rw [hok] at isOk
  rw [hcode] at code
  exact .ended isOk code rfl

/-- A statement that was sent in order is answered by its reply. -/
theorem send_serves (fuel : Nat) (hrows : c.rows = none) (hcount : c.counted = 0)
    (ha : Server.Accounts w (c.holdings + H)) (hret : (w.lib.replyTo sql).Returns)
    (hdone : (c.send library fuel sql w).1.1 = some (.ok ())) :
    Serves (c.send library fuel sql w).2 (c.send library fuel sql w).1.2
        (w.lib.replyTo sql).course ∧
      (c.send library fuel sql w).1.2.counted = 0 := by
  rw [holdings_of_none hrows] at ha
  have described := keeps_describe fuel c.connection sql w H ha
  have session := c.connection.execute_session library sql
  revert hdone described
  rw [send, bind_apply]
  rcases describe library fuel c.connection sql w with ⟨_ | (e | columns), w₁⟩
  · exact fun hdone => by cases hdone
  · exact fun hdone => by cases hdone
  rintro hdone ⟨ha₁, spares⟩
  revert hdone
  have reply : w₁.lib.replyTo sql = w.lib.replyTo sql := by
    rw [State.replyTo, State.replyTo, spares.script]
  dsimp only
  rw [bind_apply]
  rcases hx : c.connection.execute library sql w₁ with ⟨e | res, w₂⟩
  · exact fun hdone => by cases hdone
  obtain ⟨i, hitem, obtained⟩ := (Server.Executor.connection c.connection).obtained ha₁ hx
  rw [reply] at hitem
  have own : res.session = some c.connection.session := by
    have := session w₁
    rw [hx] at this
    exact this res rfl
  dsimp only
  rw [bind_apply]
  rcases hret.item_cases hitem with ⟨hok, hsort⟩ | ⟨hok, hcode, hnone, herror⟩
  · rw [accept_of_gave (gave_rows obtained.stands hok hsort columns)]
    intro _
    refine ⟨⟨rfl, ?_, ?_, fun h => by cases h⟩, hcount⟩
    · rintro _ ⟨⟩
      exact own
    · rintro _ ⟨⟩
      exact ⟨.ofItem i, ⟨obtained.stands.learned, trivial, rfl, rfl⟩,
        Server.Reply.takes hitem hret.full⟩
  · rw [accept_of_gave (gave_ended obtained.stands hok hcode columns)]
    intro _
    refine ⟨⟨rfl, ?_, ?_, fun _ => ⟨hnone, herror⟩⟩, rfl⟩
    all_goals
      intro rows hsome
      have hsome : c.rows = some rows := hsome
      rw [hrows] at hsome
      cases hsome

/-- **An execution that succeeded** is answered by the reply to its statement. -/
theorem execute_serves (fuel : Nat) {op : String} {params : List Value}
    (ha : Server.Accounts w (c.holdings + H)) (hsql : statementFor op params = .ok sql)
    (hret : (w.lib.replyTo sql).Returns)
    (hdone : (c.execute library fuel op params w).1.1 = some (.ok ())) :
    Serves (c.execute library fuel op params w).2 (c.execute library fuel op params w).1.2
        (w.lib.replyTo sql).course ∧
      (c.execute library fuel op params w).1.2.counted = 0 := by
  obtain ⟨hend, spares⟩ := c.keeps_close w H ha
  have closed : (c.close library w).1 = c.reset := c.close_gives w
  rw [closed] at hend
  have run : c.execute library fuel op params w =
      c.reset.send library fuel sql (c.close library w).2 := by
    rw [execute, bind_apply, closed, hsql]
  have reply : (c.close library w).2.lib.replyTo sql = w.lib.replyTo sql := by
    rw [State.replyTo, State.replyTo, spares.script]
  rw [run] at hdone ⊢
  rw [← reply] at hret ⊢
  exact send_serves fuel rfl rfl hend hret hdone

end Executing

end Cursor

/-- A connection executes with a cursor of its own. -/
theorem Connection.execute_serves {w w' : World State} {H : Server.Holdings} {c : Connection}
    {cur : Cursor} {sql op : String} {params : List Value} {format : RowFormat} (fuel : Nat)
    (ha : Server.Accounts w (c.holdings + H))
    (hsql : Cursor.statementFor op params = .ok sql) (hret : (w.lib.replyTo sql).Returns)
    (run : c.execute library fuel op params format w = (some (.ok cur), w')) :
    Cursor.Serves w' cur (w.lib.replyTo sql).course ∧ cur.counted = 0 := by
  have made := c.keeps_cursor w H ha
  rw [execute, bind_apply] at run
  revert run made
  rcases c.cursor w with ⟨e | new, w₁⟩
  · exact fun run => by cases run
  rintro run ⟨ha₁, spares⟩
  have reply : w₁.lib.replyTo sql = w.lib.replyTo sql := by
    rw [State.replyTo, State.replyTo, spares.script]
  have ha₁ : Server.Accounts w₁ (Cursor.holdings { new with format } + (c.holdings + H)) :=
    add_assoc (Cursor.holdings new) _ _ ▸ ha₁
  have serves := Cursor.execute_serves fuel ha₁ hsql (reply ▸ hret)
  dsimp only at run
  rw [bind_apply] at run
  revert run serves
  rcases Cursor.execute library fuel { new with format } op params w₁ with
    ⟨⟨_ | (e | _), cur'⟩, w₂⟩
  · exact fun run => by cases run
  · exact fun run => by cases run
  intro run serves
  cases run
  rw [← reply]
  exact serves rfl

end Querent.DbApi
