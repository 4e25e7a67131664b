import Querent.Proofs.Result.Iteration
import Querent.Proofs.Server.Answers

/-!
# Reading on the server

A cursor on the server without the server: the item of its result, the rows of its
batch and where it is in them. What the cursor yields is what such a reading
yields, and its world changes with the reading, in nothing else that the cursor
can see.
-/

namespace Querent.Server

/-! ## Readings -/

structure Reading where
  item : Item
  batch : Option (Rows × Nat)
  phase : Phase
  rows : Nat
  /-- the fetches asked for -/
  fetches : Nat

/-- How many fetches a request on an item makes: none if it is no cursor. -/
def Item.requests : Item → Nat
  | .cursor _ => 1
  | _ => 0

namespace Reading

def ofItem (i : Item) : Reading := ⟨i, none, .pending, 0, 0⟩

variable (rd : Reading)

def take : Except Error Bool × Reading :=
  match rd.item.copy with
  | .ok rows => (.ok true, { rd with batch := some (rows, 0) })
  | .error e => (.error e, rd)

def afterRequest : Except Error Fetched → Except Error Bool × Reading
  | .ok .batch => rd.take
  | .ok .endOfData => (.ok false, rd)
  | .error e => (.error e, rd)

def start : Except Error Bool × Reading :=
  if rd.item.isOk then
    if rd.item.sort.hasRows then rd.afterRequest rd.item.opened
    else (.error (.wrongType (.notRows rd.item.sort)), rd)
  else if rd.item.code = Code.endOfData then (.ok false, rd)
  else (.error rd.item.error, rd)

/-- Goes to the first row of the next batch. -/
def refill : Except Error Bool × Reading :=
  if rd.item.sort = .row then (.ok false, { rd with batch := none })
  else Reading.afterRequest { rd with
    item := rd.item.afterFetch
    batch := none
    fetches := rd.fetches + rd.item.requests } rd.item.fetched

def advance : Except Error Bool × Reading :=
  match rd.batch with
  | some (rows, pos) =>
    if pos + 1 < rows.length then (.ok true, { rd with batch := some (rows, pos + 1) })
    else rd.refill
  | none => rd.refill

def finish : Reading := { rd with batch := none, phase := .done }

def position : Except Error Bool × Reading :=
  match rd.phase with
  | .pending => rd.start
  | .reading => rd.advance
  | .done => (.ok false, rd)

def next : Yield × Reading :=
  if rd.phase = .done then (.finished, rd)
  else match rd.position with
    | (.error e, rd) => (.error e, rd.finish)
    | (.ok false, rd) => (.finished, rd.finish)
    | (.ok true, rd) =>
      match rd.batch with
      | some (rows, pos) =>
        (.row (rowAt rows pos), { rd with phase := .reading, rows := rd.rows + 1 })
      | none => (.finished, rd.finish)

def nexts : Nat → Reading → List Yield × Reading
  | 0, rd => ([], rd)
  | n + 1, rd => (rd.next.1 :: (nexts n rd.next.2).1, (nexts n rd.next.2).2)

def collect : Nat → Reading → Option (List Row × Option Error) × Reading
  | 0, rd => (none, rd)
  | fuel + 1, rd =>
    match rd.next with
    | (.finished, rd) => (some ([], none), rd)
    | (.error e, rd) => (some ([], some e), rd)
    | (.row row, rd) =>
      ((collect fuel rd).1.map fun (rows, e) => (row :: rows, e), (collect fuel rd).2)

end Reading

/-! ## Cursors that show a reading -/

/-- A batch that is there on both sides, with the same rows at the same place, or on
neither. It is not the result of handle `h`. -/
def SameBatch (w : World State) (h : Handle) : Option Batch → Option (Rows × Nat) → Prop
  | some b, some (rows, pos) =>
    w.lib.objects.get? b.handle.number = some (.batch rows pos) ∧ b.handle ≠ h
  | none, none => True
  | _, _ => False

structure Shows (w : World State) (c : Cursor) (rd : Reading) : Prop where
  stands : Stands w c.result rd.item
  batch : SameBatch w c.result.handle c.batch rd.batch
  phase : c.phase = rd.phase
  rows : c.rows = rd.rows

/-- The cursor `c` has become `c'` as the reading `rd` has become `rd'`. -/
structure Becomes (w : World State) (c : Cursor) (rd : Reading) (w' : World State) (c' : Cursor)
    (rd' : Reading) : Prop where
  shows : Shows w' c' rd'
  same : c.result.Same c'.result
  sessions : w'.sessions = w.sessions
  fetches : w'.lib.fetches + rd.fetches = w.lib.fetches + rd'.fetches

variable {w w' w'' : World State} {c c' c'' : Cursor} {rd rd' rd'' : Reading}

theorem Becomes.refl (h : Shows w c rd) : Becomes w c rd w c rd := ⟨h, ⟨rfl, rfl⟩, rfl, rfl⟩

theorem Becomes.trans (h : Becomes w c rd w' c' rd') (h' : Becomes w' c' rd' w'' c'' rd'') :
    Becomes w c rd w'' c'' rd'' where
  shows := h'.shows
  same := h.same.trans h'.same
  sessions := h'.sessions.trans h.sessions
  fetches := by
    have h₁ := h.fetches
    have h₂ := h'.fetches
    omega

theorem Talks.of_becomes (ht : Talks w c.result) (h : Becomes w c rd w' c' rd') :
    Talks w' c'.result := by
  intro id hid
  rw [World.line, h.sessions]
  exact ht id (h.same.2 ▸ hid)

/-- A run of the cursor answers what the reading answers, and has become what the
reading has become. -/
def Agrees {α : Type} (w : World State) (c : Cursor) (rd : Reading)
    (run : (α × Cursor) × World State) (read : α × Reading) : Prop :=
  run.1.1 = read.1 ∧ Becomes w c rd run.2 run.1.2 read.2

theorem Becomes.agrees {α : Type} (h : Becomes w c rd w' c' rd')
    {run : (α × Cursor) × World State} {read : α × Reading} (ha : Agrees w' c' rd' run read) :
    Agrees w c rd run read :=
  ⟨ha.1, h.trans ha.2⟩

/-- What `advance` does when the batch at hand has no further row. -/
def refillCursor (c : Cursor) : Action State (Except Error Bool × Cursor) := do
  let c ← c.releaseBatch library
  let (k, result) ← c.result.kind library
  let c := { c with result }
  if k = .row then return (.ok false, c)
  else
    let (fetched, result) ← c.result.fetch library
    { c with result }.afterRequest library fetched

namespace Shows

/-- The same cursor, knowing the kind of its result. -/
theorem learned (h : Shows w c rd) :
    Becomes w c rd w { c with result := c.result.learned rd.item } rd :=
  ⟨⟨h.stands.learned, h.batch, h.phase, h.rows⟩, ⟨rfl, rfl⟩, rfl, rfl⟩

theorem batch_none (h : Shows w c rd) (hb : c.batch = none) : rd.batch = none := by
  have := h.batch
  rw [hb] at this
  cases hrd : rd.batch with
  | none => rfl
  | some p =>
    rw [hrd] at this
    exact this.elim

theorem takeBatch (h : Shows w c rd) : Agrees w c rd (c.takeBatch library w) rd.take := by
  have row := h.stands.row_eq
  unfold Reading.take
  cases hcopy : rd.item.copy with
  | ok rows =>
    rw [hcopy] at row
    have run : c.takeBatch library w = ((.ok true, { c with
        result := c.result.learned rd.item
        batch := some ⟨⟨w.lib.last + 1⟩⟩ }), copying w rows) := by
      rw [Cursor.takeBatch, bind_apply, row]
      rfl
    rw [run]
    refine ⟨rfl, ⟨h.stands.learned.copied rows, ⟨?_, ?_⟩, h.phase, h.rows⟩, ⟨rfl, rfl⟩, rfl, rfl⟩
    · exact (h.stands.copying_get? rows _).trans (if_pos rfl)
    · intro heq
      have hle := h.stands.le_last
      have : w.lib.last + 1 = c.result.handle.number := congrArg Handle.number heq
      omega
  | error e =>
    rw [hcopy] at row
    have run : c.takeBatch library w =
        ((.error e, { c with result := c.result.learned rd.item }), w) := by
      rw [Cursor.takeBatch, bind_apply, row]
      rfl
    rw [run]
    exact ⟨rfl, h.learned⟩

theorem afterRequest (h : Shows w c rd) (fetched : Except Error Fetched) :
    Agrees w c rd (c.afterRequest library fetched w) (rd.afterRequest fetched) := by
  rcases fetched with e | (_ | _)
  · exact ⟨rfl, Becomes.refl h⟩
  · exact h.takeBatch
  · exact ⟨rfl, Becomes.refl h⟩

theorem start (h : Shows w c rd) (ht : Talks w c.result) :
    Agrees w c rd (c.start library w) rd.start := by
  rw [Cursor.start, bind_apply, h.stands.isOk_eq]
  dsimp only
  unfold Reading.start
  split
  · rw [bind_apply, h.stands.kind_eq]
    dsimp only
    split
    · have opened := h.stands.learned.openRows_eq ht
      rw [bind_apply, opened]
      exact h.learned.agrees (h.learned.shows.afterRequest _)
    · exact ⟨rfl, h.learned⟩
  · rw [bind_apply, h.stands.code_eq]
    dsimp only
    split
    · exact ⟨rfl, Becomes.refl h⟩
    · rw [bind_apply, h.stands.error_eq]
      exact ⟨rfl, Becomes.refl h⟩

theorem batch_some {b : Batch} (h : Shows w c rd) (hb : c.batch = some b) :
    ∃ rows pos, rd.batch = some (rows, pos) ∧
      w.lib.objects.get? b.handle.number = some (.batch rows pos) ∧
      b.handle ≠ c.result.handle := by
  have hbatch := h.batch
  rw [hb] at hbatch
  cases hrd : rd.batch with
  | none =>
    rw [hrd] at hbatch
    exact hbatch.elim
  | some p =>
    rw [hrd] at hbatch
    exact ⟨p.1, p.2, rfl, hbatch⟩

/-- The batch at hand is gone. -/
theorem releaseBatch (h : Shows w c rd) :
    Becomes w c rd (c.releaseBatch library w).2 (c.releaseBatch library w).1
        { rd with batch := none } ∧
      (c.releaseBatch library w).1 = { c with batch := none } := by
  cases hb : c.batch with
  | none =>
    have run : c.releaseBatch library w = (c, w) := by
      unfold Cursor.releaseBatch
      rw [hb]
      rfl
    have same : { c with batch := none } = c := by rw [← hb]
    rw [run, same]
    have empty : SameBatch w c.result.handle c.batch none := by
      rw [hb]
      trivial
    exact ⟨⟨⟨h.stands, empty, h.phase, h.rows⟩, ⟨rfl, rfl⟩, rfl, rfl⟩, rfl⟩
  | some b =>
    obtain ⟨rows, pos, -, hget, hne⟩ := h.batch_some hb
    have run : c.releaseBatch library w = ({ c with batch := none }, freed w b.handle) := by
      unfold Cursor.releaseBatch
      rw [hb]
      dsimp only
      rw [bind_apply, batch_release_eq hget]
      rfl
    rw [run]
    exact ⟨⟨⟨h.stands.freed hne, trivial, h.phase, h.rows⟩, ⟨rfl, rfl⟩, rfl, rfl⟩, rfl⟩

/-- After a fetch the item of the result is another one. -/
theorem refetched (h : Shows w c rd) (hb : c.batch = none) :
    Becomes w c rd (Server.refetched w c.result.handle rd.item)
      { c with result := c.result.learned rd.item }
      { rd with
        item := rd.item.afterFetch
        batch := none
        fetches := rd.fetches + rd.item.requests } := by
  have sort : rd.item.afterFetch.sort = rd.item.sort := by
    cases rd.item <;> rfl
  have stands : Stands (Server.refetched w c.result.handle rd.item)
      (c.result.learned rd.item) rd.item.afterFetch :=
    h.stands.learned.refetched
  have empty : SameBatch (Server.refetched w c.result.handle rd.item) c.result.handle c.batch
      none := by
    rw [hb]
    trivial
  refine ⟨⟨stands, empty, h.phase, h.rows⟩, ⟨rfl, rfl⟩, ?_, ?_⟩
  · cases rd.item <;> rfl
  · cases rd.item with
    | cursor s =>
      show w.lib.fetches + 1 + rd.fetches = w.lib.fetches + (rd.fetches + 1)
      omega
    | connection | result | batch | built => rfl

/-- What `advance` does when there is no further row in the batch at hand. -/
theorem refill (h : Shows w c rd) (ht : Talks w c.result) :
    Agrees w c rd (refillCursor c w) rd.refill := by
  obtain ⟨released, hc⟩ := h.releaseBatch
  rw [refillCursor, bind_apply]
  -- only what the release left is used from here on
  revert released hc
  generalize c.releaseBatch library w = x
  obtain ⟨c', w'⟩ := x
  rintro released rfl
  have ht' := ht.of_becomes released
  have stands := released.shows.stands
  rw [bind_apply, stands.kind_eq]
  dsimp only
  unfold Reading.refill
  split
  · exact ⟨rfl, released.trans released.shows.learned⟩
  · rw [bind_apply, stands.learned.fetch_eq ht']
    have fetched := released.shows.refetched rfl
    exact released.agrees (fetched.agrees (fetched.shows.afterRequest _))

theorem advance (h : Shows w c rd) (ht : Talks w c.result) :
    Agrees w c rd (c.advance library w) rd.advance := by
  have run : c.advance library w = (if (c.hasNext library w).1 then
      (pure (.ok true, c) : Action State _) else refillCursor c) (c.hasNext library w).2 := rfl
  rw [run]
  cases hb : c.batch with
  | none =>
    have none_next : c.hasNext library w = (false, w) := by
      unfold Cursor.hasNext
      rw [hb]
      rfl
    have refill := h.refill ht
    rw [none_next]
    unfold Reading.advance
    rw [h.batch_none hb]
    exact refill
  | some b =>
    obtain ⟨rows, pos, hrd, hget, hne⟩ := h.batch_some hb
    have turn : c.hasNext library w =
        (decide (pos + 1 < rows.length), turned w b.handle rows (pos + 1)) := by
      unfold Cursor.hasNext
      rw [hb]
      exact batch_next_eq hget
    have moved : Becomes w c rd (turned w b.handle rows (pos + 1)) c
        { rd with batch := some (rows, pos + 1) } := by
      refine ⟨⟨h.stands.turned hne hget _, ?_, h.phase, h.rows⟩, ⟨rfl, rfl⟩, rfl, rfl⟩
      rw [hb]
      exact ⟨by rw [turned_get? hget, if_pos rfl], hne⟩
    rw [turn]
    unfold Reading.advance
    rw [hrd]
    dsimp only
    by_cases hlt : pos + 1 < rows.length
    · rw [if_pos (by simpa using hlt), if_pos hlt]
      exact ⟨rfl, moved⟩
    · rw [if_neg (by simpa using hlt), if_neg hlt]
      have refill := moved.shows.refill (ht.of_becomes moved)
      exact moved.agrees refill

theorem position (h : Shows w c rd) (ht : Talks w c.result) :
    Agrees w c rd (c.position library w) rd.position := by
  unfold Cursor.position Reading.position
  rw [h.phase]
  cases rd.phase with
  | pending => exact h.start ht
  | reading => exact h.advance ht
  | done => exact ⟨rfl, Becomes.refl h⟩

theorem finish (h : Shows w c rd) :
    Becomes w c rd (c.finish library w).2 (c.finish library w).1 rd.finish := by
  obtain ⟨released, hc⟩ := h.releaseBatch
  have run : c.finish library w = ({ (c.releaseBatch library w).1 with phase := .done },
      (c.releaseBatch library w).2) := rfl
  rw [run]
  obtain ⟨shows, same, sessions, fetches⟩ := released
  exact ⟨⟨shows.stands, shows.batch, rfl, shows.rows⟩, same, sessions, fetches⟩

/-- **One call of a cursor.** It yields what the reading yields. -/
theorem next (h : Shows w c rd) (ht : Talks w c.result) :
    Agrees w c rd (c.next library w) rd.next := by
  unfold Reading.next
  split
  · next hdone =>
    have hc : c.isDone := by simp [Cursor.isDone, h.phase, hdone]
    rw [Cursor.next_done library hc]
    exact ⟨rfl, Becomes.refl h⟩
  · next hdone =>
    have hc : c.isDone = false := by simp [Cursor.isDone, h.phase, hdone]
    have found := h.position ht
    rw [Cursor.next, if_neg (by simp [hc]), bind_apply]
    -- both sides have looked for a row; what was found is the same on both
    revert found
    generalize c.position library w = x
    generalize rd.position = y
    obtain ⟨⟨found, c'⟩, w'⟩ := x
    obtain ⟨found', rd'⟩ := y
    rintro ⟨rfl, became⟩
    have became : Becomes w c rd w' c' rd' := became
    rcases found with e | (_ | _)
    · exact became.agrees ⟨rfl, became.shows.finish⟩
    · exact became.agrees ⟨rfl, became.shows.finish⟩
    · cases hb : c'.batch with
      | none =>
        have hnone := became.shows.batch_none hb
        dsimp only
        rw [hb, hnone]
        exact became.agrees ⟨rfl, became.shows.finish⟩
      | some b =>
        obtain ⟨rows, pos, hrd, hget, hne⟩ := became.shows.batch_some hb
        dsimp only
        rw [hb, hrd]
        dsimp only
        rw [bind_apply, batch_row_eq hget]
        refine ⟨rfl, became.trans ⟨⟨became.shows.stands, ?_, rfl, ?_⟩, ⟨rfl, rfl⟩, rfl, rfl⟩⟩
        · exact ⟨hget, hne⟩
        · exact congrArg (· + 1) became.shows.rows

/-! ### Whole iterations -/

theorem nexts (n : Nat) (h : Shows w c rd) (ht : Talks w c.result) :
    Agrees w c rd (Cursor.nexts library n c w) (Reading.nexts n rd) := by
  induction n generalizing w c rd with
  | zero => exact ⟨rfl, Becomes.refl h⟩
  | succ n ih =>
    obtain ⟨yields, became⟩ := h.next ht
    obtain ⟨rest, became'⟩ := ih became.shows (ht.of_becomes became)
    refine ⟨?_, became.trans became'⟩
    rw [Cursor.nexts_succ]
    exact congrArg₂ List.cons yields rest

theorem collect (fuel : Nat) (h : Shows w c rd) (ht : Talks w c.result) :
    Agrees w c rd (c.collect library fuel w) (Reading.collect fuel rd) := by
  induction fuel generalizing w c rd with
  | zero => exact ⟨rfl, Becomes.refl h⟩
  | succ fuel ih =>
    have yielded := h.next ht
    rw [Cursor.collect, bind_apply]
    unfold Reading.collect
    revert yielded
    generalize c.next library w = x
    generalize rd.next = y
    obtain ⟨⟨yield, c'⟩, w'⟩ := x
    obtain ⟨yield', rd'⟩ := y
    rintro ⟨rfl, became⟩
    have became : Becomes w c rd w' c' rd' := became
    cases yield with
    | finished => exact ⟨rfl, became⟩
    | error e => exact ⟨rfl, became⟩
    | row row =>
      obtain ⟨rest, became'⟩ := ih became.shows (ht.of_becomes became)
      have more : (c'.collect library fuel w').1.1 = (Reading.collect fuel rd').1 := rest
      refine ⟨?_, became.trans became'⟩
      exact congrArg (Option.map fun (x : List Row × Option Error) => (row :: x.1, x.2)) more

end Shows

end Querent.Server
