import Querent.Connection
import Querent.Foreign.Host
import Querent.Procedure.Basic
import Querent.Proofs.Foreign.Supply

/-!
# One delivery from two libraries

The client library and the library for procedures supply the same batches in
different ways: in one the first batch is there with the result, in the other
the cursor is opened and then fetched from; a status of zero means success in one
and failure in the other. Main statement: a program that iterates cannot tell
them apart, if each code that signals the end differs from zero in its low 32
bits. A code that does not is taken for a batch.
-/

namespace Querent

open Foreign

namespace Foreign

variable {σ : Type}

/-! ## Contracts on the functions -/

/-- The functions on results and copies that both libraries have under the same types. -/
structure Accessors (σ : Type) where
  kind : Handle → StateM σ Int64
  fetch : Handle → StateM σ Int64
  atEnd : Handle → StateM σ Int64
  nextRow : Handle → StateM σ Int64
  fieldCount : Option (Handle → StateM σ Int64)
  field : Handle → Int64 → StateM σ (Option Memory × Int64)

def ClientTable.accessors (t : ClientTable σ) : Accessors σ :=
  ⟨t.kind, t.fetch, t.atEnd, t.nextRow, t.fieldCount, t.field⟩

def HostTable.accessors (t : HostTable σ) : Accessors σ :=
  ⟨t.kind, t.fetch, t.atEnd, t.nextRow, t.fieldCount, t.field⟩

/-- What both libraries do for the batches of the cursor result `h`. A result that stays
in order at the end of its data is flagged, and the fetch returns a code that `signals`
has. -/
structure Accessors.Supplies (t : Accessors σ) (h : Handle) (signals : Int64 → Prop)
    (Shows : σ → Stock → Prop) : Prop where
  kind : ∀ v, v.supply.isOk → Tells Shows (t.kind h) v 0x24
  fetch : ∀ b bs, Meets Shows (t.fetch h) ⟨.holding b bs, none⟩ (Supplied signals bs)
  atEnd : ∀ copy, Meets Shows (t.atEnd h) ⟨.ended .flagged, copy⟩ fun flag v' =>
    flag ≠ 0 ∧ v' = ⟨.ended .flagged, copy⟩
  nextRow : ∀ p c row rows, Meets Shows (t.nextRow c) ⟨p, some (c, row :: rows)⟩ fun code v' =>
    (code = 0 ↔ rows ≠ []) ∧ ∃ left, v' = ⟨p, some (c, left)⟩ ∧ (rows ≠ [] → left = rows)
  fieldCount : ∃ count, t.fieldCount = some count ∧ ∀ p c row rows,
    Meets Shows (count c) ⟨p, some (c, row :: rows)⟩ fun n v' =>
      n.toInt = row.length ∧ v' = ⟨p, some (c, row :: rows)⟩
  field : ∀ p c row rows i, (hi : i < row.length) →
    Meets Shows (t.field c (Int64.ofNat i)) ⟨p, some (c, row :: rows)⟩ fun x v' =>
      decodeField x.1 x.2 = row[i] ∧ v' = ⟨p, some (c, row :: rows)⟩

/-- Where a result of the client library stands at first: at its first batch, or at the
end. -/
def prefetched : List (List Row) → Supply
  | [] => .ended .failed
  | b :: rest => .holding b rest

/-- The client library supplies the batches of `h`. A status of zero means success, and
the row that a cursor lends can be copied. -/
structure ClientTable.Supplies (t : ClientTable σ) (h : Handle) (signals : Int64 → Prop)
    (Shows : σ → Stock → Prop) : Prop where
  accessors : t.accessors.Supplies h signals Shows
  status : ∀ v, Meets Shows (t.status h) v fun status v' =>
    (status = 0 ↔ v.supply.isOk) ∧ v' = v
  errorCode : ∀ copy, Tells Shows (t.errorCode h) ⟨.ended .failed, copy⟩ 8
  lend : ∀ b bs s, Shows s ⟨.holding b bs, none⟩ → ∃ row c,
    (t.batch h s).1 = some row ∧ (t.copyRow row (t.batch h s).2).1 = some c ∧
    Shows (t.copyRow row (t.batch h s).2).2 ⟨.holding b bs, some (c, b)⟩
  release : ∀ p c left, Meets Shows (t.release c) ⟨p, some (c, left)⟩ fun _ v' =>
    v' = ⟨p, none⟩

/-- The library for procedures supplies the batches of `h`. A status other than zero
means success; the cursor is opened, and each batch is fetched. -/
structure HostTable.Supplies (t : HostTable σ) (h : Handle) (signals : Int64 → Prop)
    (Shows : σ → Stock → Prop) : Prop where
  accessors : t.accessors.Supplies h signals Shows
  status : ∀ v, Meets Shows (t.status h) v fun status v' =>
    (status ≠ 0 ↔ v.supply.isOk) ∧ v' = v
  errorCode : ∀ copy, Tells Shows (t.errorCode h) ⟨.ended .failed, copy⟩ 8
  openCursor : ∀ bs, Meets Shows (t.openCursor h) ⟨.shut bs, none⟩ fun code v' =>
    code = 0 ∧ v' = ⟨.opened bs, none⟩
  firstFetch : ∀ bs, Meets Shows (t.fetch h) ⟨.opened bs, none⟩ (Supplied signals bs)
  batch : ∀ b bs, Meets Shows (t.batch h) ⟨.holding b bs, none⟩ fun copy v' =>
    ∃ c, copy = some c ∧ v' = ⟨.holding b bs, some (c, b)⟩
  release : ∀ p c left, Meets Shows (t.release c 1) ⟨p, some (c, left)⟩ fun _ v' =>
    v' = ⟨p, none⟩

/-! ## From functions to calls -/

/-- The code of a fetch is read in its low 32 bits. -/
def Signals (code : Int64) : Prop := code.toInt32 ≠ 0

variable {h : Handle} {Shows : σ → Stock → Prop}

theorem supplied_cut {bs : List (List Row)} {code : Int64} {v : Stock}
    (hv : Supplied Signals bs code v) : Supplied (· ≠ 0) bs code.toInt32 v := by
  cases bs with
  | nil => exact hv
  | cons b rest =>
    obtain ⟨rfl, rfl⟩ := hv
    exact ⟨rfl, rfl⟩

/-- An answer that is read in some way before it is given on. -/
theorem meets_map {α β : Type} {act : StateM σ α} {v : Stock} {φ : α → Stock → Prop}
    {χ : β → Stock → Prop} (f : α → β) (ha : Meets Shows act v φ)
    (hf : ∀ a v', φ a v' → χ (f a) v') : Meets Shows (do return f (← act)) v χ :=
  Meets.bind ha fun a v' hφ => Meets.pure (hf a v' hφ)

namespace Accessors.Supplies

variable {t : Accessors σ} (ht : t.Supplies h Signals Shows)
include ht

theorem kind_cut (v : Stock) (hv : v.supply.isOk) :
    Meets Shows (do return (← t.kind h).toInt32) v fun tag v' =>
      ResultKind.ofTag tag = .cursor ∧ v' = v := by
  refine meets_map Int64.toInt32 (ht.kind v hv) ?_
  rintro _ _ ⟨rfl, rfl⟩
  exact ⟨rfl, rfl⟩

theorem fetch_cut (b : List Row) (bs : List (List Row)) :
    Meets Shows (do return (← t.fetch h).toInt32) ⟨.holding b bs, none⟩
      (Supplied (· ≠ 0) bs) :=
  meets_map Int64.toInt32 (ht.fetch b bs) fun _ _ => supplied_cut

theorem atEnd_truth (copy : Option (Handle × List Row)) :
    Tells Shows (do return (← t.atEnd h) != 0) ⟨.ended .flagged, copy⟩ true := by
  refine meets_map (· != 0) (ht.atEnd copy) ?_
  rintro flag _ ⟨hflag, rfl⟩
  exact ⟨by simpa using hflag, rfl⟩

theorem nextRow_truth (p : Supply) (c : Handle) (row : Row) (rows : List Row) :
    Meets Shows (do return (← t.nextRow c) == 0) ⟨p, some (c, row :: rows)⟩ fun more v' =>
      more = !rows.isEmpty ∧ ∃ left, v' = ⟨p, some (c, left)⟩ ∧ (rows ≠ [] → left = rows) := by
  refine meets_map (· == 0) (ht.nextRow p c row rows) ?_
  rintro code v' ⟨hcode, hv'⟩
  refine ⟨?_, hv'⟩
  cases rows with
  | nil => simpa using hcode
  | cons row' rows => simpa using hcode

theorem fieldCount_tells (p : Supply) (c : Handle) (row : Row) (rows : List Row) :
    Tells Shows (countFields (t.fieldCount.map (· c)) fun i => t.field c (Int64.ofNat i))
      ⟨p, some (c, row :: rows)⟩ row.length := by
  obtain ⟨count, hcount, hn⟩ := ht.fieldCount
  rw [hcount]
  refine meets_map (fun n : Int64 => n.toInt.toNat) (hn p c row rows) ?_
  rintro n _ ⟨hlen, rfl⟩
  exact ⟨by simp only [hlen, Int.toNat_natCast], rfl⟩

theorem field_tells (p : Supply) (c : Handle) (row : Row) (rows : List Row) (i : Nat)
    (hi : i < row.length) :
    Tells Shows (do return decodeField.uncurry (← t.field c (Int64.ofNat i)))
      ⟨p, some (c, row :: rows)⟩ row[i] :=
  meets_map decodeField.uncurry (ht.field p c row rows i hi) fun _ _ hx => hx

end Accessors.Supplies

/-- Where the data ended before anything was asked for there is no batch. -/
theorem prefetched_eq_failed {bs : List (List Row)} (h : prefetched bs = .ended .failed) :
    bs = [] := by
  cases bs with
  | nil => rfl
  | cons b rest => cases h

theorem ClientTable.Supplies.results {t : ClientTable σ} (ht : t.Supplies h Signals Shows) :
    t.library.results.Supplies h prefetched Shows where
  none_of_failed _ := prefetched_eq_failed
  isOk v := by
    refine meets_map (· == 0) (ht.status v) ?_
    rintro status _ ⟨hstatus, rfl⟩
    exact ⟨Bool.eq_iff_iff.mpr (beq_iff_eq.trans hstatus), rfl⟩
  kind v hv := ht.accessors.kind_cut v hv
  code copy := by
    refine meets_map Int16.toInt32 (ht.errorCode copy) ?_
    rintro _ _ ⟨rfl, rfl⟩
    exact ⟨rfl, rfl⟩
  atEnd copy := ht.accessors.atEnd_truth copy
  openCursor bs hbs := by
    cases bs with
    | nil => cases hbs
    | cons b rest => exact Meets.pure ⟨rfl, rfl⟩
  fetch b bs := ht.accessors.fetch_cut b bs
  copyBatch b bs := by
    intro s hs
    obtain ⟨row, c, hrow, hc, hs'⟩ := ht.lend b bs s hs
    have hcopy : t.library.results.copyBatch h s = t.copyRow row (t.batch h s).2 := by
      simp only [library, resultCalls, bind_apply, hrow]
    rw [hcopy]
    exact ⟨_, hs', c, hc, rfl⟩
  nextRow p c row rows := ht.accessors.nextRow_truth p c row rows
  fieldCount p c row rows := ht.accessors.fieldCount_tells p c row rows
  field p c row rows i hi := ht.accessors.field_tells p c row rows i hi
  release p c left := ht.release p c left

theorem HostTable.Supplies.results {t : HostTable σ} (ht : t.Supplies h Signals Shows) :
    t.library.results.Supplies h .shut Shows where
  none_of_failed _ hbs := by cases hbs
  isOk v := by
    refine meets_map (· != 0) (ht.status v) ?_
    rintro status _ ⟨hstatus, rfl⟩
    exact ⟨Bool.eq_iff_iff.mpr (bne_iff_ne.trans hstatus), rfl⟩
  kind v hv := ht.accessors.kind_cut v hv
  code copy := ht.errorCode copy
  atEnd copy := ht.accessors.atEnd_truth copy
  openCursor bs _ := by
    -- a cursor that was opened is fetched from at once
    refine Meets.bind (ht.openCursor bs) ?_
    rintro _ _ ⟨rfl, rfl⟩
    rw [if_pos (by rfl)]
    exact meets_map Int64.toInt32 (ht.firstFetch bs) fun _ _ => supplied_cut
  fetch b bs := ht.accessors.fetch_cut b bs
  copyBatch b bs := ht.batch b bs
  nextRow p c row rows := ht.accessors.nextRow_truth p c row rows
  fieldCount p c row rows := ht.accessors.fieldCount_tells p c row rows
  field p c row rows i hi := ht.accessors.field_tells p c row rows i hi
  release p c left := ht.release p c left

end Foreign

/-! ## Executing and iterating -/

/-- What a cursor yields in `n` calls over the result that was made, if one was made. -/
def iterate {σ : Type} (L : Library σ) (made : Action σ (Except Error QueryResult)) (n : Nat) :
    Action σ (Except Error (List Yield)) := do
  match ← made with
  | .ok r => return .ok (← (Cursor.ofResult r).nexts L n).1
  | .error e => return .error e

section Executing

variable {σ : Type} {bs : List (List Row)} {h : Handle} {first : List (List Row) → Supply}
  {Shows : σ → Stock → Prop} {L : Library σ}

/-- Iterating over a result just obtained delivers the batches that it supplies. -/
theorem iterate_eq (session : Option SessionId) (hL : L.results.Supplies h first Shows)
    (hbs : ∀ b ∈ bs, b ≠ []) {made : Action σ (Except Error QueryResult)} {w : World σ}
    (hmade : (made w).1 = .ok (.new h session)) (hw : Shows (made w).2.lib ⟨first bs, none⟩)
    (htalks : ∀ id, session = some id → ((made w).2.sessions[id]?.bind (·.handle)).isSome)
    (n : Nat) : (iterate L made n w).1 = .ok (delivery bs.flatten n) := by
  have husable : (QueryResult.new h session).Usable h (made w).2.sessions :=
    ⟨rfl, by simp [QueryResult.new], htalks⟩
  have hnexts := Cursor.nexts_delivery hL n (.pending _ 0 bs husable hbs) ⟨hw, rfl⟩
  simp only [iterate, bind_apply, hmade, pure_apply]
  exact congrArg Except.ok hnexts

/-- A statement that is passed and answered makes a result on the open session. -/
theorem Connection.execute_made {id : SessionId} {con : Handle} {statement : String}
    {w : World σ} (hstatement : passable? statement = .ok statement)
    (hopen : w.sessions[id]?.bind (·.handle) = some con)
    (hexec : (L.client.execute con statement w.lib).1 = .ok h) :
    Connection.execute L ⟨id⟩ statement w = (.ok (.new h (some id)),
      ⟨(L.client.execute con statement w.lib).2,
        w.sessions.modify id fun s => { s with holders := s.holders + 1 }⟩) := by
  have hhandle : Session.handle? id w = (some con, w) := by
    simp only [Session.handle?, Session.get, bind_apply, pure_apply, hopen]
  simp only [Connection.execute, hstatement, bind_apply, hhandle, call_apply, hexec, pure_apply,
    Session.join, Session.update]

/-- Inside a procedure a result belongs to no session. -/
theorem Procedure.execute_made {p : Procedure} {statement : String} {w : World σ}
    (hstatement : passable? statement = .ok statement)
    (hexec : (L.host.execute p.db statement w.lib).1 = .ok h) :
    p.execute L statement w = (.ok (.new h none),
      ⟨(L.host.execute p.db statement w.lib).2, w.sessions⟩) := by
  simp only [Procedure.execute, hstatement, bind_apply, call_apply, hexec, pure_apply]

/-- One more holder does not close a session. -/
theorem handle_isSome_join {sessions : List Session} {id : SessionId} {con : Handle}
    (hopen : sessions[id]?.bind (·.handle) = some con) :
    ((sessions.modify id fun s => { s with holders := s.holders + 1 })[id]?.bind
      (·.handle)).isSome := by
  obtain ⟨s, hs, hcon⟩ := Option.bind_eq_some_iff.mp hopen
  simp [hs, hcon]

end Executing

/-! ## A library on a storeroom -/

/-- The rows that can still be had of a result. -/
def Supply.rows : Supply → List Row
  | shut bs | opened bs => bs.flatten
  | holding b bs => b ++ bs.flatten
  | ended _ => []

/-- Each row in stock is a truth value and a null field. -/
def Stock.Plain (v : Stock) : Prop :=
  ∀ row ∈ v.supply.rows ++ (v.copy.map (·.2)).getD [], ∃ b, row = [.bool b, .null]

namespace Foreign

/-- A library with one result: its batches, how it tells the end of its data, and the
code of the fetch that tells it. -/
structure Storeroom where
  batches : List (List Row)
  signal : EndSignal
  code : Int64

namespace Storeroom

variable (k : Storeroom)

def fetch : StateM Stock Int64 := fun s =>
  match s.supply with
  | .opened (b :: rest) | .holding _ (b :: rest) => (0, ⟨.holding b rest, s.copy⟩)
  | .opened [] | .holding _ [] => (k.code, ⟨.ended k.signal, s.copy⟩)
  | _ => (2, s)

def openCursor : StateM Stock Int64 := fun s =>
  match s.supply with
  | .shut bs => (0, ⟨.opened bs, s.copy⟩)
  | _ => (2, s)

def atEnd : StateM Stock Int64 := fun s =>
  match s.supply with
  | .ended _ => (1, s)
  | _ => (0, s)

def copy : StateM Stock (Option Handle) := fun s =>
  match s.supply with
  | .holding b _ => (some ⟨3⟩, { s with copy := some (⟨3⟩, b) })
  | _ => (none, s)

def nextRow : StateM Stock Int64 := fun s =>
  match s.copy with
  | some (c, _ :: row :: rows) => (0, { s with copy := some (c, row :: rows) })
  | _ => (8, s)

/-- A field of a plain row in memory. -/
def field (i : Int64) : StateM Stock (Option Memory × Int64) := fun s =>
  match s.copy with
  | some (_, row :: _) =>
    match row[i.toInt.toNat]? with
    | some (.bool b) => ((some [if b then 1 else 0], 9), s)
    | _ => ((none, 0), s)
  | _ => ((none, 0), s)

def release : StateM Stock Unit := fun s => ((), { s with copy := none })

def clientTable : ClientTable Stock where
  explain := none
  connect := fun _ _ _ _ _ => pure (0, some ⟨1⟩)
  close := fun _ => pure 0
  destroy := fun _ => pure ()
  execute := fun _ _ _ => ((0, some ⟨2⟩), ⟨prefetched k.batches, none⟩)
  release := fun _ => release
  kind := fun _ => pure 0x24
  status := fun _ s => (if s.supply.isOk then 0 else 8, s)
  errorCode := fun _ s => (if s.supply.isOk then 0 else 8, s)
  details := fun _ => pure none
  report := none
  fetch := fun _ => k.fetch
  atEnd := fun _ => atEnd
  batch := fun h => pure (some h)
  copyRow := fun _ => copy
  nextRow := fun _ => nextRow
  fieldCount := some fun _ => pure 2
  field := fun _ => field

def hostTable : HostTable Stock where
  execute := fun _ _ _ => ((0, some ⟨2⟩), ⟨.shut k.batches, none⟩)
  wrap := fun _ => pure none
  makeSuccess := pure none
  makeError := fun _ _ => pure none
  makeReport := none
  makeRow := pure none
  release := fun _ _ => release
  kind := fun _ => pure 0x24
  status := fun _ s => (if s.supply.isOk then 1 else 0, s)
  errorCode := fun _ s => (if s.supply.isOk then 0 else 8, s)
  details := fun _ => pure none
  report := none
  atEnd := fun _ => atEnd
  add := fun _ _ _ => pure 2
  capacity := fun _ => pure 0
  closeRow := fun _ => pure 2
  openCursor := fun _ => openCursor
  closeCursor := fun _ => pure ()
  fetch := fun _ => k.fetch
  batch := fun _ => copy
  nextRow := fun _ => nextRow
  copyRow := fun _ => copy
  fieldCount := some fun _ => pure 2
  field := fun _ => field

/-- The stock of a storeroom is its state. -/
def Shows (s v : Stock) : Prop := s = v ∧ v.Plain

variable {k} {α : Type} {act : StateM Stock α} {v : Stock} {φ : α → Stock → Prop}

theorem meets_of (h : v.Plain → (act v).2.Plain ∧ φ (act v).1 (act v).2) :
    Meets Shows act v φ := by
  rintro s ⟨rfl, hs⟩
  exact ⟨_, ⟨rfl, (h hs).1⟩, (h hs).2⟩

theorem tells_of {a : α} (h : act v = (a, v)) : Tells Shows act v a :=
  meets_of fun hv => by
    rw [h]
    exact ⟨hv, rfl, rfl⟩

/-! ### What is left in stock is plain -/

/-- A stock without other rows than a plain one is plain. -/
theorem plain_of_subset {v v' : Stock} (hv : v.Plain)
    (h : ∀ row, row ∈ v'.supply.rows ∨ row ∈ (v'.copy.map (·.2)).getD [] →
      row ∈ v.supply.rows ∨ row ∈ (v.copy.map (·.2)).getD []) : v'.Plain := by
  intro row hrow
  exact hv row (List.mem_append.mpr (h row (List.mem_append.mp hrow)))

/-- The row at hand of a plain copy. -/
theorem plain_row {p : Supply} {c : Handle} {row : Row} {rows : List Row}
    (hv : Stock.Plain ⟨p, some (c, row :: rows)⟩) : ∃ b, row = [.bool b, .null] :=
  hv row (by simp)

theorem plain_copy {b : List Row} {bs : List (List Row)}
    (hv : Stock.Plain ⟨.holding b bs, none⟩) (c : Handle) :
    Stock.Plain ⟨.holding b bs, some (c, b)⟩ := by
  refine plain_of_subset hv ?_
  simp only [Supply.rows, Option.map_some, Option.getD_some, List.mem_append]
  grind

theorem plain_left {p : Supply} {c : Handle} {row : Row} {rows : List Row}
    (hv : Stock.Plain ⟨p, some (c, row :: rows)⟩) : Stock.Plain ⟨p, some (c, rows)⟩ := by
  refine plain_of_subset hv ?_
  simp only [Option.map_some, Option.getD_some, List.mem_cons]
  grind

theorem plain_released {p : Supply} {c : Handle} {left : List Row}
    (hv : Stock.Plain ⟨p, some (c, left)⟩) : Stock.Plain ⟨p, none⟩ := by
  refine plain_of_subset hv ?_
  simp only [Option.map_none, Option.getD_none, List.not_mem_nil, or_false]
  exact fun _ => Or.inl

/-! ### A storeroom supplies its batches -/

theorem fetch_meets {signals : Int64 → Prop} (hk : k.signal = .flagged → signals k.code)
    {p : Supply} {bs : List (List Row)} (hp : p = .opened bs ∨ ∃ b, p = .holding b bs) :
    Meets Shows k.fetch ⟨p, none⟩ (Supplied signals bs) := by
  refine meets_of fun hv => ?_
  rcases hp with rfl | ⟨b, rfl⟩ <;> cases bs with
  | nil => exact ⟨by simp [fetch, Stock.Plain, Supply.rows], k.signal, hk, rfl⟩
  | cons b' rest =>
    refine ⟨plain_of_subset hv fun row => ?_, rfl, rfl⟩
    simp only [fetch, Supply.rows, List.flatten_cons, List.mem_append]
    grind

theorem nextRow_meets (p : Supply) (c : Handle) (row : Row) (rows : List Row) :
    Meets Shows nextRow ⟨p, some (c, row :: rows)⟩ fun code v' =>
      (code = 0 ↔ rows ≠ []) ∧ ∃ left, v' = ⟨p, some (c, left)⟩ ∧ (rows ≠ [] → left = rows) := by
  refine meets_of fun hv => ?_
  cases rows with
  | nil => exact ⟨hv, by simp [nextRow], [row], rfl, by simp⟩
  | cons row' rows => exact ⟨plain_left hv, by simp [nextRow], row' :: rows, rfl, by simp⟩

theorem field_meets (p : Supply) (c : Handle) (row : Row) (rows : List Row) (i : Nat)
    (hi : i < row.length) :
    Meets Shows (field (Int64.ofNat i)) ⟨p, some (c, row :: rows)⟩ fun x v' =>
      decodeField x.1 x.2 = row[i] ∧ v' = ⟨p, some (c, row :: rows)⟩ := by
  refine meets_of fun hv => ?_
  obtain ⟨b, rfl⟩ := plain_row hv
  obtain rfl | rfl : i = 0 ∨ i = 1 := by
    simp only [List.length_cons, List.length_nil] at hi
    omega
  · exact ⟨hv, by cases b <;> rfl, rfl⟩
  · exact ⟨hv, rfl, rfl⟩

/-- What the two tables of a storeroom have in common. -/
theorem accessors_supply {t : Accessors Stock} {signals : Int64 → Prop}
    (hk : k.signal = .flagged → signals k.code)
    (ht : t = ⟨fun _ => pure 0x24, fun _ => k.fetch, fun _ => atEnd, fun _ => nextRow,
      some fun _ => pure 2, fun _ => field⟩) : t.Supplies ⟨2⟩ signals Shows := by
  subst ht
  exact {
    kind := fun v _ => tells_of rfl
    fetch := fun b bs => fetch_meets hk (Or.inr ⟨b, rfl⟩)
    atEnd := fun copy => meets_of fun hv => ⟨hv, by simp [atEnd], rfl⟩
    nextRow := nextRow_meets
    fieldCount := ⟨_, rfl, fun p c row rows => meets_of fun hv => by
      obtain ⟨b, rfl⟩ := plain_row hv
      exact ⟨hv, rfl, rfl⟩⟩
    field := field_meets }

theorem clientTable_supplies {signals : Int64 → Prop}
    (hk : k.signal = .flagged → signals k.code) :
    k.clientTable.Supplies ⟨2⟩ signals Shows where
  accessors := accessors_supply hk rfl
  status v := meets_of fun hv => ⟨hv, by cases h : v.supply.isOk <;> simp [clientTable, h], rfl⟩
  errorCode copy := tells_of rfl
  lend b bs := by
    rintro s ⟨rfl, hs⟩
    exact ⟨⟨2⟩, ⟨3⟩, rfl, rfl, rfl, plain_copy hs ⟨3⟩⟩
  release p c left := meets_of fun hv => ⟨plain_released hv, rfl⟩

theorem hostTable_supplies {signals : Int64 → Prop}
    (hk : k.signal = .flagged → signals k.code) :
    k.hostTable.Supplies ⟨2⟩ signals Shows where
  accessors := accessors_supply hk rfl
  status v := meets_of fun hv => ⟨hv, by cases h : v.supply.isOk <;> simp [hostTable, h], rfl⟩
  errorCode copy := tells_of rfl
  openCursor bs := meets_of fun hv => ⟨hv, rfl, rfl⟩
  firstFetch bs := fetch_meets hk (Or.inl rfl)
  batch b bs := meets_of fun hv => ⟨plain_copy hv ⟨3⟩, ⟨3⟩, rfl, rfl⟩
  release p c left := meets_of fun hv => ⟨plain_released hv, rfl⟩

end Storeroom

end Foreign

/-- **One delivery.** A client that executes a statement and a procedure that executes
it, over libraries that supply the same batches, each in its own way and with its own
signal of the end, iterate over the same rows: those of the batches, one batch after
the other, without an error. Each code that signals the end has to differ from zero in
its low 32 bits. -/
theorem deliveries_agree {σ τ : Type} {ct : ClientTable σ} {ht : HostTable τ}
    {bs : List (List Row)} (hbs : ∀ b ∈ bs, b ≠ [])
    {h : Handle} {Shows : σ → Stock → Prop} (hc : ct.Supplies h Signals Shows)
    {h' : Handle} {Shows' : τ → Stock → Prop} (hh : ht.Supplies h' Signals Shows')
    {statement : String} (hstatement : passable? statement = .ok statement)
    {w : World σ} {id : SessionId} {con : Handle}
    (hopen : w.sessions[id]?.bind (·.handle) = some con)
    (hexec : (ct.execute con statement w.lib).1 = (0, some h))
    (hfirst : Shows (ct.execute con statement w.lib).2 ⟨prefetched bs, none⟩)
    {w' : World τ} {p : Procedure}
    (hexec' : (ht.execute p.db statement w'.lib).1 = (0, some h'))
    (hfirst' : Shows' (ht.execute p.db statement w'.lib).2 ⟨.shut bs, none⟩) (n : Nat) :
    (iterate ct.library (Connection.execute ct.library ⟨id⟩ statement) n w).1 =
        .ok (delivery bs.flatten n) ∧
      (iterate ht.library (p.execute ht.library statement) n w').1 =
        .ok (delivery bs.flatten n) := by
  constructor
  · have hanswer : (ct.library.client.execute con statement w.lib).1 = .ok h := by
      simp only [ClientTable.library, ClientTable.clientCalls, bind_apply, pure_apply, hexec]
      rfl
    have hmade := Connection.execute_made hstatement hopen hanswer
    refine iterate_eq (some id) hc.results hbs ?_ ?_ ?_ n
    · rw [hmade]
    · rw [hmade]
      exact hfirst
    · rintro _ ⟨rfl⟩
      rw [hmade]
      exact handle_isSome_join hopen
  · have hanswer : (ht.library.host.execute p.db statement w'.lib).1 = .ok h' := by
      simp only [HostTable.library, HostTable.hostCalls, bind_apply, pure_apply, hexec']
      rfl
    have hmade := Procedure.execute_made hstatement hanswer
    refine iterate_eq none hh.results hbs ?_ ?_ (by simp) n
    · rw [hmade]
    · rw [hmade]
      exact hfirst'

/-- Two batches from two storerooms: the one for clients turns the result into a failed one
at the end, the one for procedures only flags it. -/
theorem deliveries_agree_two_batches :
    let bs : List (List Row) := [[[.bool true, .null], [.bool false, .null]], [[.bool true, .null]]]
    let ct := (Storeroom.mk bs .failed 0).clientTable
    let ht := (Storeroom.mk bs .flagged 8).hostTable
    let empty : Stock := ⟨.ended .failed, none⟩
    (iterate ct.library (Connection.execute ct.library ⟨0⟩ "a") 5
        ⟨empty, [⟨some ⟨1⟩, "", 1⟩]⟩).1 = .ok (delivery bs.flatten 5) ∧
      (iterate ht.library (Procedure.execute ht.library ⟨⟨9⟩⟩ "a") 5 ⟨empty, []⟩).1 =
        .ok (delivery bs.flatten 5) := by
  intro bs ct ht empty
  have hct : ct.Supplies ⟨2⟩ Signals Storeroom.Shows := Storeroom.clientTable_supplies (by simp)
  have hht : ht.Supplies ⟨2⟩ Signals Storeroom.Shows :=
    Storeroom.hostTable_supplies fun _ => by unfold Signals; decide
  exact deliveries_agree (by simp [bs]) hct hht (by rfl) rfl rfl
    ⟨rfl, by simp [bs, Stock.Plain, prefetched, Supply.rows]⟩ rfl
    ⟨rfl, by simp [bs, Stock.Plain, Supply.rows]⟩ 5

/-- Outcomes have no decidable equality; what they give may have one. -/
theorem eq_ok_of_toOption {ε α : Type} {x : Except ε α} {a : α} (h : x.toOption = some a) :
    x = .ok a := by
  cases x with
  | error => cases h
  | ok => exact congrArg Except.ok (Option.some.inj h)

/-- A code that signals the end, but is zero in its low 32 bits, is taken for that of a
batch. There is none to copy, so the iteration ends in an error. -/
theorem cut_code_undelivered :
    let k : Storeroom := ⟨[[[.bool true, .null]]], .flagged, 4294967296⟩
    k.clientTable.Supplies ⟨2⟩ (· ≠ 0) Storeroom.Shows ∧
      (iterate k.clientTable.library (Connection.execute k.clientTable.library ⟨0⟩ "a") 3
          ⟨⟨.ended .failed, none⟩, [⟨some ⟨1⟩, "", 1⟩]⟩).1 =
        .ok [.row [.bool true, .null], .error (.server 0 QueryResult.noDetails), .finished] ∧
      delivery [[.bool true, .null]] 3 = [.row [.bool true, .null], .finished, .finished] :=
  ⟨Storeroom.clientTable_supplies (by decide), eq_ok_of_toOption (by decide +kernel), rfl⟩

end Querent
