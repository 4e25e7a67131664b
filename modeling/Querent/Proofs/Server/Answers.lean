import Querent.Proofs.Server.Sessions
import Querent.Server.Installation

/-!
# What the server answers about a result

All that can be seen of a result on the server is a function of the item that lives
under its handle. Each operation on a result is described here by what it makes of
that item: the answer, and the world that it leaves.
-/

namespace Querent

namespace Server

/-! ## Items alone -/

namespace Item

/-- The items that replies put under a handle. -/
def Plain : Item → Prop
  | .result kind .. => kind = .status ∨ kind = .report
  | .cursor _ | .built .. => True
  | .connection | .batch .. => False

/-- The kind that a result reads from its item. -/
def sort (i : Item) : ResultKind := .ofTag i.kind

def error (i : Item) : Error := .server i.code (i.details.getD QueryResult.noDetails)

def failure? (i : Item) : Option Error :=
  if i.code = Code.endOfData then none else some i.error

def check (i : Item) : Except Error Unit :=
  if i.isOk then .ok ()
  else match i.failure? with
    | some e => .error e
    | none => .ok ()

/-- What a request came to that left this item. -/
def outcome (i : Item) : Except Error Fetched :=
  if i.isOk then .ok .batch
  else match i.failure? with
    | some e => .error e
    | none => .ok .endOfData

theorem outcome_of_failed {i : Item} (h : i.isOk = false) :
    i.outcome = i.failure?.elim (.ok .endOfData) .error := by
  rw [outcome, h]
  cases i.failure? <;> rfl

def reported (i : Item) : Except Error Report :=
  match i.sort with
  | .report => .ok i.report
  | other => .error (.wrongType (.notReport other))

def opened (i : Item) : Except Error Fetched :=
  match i.sort with
  | .cursor => i.outcome
  | .row => .ok .batch
  | other => .error (.wrongType (.notCursor other))

/-- The item after a fetch. -/
def afterFetch : Item → Item
  | .cursor c => .cursor c.fetch.2
  | i => i

def fetched (i : Item) : Except Error Fetched :=
  match i.sort with
  | .cursor => i.afterFetch.outcome
  | other => .error (.wrongType (.notCursor other))

/-- The rows that a copy takes. -/
def copy : Item → Except Error Rows
  | .cursor c =>
    match c.current with
    | some rows => .ok rows
    | none => .error (Item.cursor c).error
  | .built _ rows _ => .ok rows
  | i => .error (.wrongType (.notRows i.sort))

def info (i : Item) : Workspace.ResultInfo :=
  ⟨i.sort, i.isOk, i.code, i.details.getD QueryResult.noDetails, i.atEnd⟩

/-- The items that replies make, by the kind that they show. -/
theorem Plain.cases {i : Item} (h : i.Plain) :
    (∃ c, i = .cursor c ∧ i.sort = .cursor) ∨
    (∃ cap rows row, i = .built cap rows row ∧ i.sort = .row) ∨
    (∃ kind ok code details report, i = .result kind ok code details report ∧
      i.sort = kind ∧ (kind = .status ∨ kind = .report)) := by
  cases i with
  | cursor c => exact Or.inl ⟨c, rfl, rfl⟩
  | built cap rows row => exact Or.inr (Or.inl ⟨cap, rows, row, rfl, rfl⟩)
  | result kind ok code details report =>
    refine Or.inr (Or.inr ⟨kind, ok, code, details, report, rfl, ?_, h⟩)
    rcases h with rfl | rfl <;> rfl
  | connection | batch => exact h.elim

theorem Plain.afterFetch {i : Item} (h : i.Plain) : i.afterFetch.Plain := by
  cases i <;> trivial

end Item

theorem Reply.item_plain {r : Reply} {i : Item} (h : r.item = .ok i) : i.Plain := by
  cases r <;> simp only [Reply.item, Except.ok.injEq, reduceCtorEq] at h <;> subst h <;>
    simp [Item.Plain]

theorem CursorState.proceed_ok (c : CursorState) (h : c.proceed.2.ok) :
    c.proceed.1 = Code.ok := by
  unfold CursorState.proceed at h ⊢
  split at h
  · rfl
  · exact absurd h (by simp)

/-- A fetch that leaves a cursor in order returned no error. -/
theorem CursorState.fetch_ok (c : CursorState) (h : c.fetch.2.ok) : c.fetch.1 = Code.ok := by
  unfold CursorState.fetch at h ⊢
  cases hf : c.failure with
  | none =>
    rw [hf] at h
    exact proceed_ok _ h
  | some failure =>
    obtain ⟨n, code⟩ := failure
    simp only [hf] at h ⊢
    split at h
    · exact absurd h (by simp)
    · next hn =>
      rw [if_neg hn]
      exact proceed_ok _ h

end Server

/-- A result that has read its kind from its item. -/
def QueryResult.learned (r : QueryResult) (i : Server.Item) : QueryResult :=
  { r with known := some i.sort }

namespace Server

/-! ## Results on the server -/

/-- The result `r` is alive in the world, with the item `i` under its handle, and what
it knows of its kind is right. -/
structure Stands (w : World State) (r : QueryResult) (i : Item) : Prop where
  bounded : ∀ n, w.lib.last < n → w.lib.objects.get? n = none
  there : w.lib.objects.get? r.handle.number = some i
  plain : i.Plain
  known : ∀ k, r.known = some k → k = i.sort

/-- The session of a result is open, if it has one. -/
def Talks (w : World State) (r : QueryResult) : Prop :=
  ∀ id, r.session = some id → (w.line id).isSome

variable {w : World State} {r : QueryResult} {i : Item}

theorem inspect_of_live {α : Type} {h : Handle} {s : State}
    (hget : s.objects.get? h.number = some i) (operation : String) (missing : α)
    (f : Item → α) : inspect operation missing f h s = (f i, s) := by
  show (((get h operation s).1.map f).getD missing, (get h operation s).2) = _
  rw [get_of_live hget]
  rfl

theorem openCursor_of_live {h : Handle} {s : State} {c : CursorState}
    (hget : s.objects.get? h.number = some (.cursor c)) :
    openCursor h s = (if c.ok then Code.ok else c.code, s) := by
  rw [openCursor, bind_apply, get_of_live hget]
  rfl

theorem fetch_of_live {h : Handle} {s : State} {c : CursorState}
    (hget : s.objects.get? h.number = some (.cursor c)) :
    fetch h s = (c.fetch.1, { s with
      fetches := s.fetches + 1
      objects := s.objects.set h.number (.cursor c.fetch.2) }) := by
  have found := get_of_live (s := { s with fetches := s.fetches + 1 }) hget "cursor_fetch"
  rw [fetch, bind_apply]
  show (get h "cursor_fetch" >>= _) { s with fetches := s.fetches + 1 } = _
  rw [bind_apply, found]
  rfl

/-- The world after a copy of rows was taken. -/
def copying (w : World State) (rows : Rows) : World State :=
  { w with lib := (alloc (.batch rows 0) w.lib).2 }

theorem copyBatch_of_live {h : Handle} {s : State} {c : CursorState}
    (hget : s.objects.get? h.number = some (.cursor c)) : copyBatch h s = match c.current with
      | some rows => (some ⟨s.last + 1⟩, (alloc (.batch rows 0) s).2)
      | none => (none, s) := by
  rw [copyBatch, bind_apply, get_of_live hget]
  dsimp only
  cases c.current <;> rfl

theorem copyRow_of_live {h : Handle} {s : State} {cap : Int32} {rows : Rows} {row : Row}
    (hget : s.objects.get? h.number = some (.built cap rows row)) :
    copyRow h s = (some ⟨s.last + 1⟩, (alloc (.batch rows 0) s).2) := by
  rw [copyRow, bind_apply, get_of_live hget]
  rfl

/-- The world after a handle was released. -/
def freed (w : World State) (h : Handle) : World State :=
  { w with lib := (markReleased h (remove h w.lib).2).2 }

theorem freed_get? (h : Handle) (n : Nat) : (freed w h).lib.objects.get? n =
    if n = h.number then none else w.lib.objects.get? n :=
  Table.get?_erase _ n h.number

/-- The call that makes a request. -/
def requested : Request → Handle → StateM State Code
  | .opening, h => openCursor h
  | .fetching, h => fetch h

/-- The world after a fetch on a result. -/
def refetched (w : World State) (h : Handle) : Item → World State
  | .cursor c => { w with lib := { w.lib with
      fetches := w.lib.fetches + 1
      objects := w.lib.objects.set h.number (.cursor c.fetch.2) } }
  | _ => w

theorem refetched_get? {h : Handle} (hget : w.lib.objects.get? h.number = some i) (n : Nat) :
    (refetched w h i).lib.objects.get? n =
      if n = h.number then some i.afterFetch else w.lib.objects.get? n := by
  by_cases hn : n = h.number
  · rw [if_pos hn, hn]
    cases i with
    | cursor c => exact (Table.get?_set _ _ _ _).trans (by rw [if_pos rfl, hget]; rfl)
    | connection | result | batch | built => exact hget
  · rw [if_neg hn]
    cases i with
    | cursor c => exact (Table.get?_set _ _ _ _).trans (if_neg hn)
    | connection | result | batch | built => rfl

namespace Stands

theorem call_inspect {α : Type} (hs : Stands w r i) (operation : String) (missing : α)
    (f : Item → α) : call (inspect operation missing f r.handle) w = (f i, w) := by
  rw [call_apply, inspect_of_live hs.there]

theorem kind_eq (hs : Stands w r i) : r.kind library w = ((i.sort, r.learned i), w) := by
  have called : call (library.results.kind r.handle) w = (i.kind, w) :=
    hs.call_inspect _ _ _
  have known := hs.known
  obtain ⟨handle, _ | k, session⟩ := r
  · show (call (library.results.kind handle) >>= fun tag =>
      pure (ResultKind.ofTag tag, (⟨handle, some (ResultKind.ofTag tag), session⟩ : QueryResult)))
        w = _
    rw [bind_apply, called]
    rfl
  · obtain rfl := known k rfl
    rfl

theorem isOk_eq (hs : Stands w r i) : r.isOk library w = (i.isOk, w) := hs.call_inspect _ _ _

theorem code_eq (hs : Stands w r i) : r.code library w = (i.code, w) := hs.call_inspect _ _ _

theorem atEnd_eq (hs : Stands w r i) : r.atEnd library w = (i.atEnd, w) := hs.call_inspect _ _ _

theorem details_eq (hs : Stands w r i) :
    r.details library w = (i.details.getD QueryResult.noDetails, w) := by
  have called : call (library.results.details r.handle) w = (i.details, w) :=
    hs.call_inspect _ _ _
  rw [QueryResult.details, bind_apply, called]
  rfl

theorem error_eq (hs : Stands w r i) : r.error library w = (i.error, w) := by
  rw [QueryResult.error, bind_apply, hs.code_eq, bind_apply, hs.details_eq]
  rfl

theorem failure?_eq (hs : Stands w r i) : r.failure? library w = (i.failure?, w) := by
  rw [QueryResult.failure?, bind_apply, hs.code_eq]
  dsimp only
  unfold Item.failure?
  split
  · rfl
  · rw [bind_apply, hs.details_eq]
    rfl

theorem check_eq (hs : Stands w r i) : r.check library w = (i.check, w) := by
  rw [QueryResult.check, bind_apply, hs.isOk_eq]
  dsimp only
  unfold Item.check
  split
  · rfl
  · rw [bind_apply, hs.failure?_eq]
    dsimp only
    cases i.failure? <;> rfl

theorem learned (hs : Stands w r i) : Stands w (r.learned i) i where
  bounded := hs.bounded
  there := hs.there
  plain := hs.plain
  known := fun _ hk => (Option.some.inj hk).symm

theorem report_eq (hs : Stands w r i) :
    r.report library w = ((i.reported, r.learned i), w) := by
  rw [QueryResult.report, bind_apply, hs.kind_eq]
  dsimp only
  unfold Item.reported
  cases i.sort with
  | report =>
    have called : call (library.results.report (r.learned i).handle) w = (i.report, w) :=
      hs.learned.call_inspect _ _ _
    dsimp only
    rw [bind_apply, called]
    rfl
  | nothing | status | row | cursor | unknown => rfl

theorem info_eq (hs : Stands w r i) :
    Workspace.resultInfo installation r w = ((i.info, r.learned i), w) := by
  simp only [Workspace.resultInfo, installation_library, bind_apply, pure_apply, hs.kind_eq,
    hs.learned.isOk_eq, hs.learned.code_eq, hs.learned.details_eq, hs.learned.atEnd_eq]
  rfl

/-! ### Requests -/

theorem canTalk_eq (ht : Talks w r) : r.canTalk w = (true, w) := by
  obtain ⟨handle, known, _ | id⟩ := r
  · rfl
  · have hopen := ht id rfl
    show ((w.line id).isSome, w) = _
    rw [hopen]

theorem classify_eq (hs : Stands w r i) (code : Code) (what : Request)
    (hcode : i.isOk → code = Code.ok) :
    r.classify library code what w = (i.outcome, w) := by
  rw [QueryResult.classify, bind_apply, hs.isOk_eq]
  dsimp only
  unfold Item.outcome
  cases hok : i.isOk with
  | true =>
    rw [if_pos ⟨hcode hok, rfl⟩]
    rfl
  | false =>
    rw [if_neg (by simp), if_pos (by simp), bind_apply, hs.failure?_eq]
    dsimp only
    cases i.failure? <;> rfl

theorem request_eq {w' : World State} {i' : Item} (ht : Talks w r) (what : Request)
    {code : Code} (hcall : call (requested what r.handle) w = (code, w'))
    (hs' : Stands w' r i') (hcode : i'.isOk → code = Code.ok) :
    r.request library what w = (i'.outcome, w') := by
  have talked : r.request library what w =
      r.classify library (call (requested what r.handle) w).1 what
        (call (requested what r.handle) w).2 := by
    unfold QueryResult.request
    rw [bind_apply, canTalk_eq ht]
    cases what <;> rfl
  rw [talked, hcall]
  exact hs'.classify_eq code what hcode

theorem openRows_eq (hs : Stands w r i) (ht : Talks w r) :
    r.openRows library w = ((i.opened, r.learned i), w) := by
  rw [QueryResult.openRows, bind_apply, hs.kind_eq]
  dsimp only
  rcases hs.plain.cases with ⟨c, hi, hsort⟩ | ⟨_, _, _, hi, hsort⟩ |
    ⟨kind, _, _, _, _, hi, hsort, hkind⟩
  · have opened : call (openCursor r.handle) w = (if c.ok then Code.ok else c.code, w) := by
      rw [call_apply, openCursor_of_live (hi ▸ hs.there)]
    have asked := request_eq (r := r.learned i) ht .opening opened hs.learned fun hok => by
      rw [hi] at hok
      exact if_pos hok
    rw [Item.opened, hsort]
    dsimp only
    rw [bind_apply, asked]
    rfl
  · rw [Item.opened, hsort]
    rfl
  · rw [Item.opened, hsort]
    rcases hkind with rfl | rfl <;> rfl

theorem refetched (hs : Stands w r i) : Stands (Server.refetched w r.handle i) r i.afterFetch where
  bounded := by
    intro n hn
    have hn : w.lib.last < n := by
      cases i <;> exact hn
    have hne : n ≠ r.handle.number := by
      rintro rfl
      have := hs.there
      rw [hs.bounded _ hn] at this
      exact absurd this (by simp)
    rw [refetched_get? hs.there, if_neg hne]
    exact hs.bounded n hn
  there := by rw [refetched_get? hs.there, if_pos rfl]
  plain := hs.plain.afterFetch
  known := by
    intro k hk
    rw [hs.known k hk]
    cases i <;> rfl

theorem fetch_eq (hs : Stands w r i) (ht : Talks w r) :
    r.fetch library w = ((i.fetched, r.learned i), Server.refetched w r.handle i) := by
  rw [QueryResult.fetch, bind_apply, hs.kind_eq]
  dsimp only
  rcases hs.plain.cases with ⟨c, hi, hsort⟩ | ⟨_, _, _, hi, hsort⟩ |
    ⟨kind, _, _, _, _, hi, hsort, hkind⟩
  -- only a cursor is fetched from; the others are refused by their kind
  · have fetched : call (fetch r.handle) w = (c.fetch.1, Server.refetched w r.handle i) := by
      rw [call_apply, fetch_of_live (hi ▸ hs.there), hi]
      rfl
    have asked := request_eq (r := r.learned i) ht .fetching fetched hs.learned.refetched
      fun hok => by
        rw [hi] at hok
        exact c.fetch_ok hok
    rw [Item.fetched, hsort]
    dsimp only
    rw [bind_apply, asked]
    rfl
  · rw [Item.fetched, hsort, hi]
    rfl
  · rw [Item.fetched, hsort, hi]
    rcases hkind with rfl | rfl <;> rfl

/-! ### Copies -/

theorem batchOf_none_eq (hs : Stands w r i) :
    r.batchOf library none w = (.error i.error, w) := by
  rw [QueryResult.batchOf, bind_apply, hs.error_eq]
  rfl

theorem row_eq (hs : Stands w r i) : r.row library w = match i.copy with
    | .ok rows => ((.ok ⟨⟨w.lib.last + 1⟩⟩, r.learned i), copying w rows)
    | .error e => ((.error e, r.learned i), w) := by
  rw [QueryResult.row, bind_apply, hs.kind_eq]
  dsimp only
  rcases hs.plain.cases with ⟨c, rfl, hsort⟩ | ⟨cap, rows, row, rfl, hsort⟩ |
    ⟨kind, _, _, _, _, rfl, hsort, hkind⟩
  · rw [hsort]
    have copied : call (copyBatch r.handle) w = (match c.current with
        | some rows => (some ⟨w.lib.last + 1⟩, copying w rows)
        | none => (none, w)) := by
      rw [call_apply, copyBatch_of_live hs.there]
      cases c.current <;> rfl
    show (call (copyBatch r.handle) >>= fun made =>
      (r.learned (.cursor c)).batchOf library made >>= fun b => pure (b, _)) w = _
    rw [bind_apply, copied, Item.copy]
    cases c.current with
    | some rows => rfl
    | none =>
      show ((r.learned (.cursor c)).batchOf library none >>= fun b => pure (b, _)) w = _
      rw [bind_apply, hs.learned.batchOf_none_eq]
      rfl
  · rw [hsort]
    have copied : call (copyRow r.handle) w = (some ⟨w.lib.last + 1⟩, copying w rows) := by
      rw [call_apply, copyRow_of_live hs.there]
      rfl
    show (call (copyRow r.handle) >>= fun made =>
      (r.learned (.built cap rows row)).batchOf library made >>= fun b => pure (b, _)) w = _
    rw [bind_apply, copied]
    rfl
  · rw [hsort, Item.copy, hsort]
    · rcases hkind with rfl | rfl <;> rfl
    · exact fun _ h => by cases h
    · exact fun _ _ _ h => by cases h

theorem copying_get? (hs : Stands w r i) (rows : Rows) (n : Nat) :
    (copying w rows).lib.objects.get? n =
      if n = w.lib.last + 1 then some (.batch rows 0) else w.lib.objects.get? n :=
  Table.get?_snoc _ n _ _ (hs.bounded _ (Nat.lt_succ_self _))

theorem le_last (hs : Stands w r i) : r.handle.number ≤ w.lib.last := by
  by_contra hlt
  have := hs.there
  rw [hs.bounded _ (Nat.lt_of_not_le hlt)] at this
  exact absurd this (by simp)

theorem copied (hs : Stands w r i) (rows : Rows) : Stands (copying w rows) r i where
  bounded := by
    intro n hn
    have hn : w.lib.last + 1 < n := hn
    rw [hs.copying_get?, if_neg (by omega)]
    exact hs.bounded n (by omega)
  there := by
    have := hs.le_last
    rw [hs.copying_get?, if_neg (by omega)]
    exact hs.there
  plain := hs.plain
  known := hs.known

theorem freed (hs : Stands w r i) {h : Handle} (hne : h ≠ r.handle) :
    Stands (Server.freed w h) r i where
  bounded := by
    intro n hn
    rw [freed_get?]
    split
    · rfl
    · exact hs.bounded n hn
  there := by
    have : r.handle.number ≠ h.number := fun heq => hne (congrArg Handle.mk heq.symm)
    rw [freed_get?, if_neg this]
    exact hs.there
  plain := hs.plain
  known := hs.known

end Stands

/-! ## Batches on the server -/

section Batches

variable {b : Batch} {rows : Rows} {pos : Nat}

/-- The row that a batch is at, empty past the end. -/
def rowAt (rows : Rows) (pos : Nat) : Row := rows[pos]?.getD []

/-- The world after a batch has gone to another row. -/
def turned (w : World State) (h : Handle) (rows : Rows) (pos : Nat) : World State :=
  { w with lib := { w.lib with objects := w.lib.objects.set h.number (.batch rows pos) } }

theorem turned_get? (hget : w.lib.objects.get? b.handle.number = some (.batch rows pos))
    (pos' n : Nat) : (turned w b.handle rows pos').lib.objects.get? n =
      if n = b.handle.number then some (.batch rows pos') else w.lib.objects.get? n := by
  refine (Table.get?_set _ n b.handle.number _).trans ?_
  rw [hget]
  rfl

/-- A result does not notice that a batch goes to another row. -/
theorem Stands.turned (hs : Stands w r i) (hne : b.handle ≠ r.handle)
    (hget : w.lib.objects.get? b.handle.number = some (.batch rows pos)) (pos' : Nat) :
    Stands (Server.turned w b.handle rows pos') r i where
  bounded := by
    intro n hn
    have hn : w.lib.last < n := hn
    have hnb : n ≠ b.handle.number := by
      rintro rfl
      rw [hs.bounded _ hn] at hget
      exact absurd hget (by simp)
    rw [turned_get? hget, if_neg hnb]
    exact hs.bounded n hn
  there := by
    have : r.handle.number ≠ b.handle.number := fun heq => hne (congrArg Handle.mk heq.symm)
    rw [turned_get? hget, if_neg this]
    exact hs.there
  plain := hs.plain
  known := hs.known

theorem batch_next_eq (hget : w.lib.objects.get? b.handle.number = some (.batch rows pos)) :
    b.next library w = (decide (pos + 1 < rows.length), turned w b.handle rows (pos + 1)) := by
  show call (nextRow b.handle) w = _
  have run : nextRow b.handle w.lib = (decide (pos + 1 < rows.length),
      { w.lib with objects := w.lib.objects.set b.handle.number (.batch rows (pos + 1)) }) := by
    rw [nextRow, bind_apply, get_of_live hget]
    rfl
  rw [call_apply, run]
  rfl

theorem batch_count_eq (hget : w.lib.objects.get? b.handle.number = some (.batch rows pos)) :
    b.count library w = ((rowAt rows pos).length, w) := by
  show call (inspect _ _ _ _) w = _
  rw [call_apply, inspect_of_live hget]
  rfl

theorem batch_field_eq (hget : w.lib.objects.get? b.handle.number = some (.batch rows pos))
    (n : Nat) : b.field library n w = ((rowAt rows pos)[n]?.getD .null, w) := by
  show call (inspect _ _ _ _) w = _
  rw [call_apply, inspect_of_live hget]
  rfl

theorem mapM_eq {α β : Type} {f : α → Action State β} {g : α → β}
    (hf : ∀ a, f a w = (g a, w)) (l : List α) : l.mapM f w = (l.map g, w) := by
  induction l with
  | nil => rfl
  | cons a l ih =>
    rw [List.mapM_cons, bind_apply, hf, bind_apply, ih]
    rfl

/-- A row read field by field is the row. -/
theorem map_range_getD (row : Row) :
    (List.range row.length).map (fun n => row[n]?.getD .null) = row := by
  refine List.ext_getElem (by simp) fun n h₁ h₂ => ?_
  simp [h₂]

theorem batch_row_eq (hget : w.lib.objects.get? b.handle.number = some (.batch rows pos)) :
    b.row library w = (rowAt rows pos, w) := by
  rw [Batch.row, bind_apply, batch_count_eq hget]
  dsimp only
  rw [mapM_eq (batch_field_eq hget), map_range_getD]

theorem batch_release_eq
    (hget : w.lib.objects.get? b.handle.number = some (.batch rows pos)) :
    b.release library w = ((), freed w b.handle) := by
  show call (release b.handle .row) w = _
  rw [call_apply, release_of_live hget]
  rfl

end Batches

/-! ## Copies of any result -/

section Copies

variable {h b : Handle} {s : State}

theorem copyBatch_gives (hget : s.objects.get? h.number = some i)
    (fresh : s.objects.get? (s.last + 1) = none) (hb : (copyBatch h s).1 = some b) :
    ∃ rows, (copyBatch h s).2.objects.get? b.number = some (.batch rows 0) := by
  cases i with
  | cursor c =>
    rw [copyBatch_of_live hget] at hb ⊢
    cases hc : c.current with
    | none =>
      rw [hc] at hb
      exact absurd hb (by simp)
    | some rows =>
      rw [hc] at hb
      obtain rfl : ⟨s.last + 1⟩ = b := Option.some.inj hb
      exact ⟨rows, (Table.get?_snoc _ _ _ _ fresh).trans (if_pos rfl)⟩
  | connection | result | batch | built =>
    have run : copyBatch h s = (none, s) := by
      rw [copyBatch, bind_apply, get_of_live hget]
      rfl
    rw [run] at hb
    exact absurd hb (by simp)

theorem copyRow_gives (hget : s.objects.get? h.number = some i)
    (fresh : s.objects.get? (s.last + 1) = none) (hb : (copyRow h s).1 = some b) :
    ∃ rows, (copyRow h s).2.objects.get? b.number = some (.batch rows 0) := by
  rw [copyRow, bind_apply, get_of_live hget] at hb ⊢
  cases i with
  | batch rows | built _ rows =>
    obtain rfl : ⟨s.last + 1⟩ = b := Option.some.inj hb
    exact ⟨rows, (Table.get?_snoc _ _ _ _ fresh).trans (if_pos rfl)⟩
  | connection | result | cursor => cases hb

end Copies

end Server

open Server

/-- **Any batch that is copied** is a new one, at the first of its rows. -/
theorem QueryResult.row_gives_batch {w : World State} {r : QueryResult} {i : Item} {b : Batch}
    (hget : w.lib.objects.get? r.handle.number = some i)
    (fresh : w.lib.objects.get? (w.lib.last + 1) = none)
    (hb : (r.row library w).1.1 = .ok b) :
    ∃ rows, (r.row library w).2.lib.objects.get? b.handle.number = some (.batch rows 0) := by
  have kind : ∃ k r', r.kind library w = ((k, r'), w) ∧ r'.handle = r.handle := by
    obtain ⟨handle, _ | k, session⟩ := r
    · have called : call (library.results.kind handle) w = (i.kind, w) := by
        rw [call_apply]
        exact congrArg (fun x : Int32 × State => (x.1, { w with lib := x.2 }))
          (inspect_of_live hget "result_kind" 0 Item.kind)
      refine ⟨.ofTag i.kind, ⟨handle, some (.ofTag i.kind), session⟩, ?_, rfl⟩
      show (call (library.results.kind handle) >>= fun tag =>
        pure (ResultKind.ofTag tag, (⟨handle, some (ResultKind.ofTag tag), session⟩ :
          QueryResult))) w = _
      rw [bind_apply, called]
      rfl
    · exact ⟨k, _, rfl, rfl⟩
  obtain ⟨k, r', hkind, hsame⟩ := kind
  -- whichever call makes the copy, the batch is the handle that it gave
  have made {act : StateM State (Option Handle)}
      (hact : ∀ h, (act w.lib).1 = some h →
        ∃ rows, (act w.lib).2.objects.get? h.number = some (.batch rows 0))
      (hrun : r.row library w = (call act >>= fun made =>
        r'.batchOf library made >>= fun b => pure (b, r')) w) :
      ∃ rows, (r.row library w).2.lib.objects.get? b.handle.number = some (.batch rows 0) := by
    rw [hrun, bind_apply] at hb ⊢
    rw [call_apply] at hb ⊢
    cases ho : (act w.lib).1 with
    | none =>
      rw [ho] at hb
      cases hb
    | some h =>
      rw [ho] at hb
      obtain rfl : (⟨h⟩ : Batch) = b := Except.ok.inj hb
      exact hact h ho
  have known {k' : ResultKind} (hk : k = k') : r.kind library w = ((k', r'), w) := hk ▸ hkind
  cases hk : k with
  | cursor =>
    refine made (fun h => copyBatch_gives (hsame ▸ hget) fresh) ?_
    rw [QueryResult.row, bind_apply, known hk]
    rfl
  | row =>
    refine made (fun h => copyRow_gives (hsame ▸ hget) fresh) ?_
    rw [QueryResult.row, bind_apply, known hk]
    rfl
  | nothing | status | report | unknown =>
    rw [QueryResult.row, bind_apply, known hk] at hb
    cases hb

end Querent
