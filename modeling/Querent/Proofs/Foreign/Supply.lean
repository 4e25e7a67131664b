import Querent.Proofs.Result.Iteration

/-!
# Iterating over a supply of batches

A library supplies the batches of a result if its calls do what is said here of
each place where the result can stand. The contract is on the calls that all
libraries have; how a library tells the end of data is left open. A cursor over
such a result yields the rows of the batches and no error.
-/

namespace Querent

/-! ## Supplies -/

/-- How a library tells that there is no more data. -/
inductive EndSignal where
  /-- the result has failed, with the code for the end of data -/
  | failed
  /-- the result is in order and its flag is set; the code of the fetch tells -/
  | flagged
  deriving DecidableEq, Repr

/-- Where a result stands that supplies batches. -/
inductive Supply where
  /-- nothing has been asked for yet -/
  | shut (batches : List (List Row))
  /-- open, and no batch has been fetched -/
  | opened (batches : List (List Row))
  /-- at a batch, with the ones that are still to come -/
  | holding (batch : List Row) (rest : List (List Row))
  | ended (signal : EndSignal)

/-- The result carries no error. -/
def Supply.isOk : Supply → Bool
  | ended .failed => false
  | _ => true

theorem Supply.eq_failed {p : Supply} (h : p.isOk = false) : p = .ended .failed := by
  unfold isOk at h
  split at h
  · rfl
  · cases h

/-- What a library has in stock for a result. -/
structure Stock where
  supply : Supply
  /-- the copy of a batch that is alive, with its rows from the one at hand on -/
  copy : Option (Handle × List Row)

/-- What a request for the first of `batches` comes to: that batch, or the end. Where
only the flag is set, the code is one of those that `signals` has. -/
def Supplied {κ : Type} [OfNat κ 0] (signals : κ → Prop) (batches : List (List Row))
    (code : κ) (v : Stock) : Prop :=
  match batches with
  | b :: rest => code = 0 ∧ v = ⟨.holding b rest, none⟩
  | [] => ∃ signal, (signal = .flagged → signals code) ∧ v = ⟨.ended signal, none⟩

/-! ## Steps on a stock -/

variable {σ α β : Type}

/-- In a state that shows the stock `v`, the step gives an answer, and leaves a stock,
that are as `φ` says. -/
def Meets (Shows : σ → Stock → Prop) (act : StateM σ α) (v : Stock)
    (φ : α → Stock → Prop) : Prop :=
  ∀ s, Shows s v → ∃ v', Shows (act s).2 v' ∧ φ (act s).1 v'

/-- The step tells `a` and leaves the stock as it is. -/
def Tells (Shows : σ → Stock → Prop) (act : StateM σ α) (v : Stock) (a : α) : Prop :=
  Meets Shows act v fun x v' => x = a ∧ v' = v

namespace Meets

variable {Shows : σ → Stock → Prop} {act : StateM σ α} {v : Stock}
  {φ ψ : α → Stock → Prop}

theorem pure {a : α} (h : φ a v) : Meets Shows (Pure.pure a : StateM σ α) v φ :=
  fun _ hs => ⟨v, hs, h⟩

theorem bind {f : α → StateM σ β} {χ : β → Stock → Prop} (ha : Meets Shows act v φ)
    (hf : ∀ a v', φ a v' → Meets Shows (f a) v' χ) : Meets Shows (act >>= f) v χ := by
  intro s hs
  obtain ⟨v', hs', hφ⟩ := ha s hs
  exact hf _ v' hφ _ hs'

/-- What was told is known from there on. -/
theorem tell_bind {a : α} {f : α → StateM σ β} {χ : β → Stock → Prop}
    (ha : Tells Shows act v a) (hf : Meets Shows (f a) v χ) : Meets Shows (act >>= f) v χ := by
  refine bind ha ?_
  rintro x v' ⟨rfl, rfl⟩
  exact hf

theorem imp (ha : Meets Shows act v φ) (h : ∀ a v', φ a v' → ψ a v') :
    Meets Shows act v ψ := by
  intro s hs
  obtain ⟨v', hs', hφ⟩ := ha s hs
  exact ⟨v', hs', h _ _ hφ⟩

/-- Steps that tell something, one after the other. -/
theorem mapM {ι : Type} {f : ι → StateM σ α} {g : ι → α} :
    {l : List ι} → (∀ i ∈ l, Tells Shows (f i) v (g i)) → Tells Shows (l.mapM f) v (l.map g)
  | [], _ => by
    rw [List.mapM_nil]
    exact pure ⟨rfl, rfl⟩
  | i :: l, h => by
    rw [List.mapM_cons]
    refine tell_bind (h i List.mem_cons_self) ?_
    refine tell_bind (mapM fun j hj => h j (List.mem_cons_of_mem i hj)) ?_
    exact pure ⟨rfl, rfl⟩

end Meets

/-! ## The contract -/

/-- The calls supply the batches of the result `h`, in states that `Shows` relates to
what is in stock. With the batches `bs` the result stands at `first bs` before it is
opened; it can have failed by then only if there is no batch. -/
structure ResultCalls.Supplies (R : ResultCalls σ) (h : Handle)
    (first : List (List Row) → Supply) (Shows : σ → Stock → Prop) : Prop where
  none_of_failed : ∀ bs, first bs = .ended .failed → bs = []
  isOk : ∀ v, Tells Shows (R.isOk h) v v.supply.isOk
  kind : ∀ v, v.supply.isOk →
    Meets Shows (R.kind h) v fun tag v' => ResultKind.ofTag tag = .cursor ∧ v' = v
  code : ∀ copy, Tells Shows (R.code h) ⟨.ended .failed, copy⟩ Code.endOfData
  atEnd : ∀ copy, Tells Shows (R.atEnd h) ⟨.ended .flagged, copy⟩ true
  openCursor : ∀ bs, (first bs).isOk →
    Meets Shows (R.openCursor h) ⟨first bs, none⟩ (Supplied (· ≠ 0) bs)
  fetch : ∀ b bs, Meets Shows (R.fetch h) ⟨.holding b bs, none⟩ (Supplied (· ≠ 0) bs)
  copyBatch : ∀ b bs, Meets Shows (R.copyBatch h) ⟨.holding b bs, none⟩ fun copy v' =>
    ∃ c, copy = some c ∧ v' = ⟨.holding b bs, some (c, b)⟩
  /-- past the last row the copy is only good for being released -/
  nextRow : ∀ p c row rows, Meets Shows (R.nextRow c) ⟨p, some (c, row :: rows)⟩ fun more v' =>
    more = !rows.isEmpty ∧ ∃ left, v' = ⟨p, some (c, left)⟩ ∧ (rows ≠ [] → left = rows)
  fieldCount : ∀ p c row rows,
    Tells Shows (R.fieldCount c) ⟨p, some (c, row :: rows)⟩ row.length
  field : ∀ p c row rows i, (hi : i < row.length) →
    Tells Shows (R.field c i) ⟨p, some (c, row :: rows)⟩ row[i]
  release : ∀ p c left, Meets Shows (R.release c .row) ⟨p, some (c, left)⟩ fun _ v' =>
    v' = ⟨p, none⟩

/-! ## Cursors over a supply -/

section Iteration

variable {L : Library σ} {h : Handle} {first : List (List Row) → Supply}
  {Shows : σ → Stock → Prop} {sessions : List Session}

/-- The world shows a stock if its library does; the sessions do not change. -/
def Displays (Shows : σ → Stock → Prop) (sessions : List Session) (w : World σ) (v : Stock) :
    Prop :=
  Shows w.lib v ∧ w.sessions = sessions

theorem Meets.call {act : StateM σ α} {v : Stock} {φ : α → Stock → Prop}
    (ha : Meets Shows act v φ) : Meets (Displays Shows sessions) (Querent.call act) v φ := by
  rintro w ⟨hw, hsessions⟩
  obtain ⟨v', hv', hφ⟩ := ha w.lib hw
  exact ⟨v', ⟨hv', hsessions⟩, hφ⟩

/-- The result `h`, as a cursor whose connection, if it has one, is open. -/
structure QueryResult.Usable (h : Handle) (sessions : List Session) (r : QueryResult) :
    Prop where
  handle : r.handle = h
  known : ∀ k, r.known = some k → k = .cursor
  talks : ∀ id, r.session = some id → (sessions[id]?.bind (·.handle)).isSome

namespace QueryResult

variable {r : QueryResult} {v : Stock}

theorem canTalk_tells (hr : r.Usable h sessions) :
    Tells (Displays Shows sessions) (r.canTalk : Action σ Bool) v true := by
  unfold canTalk
  split
  · exact Meets.pure ⟨rfl, rfl⟩
  · next id hs =>
    rintro w ⟨hw, rfl⟩
    exact ⟨v, ⟨hw, rfl⟩, hr.talks id hs, rfl⟩

variable (hL : L.results.Supplies h first Shows)
include hL

theorem isOk_tells (hr : r.Usable h sessions) :
    Tells (Displays Shows sessions) (r.isOk L) v v.supply.isOk := by
  refine Meets.call ?_
  rw [hr.handle]
  exact hL.isOk v

theorem kind_meets (hr : r.Usable h sessions) (hv : v.supply.isOk) :
    Meets (Displays Shows sessions) (r.kind L) v fun x v' =>
      x.1 = .cursor ∧ x.2.Usable h sessions ∧ v' = v := by
  unfold kind
  split
  · next k hk => exact Meets.pure ⟨hr.known k hk, hr, rfl⟩
  · refine Meets.bind (Meets.call (hr.handle ▸ hL.kind v hv)) ?_
    rintro tag v' ⟨htag, rfl⟩
    refine Meets.pure ⟨htag, ⟨hr.handle, fun k hk => ?_, hr.talks⟩, rfl⟩
    exact (Option.some.inj hk).symm.trans htag

/-- How a request for the first of `batches` is reported. -/
def Reported (batches : List (List Row)) (x : Except Error Fetched) (v : Stock) : Prop :=
  match batches with
  | b :: rest => x = .ok .batch ∧ v = ⟨.holding b rest, none⟩
  | [] => x = .ok .endOfData ∧ ∃ signal, v = ⟨.ended signal, none⟩

/-- Both signals are the end of data, and none is an error. -/
theorem classify_meets (hr : r.Usable h sessions) {bs : List (List Row)} {code : Code}
    (what : Request) (hv : Supplied (· ≠ 0) bs code v) :
    Meets (Displays Shows sessions) (r.classify L code what) v (Reported bs) := by
  refine Meets.tell_bind (isOk_tells hL hr) ?_
  cases bs with
  | cons b rest =>
    obtain ⟨rfl, rfl⟩ := hv
    rw [if_pos ⟨rfl, rfl⟩]
    exact Meets.pure ⟨rfl, rfl⟩
  | nil =>
    obtain ⟨signal, hcode, rfl⟩ := hv
    cases signal with
    | failed =>
      have hfailed :
          Tells (Displays Shows sessions) (r.failure? L) ⟨.ended .failed, none⟩ none := by
        refine Meets.tell_bind (Meets.call (hr.handle ▸ hL.code none)) ?_
        rw [if_pos rfl]
        exact Meets.pure ⟨rfl, rfl⟩
      rw [if_neg (fun hok => Bool.false_ne_true hok.2), if_pos (by rfl)]
      refine Meets.tell_bind hfailed ?_
      exact Meets.pure ⟨rfl, _, rfl⟩
    | flagged =>
      rw [if_neg (fun hok => hcode rfl hok.1), if_neg (by decide)]
      refine Meets.tell_bind (Meets.call (hr.handle ▸ hL.atEnd none)) ?_
      rw [if_pos rfl]
      exact Meets.pure ⟨rfl, _, rfl⟩

theorem openRows_meets (hr : r.Usable h sessions) {bs : List (List Row)}
    (hbs : (first bs).isOk) :
    Meets (Displays Shows sessions) (r.openRows L) ⟨first bs, none⟩ fun x v' =>
      Reported bs x.1 v' ∧ x.2.Usable h sessions := by
  refine Meets.bind (kind_meets hL hr hbs) ?_
  rintro ⟨k, r'⟩ v' ⟨rfl, hr', rfl⟩
  refine Meets.bind (φ := Reported bs) ?_ (fun x v' hx => Meets.pure ⟨hx, hr'⟩)
  refine Meets.tell_bind (canTalk_tells hr') ?_
  rw [if_pos rfl]
  refine Meets.bind (Meets.call (hr'.handle ▸ hL.openCursor bs hbs)) fun code v' hcode => ?_
  exact classify_meets hL hr' .opening hcode

theorem fetch_meets (hr : r.Usable h sessions) (b : List Row) (bs : List (List Row)) :
    Meets (Displays Shows sessions) (r.fetch L) ⟨.holding b bs, none⟩ fun x v' =>
      Reported bs x.1 v' ∧ x.2.Usable h sessions := by
  refine Meets.bind (kind_meets hL hr rfl) ?_
  rintro ⟨k, r'⟩ v' ⟨rfl, hr', rfl⟩
  refine Meets.bind (φ := Reported bs) ?_ (fun x v' hx => Meets.pure ⟨hx, hr'⟩)
  refine Meets.tell_bind (canTalk_tells hr') ?_
  rw [if_pos rfl]
  refine Meets.bind (Meets.call (hr'.handle ▸ hL.fetch b bs)) fun code v' hcode => ?_
  exact classify_meets hL hr' .fetching hcode

theorem row_meets (hr : r.Usable h sessions) (b : List Row) (bs : List (List Row)) :
    Meets (Displays Shows sessions) (r.row L) ⟨.holding b bs, none⟩ fun x v' =>
      x.2.Usable h sessions ∧ ∃ c, x.1 = .ok ⟨c⟩ ∧ v' = ⟨.holding b bs, some (c, b)⟩ := by
  refine Meets.bind (kind_meets hL hr rfl) ?_
  rintro ⟨k, r'⟩ v' ⟨rfl, hr', rfl⟩
  refine Meets.bind (Meets.call (hr'.handle ▸ hL.copyBatch b bs)) ?_
  rintro copy v' ⟨c, rfl, rfl⟩
  exact Meets.pure ⟨hr', c, rfl, rfl⟩

end QueryResult

/-- The row at hand is read field by field. -/
theorem Batch.row_tells (hL : L.results.Supplies h first Shows) (p : Supply) (c : Handle)
    (row : Row) (rows : List Row) :
    Tells (Displays Shows sessions) (Batch.row L ⟨c⟩) ⟨p, some (c, row :: rows)⟩ row := by
  refine Meets.tell_bind (Meets.call (hL.fieldCount p c row rows)) ?_
  have hrow : (List.range row.length).map (fun i => row[i]?.getD default) = row := by
    refine List.ext_getElem (by simp) fun i _ hi => ?_
    simp [List.getElem?_eq_getElem hi]
  refine (Meets.mapM (g := fun i => row[i]?.getD default) fun i hi => ?_).imp
    fun x v' hx => ⟨hx.1.trans hrow, hx.2⟩
  have hi : i < row.length := List.mem_range.mp hi
  rw [List.getElem?_eq_getElem hi]
  exact Meets.call (hL.field p c row rows i hi)

namespace Cursor

/-- The rows that a cursor over a supply has still to yield, by what is in stock. -/
inductive Owes (h : Handle) (first : List (List Row) → Supply) (sessions : List Session) :
    Cursor → Stock → List Row → Prop
  | pending (r n bs) : r.Usable h sessions → (∀ b ∈ bs, b ≠ []) →
    Owes h first sessions ⟨none, r, .pending, n⟩ ⟨first bs, none⟩ bs.flatten
  /-- on a row that has been yielded -/
  | reading (r n c b bs row left) : r.Usable h sessions → (∀ b ∈ bs, b ≠ []) →
    Owes h first sessions ⟨some ⟨c⟩, r, .reading, n⟩ ⟨.holding b bs, some (c, row :: left)⟩
      (left ++ bs.flatten)
  | done (r n v) : Owes h first sessions ⟨none, r, .done, n⟩ v []

/-- Where a cursor is that has looked for a row: on the first of those that it owed. -/
def Found (h : Handle) (sessions : List Session) (n : Nat) (owed : List Row)
    (x : Except Error Bool × Cursor) (v : Stock) : Prop :=
  match owed with
  | row :: rest => x.1 = .ok true ∧ ∃ r c b bs left p, r.Usable h sessions ∧
    (∀ b ∈ bs, b ≠ []) ∧ rest = left ++ bs.flatten ∧ x.2 = ⟨some ⟨c⟩, r, p, n⟩ ∧
    v = ⟨.holding b bs, some (c, row :: left)⟩
  | [] => x.1 = .ok false ∧ ∃ r p, x.2 = ⟨none, r, p, n⟩

variable (hL : L.results.Supplies h first Shows)
include hL

theorem afterRequest_meets {r : QueryResult} {p : Phase} {n : Nat} {bs : List (List Row)}
    {fetched : Except Error Fetched} {v : Stock} (hr : r.Usable h sessions)
    (hbs : ∀ b ∈ bs, b ≠ []) (hv : QueryResult.Reported bs fetched v) :
    Meets (Displays Shows sessions) (afterRequest L ⟨none, r, p, n⟩ fetched) v
      (Found h sessions n bs.flatten) := by
  cases bs with
  | nil =>
    obtain ⟨rfl, signal, rfl⟩ := hv
    exact Meets.pure ⟨rfl, r, p, rfl⟩
  | cons b bs =>
    obtain ⟨rfl, rfl⟩ := hv
    obtain ⟨row, left, rfl⟩ := List.exists_cons_of_ne_nil (hbs _ List.mem_cons_self)
    have hbs' : ∀ b ∈ bs, b ≠ [] := fun b hb => hbs b (List.mem_cons_of_mem _ hb)
    refine Meets.bind (QueryResult.row_meets hL hr _ bs) ?_
    rintro ⟨b', r'⟩ v' ⟨hr', c, rfl, rfl⟩
    exact Meets.pure ⟨rfl, r', c, _, bs, left, p, hr', hbs', rfl, rfl, rfl⟩

theorem start_meets {r : QueryResult} {n : Nat} {bs : List (List Row)}
    (hr : r.Usable h sessions) (hbs : ∀ b ∈ bs, b ≠ []) :
    Meets (Displays Shows sessions) (start L ⟨none, r, .pending, n⟩) ⟨first bs, none⟩
      (Found h sessions n bs.flatten) := by
  refine Meets.tell_bind (QueryResult.isOk_tells hL hr) ?_
  dsimp only
  cases hok : (first bs).isOk with
  | true =>
    refine Meets.bind (QueryResult.kind_meets hL hr hok) ?_
    rintro ⟨k, r'⟩ v' ⟨rfl, hr', rfl⟩
    refine Meets.bind (QueryResult.openRows_meets hL hr' hok) ?_
    rintro ⟨fetched, r''⟩ v' ⟨hv', hr''⟩
    exact afterRequest_meets hL hr'' hbs hv'
  | false =>
    -- the data ended before anything was asked for
    have hfirst : first bs = .ended .failed := Supply.eq_failed hok
    have hnil : bs = [] := hL.none_of_failed bs hfirst
    rw [hfirst, hnil]
    refine Meets.tell_bind (Meets.call (hr.handle ▸ hL.code none)) ?_
    exact Meets.pure ⟨rfl, r, .pending, rfl⟩

theorem advance_meets {r : QueryResult} {n : Nat} {c : Handle} {b : List Row}
    {bs : List (List Row)} {row : Row} {left : List Row} (hr : r.Usable h sessions)
    (hbs : ∀ b ∈ bs, b ≠ []) :
    Meets (Displays Shows sessions) (advance L ⟨some ⟨c⟩, r, .reading, n⟩)
      ⟨.holding b bs, some (c, row :: left)⟩ (Found h sessions n (left ++ bs.flatten)) := by
  refine Meets.bind (Meets.call (hL.nextRow _ c row left)) ?_
  rintro more v' ⟨rfl, rest, rfl, hrest⟩
  cases left with
  | cons row' left =>
    rw [hrest (List.cons_ne_nil _ _)]
    exact Meets.pure ⟨rfl, r, c, b, bs, left, .reading, hr, hbs, rfl, rfl, rfl⟩
  | nil =>
    -- the batch is exhausted; it is released before the next one is fetched
    refine Meets.bind (φ := fun c' v' => c' = ⟨none, r, .reading, n⟩ ∧ v' = ⟨.holding b bs, none⟩)
      ?_ ?_
    · refine Meets.bind (Meets.call (hL.release _ c rest)) ?_
      rintro _ v' rfl
      exact Meets.pure ⟨rfl, rfl⟩
    · rintro _ _ ⟨rfl, rfl⟩
      refine Meets.bind (QueryResult.kind_meets hL hr rfl) ?_
      rintro ⟨k, r'⟩ v' ⟨rfl, hr', rfl⟩
      refine Meets.bind (QueryResult.fetch_meets hL hr' b bs) ?_
      rintro ⟨fetched, r''⟩ v' ⟨hv', hr''⟩
      exact afterRequest_meets hL hr'' hbs hv'

/-- A cursor looks for the first row that it owes. -/
theorem position_meets {c : Cursor} {v : Stock} {owed : List Row}
    (hc : Owes h first sessions c v owed) :
    Meets (Displays Shows sessions) (c.position L) v (Found h sessions c.rows owed) := by
  cases hc with
  | pending r n bs hr hbs => exact start_meets hL hr hbs
  | reading r n c b bs row left hr hbs => exact advance_meets hL hr hbs
  | done r n v => exact Meets.pure ⟨rfl, r, .done, rfl⟩

/-- **One call yields one row that is owed**, or the end if none is. -/
theorem next_meets {c : Cursor} {v : Stock} {owed : List Row}
    (hc : Owes h first sessions c v owed) :
    Meets (Displays Shows sessions) (c.next L) v fun x v' =>
      match owed with
      | row :: rest => x.1 = .row row ∧ Owes h first sessions x.2 v' rest
      | [] => x.1 = .finished ∧ Owes h first sessions x.2 v' [] := by
  unfold next
  split
  · next hdone =>
    cases hc with
    | done r n v => exact Meets.pure ⟨rfl, .done r n v⟩
    | pending | reading => cases hdone
  · refine Meets.bind (position_meets hL hc) ?_
    rintro ⟨found, c'⟩ v' hfound
    cases owed with
    | nil =>
      obtain ⟨rfl, r, p, rfl⟩ := hfound
      exact Meets.pure ⟨rfl, .done r _ v'⟩
    | cons row rest =>
      obtain ⟨rfl, r, k, b, bs, left, p, hr, hbs, rfl, rfl, rfl⟩ := hfound
      refine Meets.tell_bind (Batch.row_tells hL _ k row left) ?_
      exact Meets.pure ⟨rfl, .reading r _ k b bs row left hr hbs⟩

end Cursor

end Iteration

/-! ## Whole iterations -/

/-- What is yielded in `n` calls where these rows are delivered without an error. -/
def delivery (rows : List Row) (n : Nat) : List Yield :=
  (rows.map Yield.row ++ List.replicate n Yield.finished).take n

theorem delivery_nil (n : Nat) : delivery [] n = List.replicate n .finished := by
  simp [delivery]

theorem delivery_cons (row : Row) (rows : List Row) (n : Nat) :
    delivery (row :: rows) (n + 1) = .row row :: delivery rows n := by
  have hmin : min (n - rows.length) (n + 1) = min (n - rows.length) n := by omega
  simp only [delivery, List.map_cons, List.cons_append, List.take_succ_cons, List.take_append,
    List.length_map, List.take_replicate, hmin]

namespace Cursor

/-- **A supply is delivered.** However often the cursor is asked, it yields the rows that
it owes and then the end. -/
theorem nexts_delivery {L : Library σ} {h : Handle} {first : List (List Row) → Supply}
    {Shows : σ → Stock → Prop} {sessions : List Session}
    (hL : L.results.Supplies h first Shows) (n : Nat) {c : Cursor}
    {v : Stock} {owed : List Row} {w : World σ} (hc : Owes h first sessions c v owed)
    (hw : Displays Shows sessions w v) : (nexts L n c w).1.1 = delivery owed n := by
  induction n generalizing c v owed w with
  | zero => rfl
  | succ n ih =>
    obtain ⟨v', hw', hnext⟩ := next_meets hL hc w hw
    rw [nexts_succ]
    cases owed with
    | nil =>
      obtain ⟨hyield, howes⟩ := hnext
      rw [hyield, ih howes hw', delivery_nil, delivery_nil, List.replicate_succ]
    | cons row rest =>
      obtain ⟨hyield, howes⟩ := hnext
      rw [hyield, ih howes hw', delivery_cons]

end Cursor

end Querent
