import Querent.Proofs.Action

/-!
# Iterating over any library

What a cursor keeps to itself, whatever the library answers: it holds a batch
exactly while it reads, and it goes on with the result that it took over. Then
whole iterations: rows, after them one error at most, and after that nothing
but the end, at which the world is left alone.
-/

namespace Querent

variable {σ : Type} (L : Library σ)

/-! ## Results -/

namespace QueryResult

/-- The two are the same result; one may know its kind. -/
def Same (r r' : QueryResult) : Prop := r'.handle = r.handle ∧ r'.session = r.session

theorem Same.refl (r : QueryResult) : r.Same r := ⟨rfl, rfl⟩

theorem Same.trans {r r' r'' : QueryResult} (h : r.Same r') (h' : r'.Same r'') : r.Same r'' :=
  ⟨h'.1.trans h.1, h'.2.trans h.2⟩

variable (r : QueryResult)

theorem kind_gives : Gives (r.kind L) fun x => Same r x.2 := by
  unfold kind
  split
  · exact Gives.pure ⟨rfl, rfl⟩
  · exact Gives.bind_any fun _ => Gives.pure ⟨rfl, rfl⟩

variable {L} in
/-- A result knows the kind that was read of it. -/
theorem known_of_kind {r r' : QueryResult} {k : ResultKind} {w w' : World σ}
    (h : r.kind L w = ((k, r'), w')) : r'.known = some k := by
  obtain ⟨handle, _ | known, session⟩ := r
  · cases h
    rfl
  · cases h
    rfl

variable {L} in
/-- A report has counters. -/
theorem report_of_known {r : QueryResult} (h : r.known = some .report) (w : World σ) :
    ∃ counters w', r.report L w = ((.ok counters, r), w') := by
  obtain ⟨handle, known, session⟩ := r
  obtain rfl : known = some .report := h
  exact ⟨_, _, rfl⟩

theorem report_gives : Gives (r.report L) fun x => Same r x.2 := by
  refine Gives.bind (kind_gives L r) fun (k, r') hr => ?_
  cases k with
  | report => exact Gives.bind_any fun _ => Gives.pure hr
  | nothing | status | row | cursor | unknown => exact Gives.pure hr

theorem row_gives : Gives (r.row L) fun x => Same r x.2 := by
  refine Gives.bind (kind_gives L r) fun (k, r') hr => ?_
  cases k with
  | cursor => exact Gives.bind_any fun _ => Gives.bind_any fun _ => Gives.pure hr
  | row => exact Gives.bind_any fun _ => Gives.bind_any fun _ => Gives.pure hr
  | nothing | status | report | unknown => exact Gives.pure hr

theorem openRows_gives : Gives (r.openRows L) fun x => Same r x.2 := by
  refine Gives.bind (kind_gives L r) fun (k, r') hr => ?_
  cases k with
  | cursor => exact Gives.bind_any fun _ => Gives.pure hr
  | row | nothing | status | report | unknown => exact Gives.pure hr

theorem fetch_gives : Gives (r.fetch L) fun x => Same r x.2 := by
  refine Gives.bind (kind_gives L r) fun (k, r') hr => ?_
  cases k with
  | cursor => exact Gives.bind_any fun _ => Gives.pure hr
  | row | nothing | status | report | unknown => exact Gives.pure hr

end QueryResult

/-! ## Cursors -/

namespace Cursor

/-- A cursor has a batch exactly while it reads. -/
def Settled (c : Cursor) : Prop := c.batch.isSome ↔ c.phase = .reading

/-- `c'` is what became of `c` on the way to its next row: there is a batch
exactly if a row was found. -/
structure Sought (c : Cursor) (found : Except Error Bool) (c' : Cursor) : Prop where
  same : c.result.Same c'.result
  batch : c'.batch.isSome ↔ found = .ok true
  rows : c'.rows = c.rows

variable {c : Cursor}

theorem ofResult_settled (r : QueryResult) : (ofResult r).Settled := by
  simp [Settled, ofResult]

theorem releaseBatch_gives (c : Cursor) :
    Gives (c.releaseBatch L) fun c' => c' = { c with batch := none } := by
  unfold releaseBatch
  split
  · exact Gives.bind_any fun _ => Gives.pure rfl
  · next h => exact Gives.pure (by rw [← h])

theorem takeBatch_gives (hc : c.batch = none) :
    Gives (c.takeBatch L) fun x => Sought c x.1 x.2 := by
  refine Gives.bind (QueryResult.row_gives L c.result) fun (b, result) hr => ?_
  cases b with
  | ok b => exact Gives.pure ⟨hr, by simp, rfl⟩
  | error e => exact Gives.pure ⟨hr, by simp [hc], rfl⟩

theorem afterRequest_gives (hc : c.batch = none) (fetched : Except Error Fetched) :
    Gives (c.afterRequest L fetched) fun x => Sought c x.1 x.2 := by
  rcases fetched with e | (_ | _)
  · exact Gives.pure ⟨.refl _, by simp [hc], rfl⟩
  · exact takeBatch_gives L hc
  · exact Gives.pure ⟨.refl _, by simp [hc], rfl⟩

/-- A cursor that goes on with the same result is as good as the one before. -/
theorem Sought.of_same {result : QueryResult} (h : c.result.Same result)
    {found : Except Error Bool} {c' : Cursor}
    (hs : Sought { c with result } found c') : Sought c found c' :=
  ⟨h.trans hs.same, hs.batch, hs.rows⟩

theorem start_gives (hc : c.batch = none) :
    Gives (c.start L) fun x => Sought c x.1 x.2 := by
  refine Gives.bind_any fun isOk => ?_
  cases isOk with
  | false =>
    refine Gives.bind_any fun code => ?_
    split
    · exact Gives.pure ⟨.refl _, by simp [hc], rfl⟩
    · exact Gives.bind_any fun _ => Gives.pure ⟨.refl _, by simp [hc], rfl⟩
  | true =>
    refine Gives.bind (QueryResult.kind_gives L c.result) fun (k, result) hr => ?_
    dsimp only
    split
    · refine Gives.bind (QueryResult.openRows_gives L result) fun (fetched, result') hr' => ?_
      refine (afterRequest_gives L (c := { c with result := result' }) hc fetched).imp ?_
      exact fun x hx => hx.of_same (hr.trans hr')
    · exact Gives.pure ⟨hr, by simp [hc], rfl⟩

theorem advance_gives (hc : c.batch.isSome) :
    Gives (c.advance L) fun x => Sought c x.1 x.2 := by
  refine Gives.bind_any fun more => ?_
  cases more with
  | true => exact Gives.pure ⟨.refl _, by simp [hc], rfl⟩
  | false =>
    refine Gives.bind (releaseBatch_gives L c) fun c' hc' => ?_
    subst hc'
    refine Gives.bind (QueryResult.kind_gives L c.result) fun (k, result) hr => ?_
    dsimp only
    split
    · exact Gives.pure ⟨hr, by simp, rfl⟩
    · refine Gives.bind (QueryResult.fetch_gives L result) fun (fetched, result') hr' => ?_
      refine (afterRequest_gives L (c := { c with batch := none, result := result' }) rfl
        fetched).imp ?_
      intro x hx
      exact ⟨(hr.trans hr').trans hx.same, hx.batch, hx.rows⟩

/-- **A batch where there is a row.** Whatever the library does, a cursor that
found a row has the batch with it: the branch of `next` for a row without a
batch is never taken. -/
theorem position_gives (hc : c.Settled) :
    Gives (c.position L) fun x => Sought c x.1 x.2 := by
  unfold position
  split
  · next h => exact start_gives L (by simpa [Settled, h] using hc)
  · next h => exact advance_gives L (by simpa [Settled, h] using hc)
  · next h =>
    have hb : c.batch = none := by simpa [Settled, h] using hc
    exact Gives.pure ⟨.refl _, by simp [hb], rfl⟩

theorem finish_gives (c : Cursor) :
    Gives (c.finish L) fun c' => c' = { c with batch := none, phase := .done } := by
  refine Gives.bind (releaseBatch_gives L c) fun c' hc' => ?_
  subst hc'
  exact Gives.pure rfl

/-- What a cursor is after it yielded: still reading after a row, through after
anything else. -/
structure Yielded (c : Cursor) (y : Yield) (c' : Cursor) : Prop where
  same : c.result.Same c'.result
  settled : c'.Settled
  step : (∃ row, y = .row row ∧ c'.phase = .reading ∧ c'.rows = c.rows + 1) ∨
    ((∀ row, y ≠ .row row) ∧ c'.phase = .done ∧ c'.rows = c.rows)

theorem next_gives (hc : c.Settled) : Gives (c.next L) fun x => Yielded c x.1 x.2 := by
  unfold next
  split
  · next h =>
    have h : c.phase = .done := by simpa [isDone] using h
    exact Gives.pure ⟨.refl _, hc, Or.inr ⟨by simp, h, rfl⟩⟩
  · refine Gives.bind (position_gives L hc) fun (found, c') hs => ?_
    rcases found with e | (_ | _)
    · refine Gives.bind (finish_gives L c') fun c'' hf => ?_
      subst hf
      exact Gives.pure ⟨hs.same, by simp [Settled], Or.inr ⟨by simp, rfl, hs.rows⟩⟩
    · refine Gives.bind (finish_gives L c') fun c'' hf => ?_
      subst hf
      exact Gives.pure ⟨hs.same, by simp [Settled], Or.inr ⟨by simp, rfl, hs.rows⟩⟩
    · -- the branch without a batch is not taken
      have hb : c'.batch.isSome := hs.batch.mpr rfl
      obtain ⟨b, hb'⟩ := Option.isSome_iff_exists.mp hb
      simp only [hb']
      refine Gives.bind_any fun row => Gives.pure ⟨hs.same, by simp [Settled], ?_⟩
      exact Or.inl ⟨row, rfl, rfl, congrArg (· + 1) hs.rows⟩

theorem next_done (h : c.isDone) (w : World σ) : c.next L w = ((.finished, c), w) := by
  simp [next, h]

/-! ## The result of a cursor

A cursor goes on with the result that it took over in any case, settled or not. -/

theorem takeBatch_same : Gives (c.takeBatch L) fun x => c.result.Same x.2.result := by
  refine (QueryResult.row_gives L c.result).bind fun (b, result) hr => ?_
  cases b <;> exact Gives.pure hr

theorem afterRequest_same (fetched : Except Error Fetched) :
    Gives (c.afterRequest L fetched) fun x => c.result.Same x.2.result := by
  rcases fetched with e | (_ | _)
  · exact Gives.pure (.refl _)
  · exact takeBatch_same L
  · exact Gives.pure (.refl _)

theorem start_same : Gives (c.start L) fun x => c.result.Same x.2.result := by
  refine Gives.bind_any fun isOk => ?_
  split
  · refine (QueryResult.kind_gives L c.result).bind fun (k, result) hr => ?_
    dsimp only
    split
    · refine (QueryResult.openRows_gives L result).bind fun (fetched, result') hr' => ?_
      exact (afterRequest_same L (c := { c with result := result' }) fetched).imp
        fun x hx => (hr.trans hr').trans hx
    · exact Gives.pure hr
  · refine Gives.bind_any fun code => ?_
    split
    · exact Gives.pure (.refl _)
    · exact Gives.bind_any fun _ => Gives.pure (.refl _)

theorem advance_same : Gives (c.advance L) fun x => c.result.Same x.2.result := by
  refine Gives.bind_any fun more => ?_
  split
  · exact Gives.pure (.refl _)
  · refine (releaseBatch_gives L c).bind fun c' hc' => ?_
    subst hc'
    refine (QueryResult.kind_gives L c.result).bind fun (k, result) hr => ?_
    dsimp only
    split
    · exact Gives.pure hr
    · refine (QueryResult.fetch_gives L result).bind fun (fetched, result') hr' => ?_
      exact (afterRequest_same L (c := { c with batch := none, result := result' }) fetched).imp
        fun x hx => (hr.trans hr').trans hx

theorem finish_same : Gives (c.finish L) fun c' => c.result.Same c'.result :=
  (finish_gives L c).imp fun _ hc' => hc' ▸ .refl _

theorem position_same : Gives (c.position L) fun x => c.result.Same x.2.result := by
  unfold position
  split
  · exact start_same L
  · exact advance_same L
  · exact Gives.pure (.refl _)

theorem next_same : Gives (c.next L) fun x => c.result.Same x.2.result := by
  unfold next
  split
  · exact Gives.pure (.refl _)
  · refine (position_same L).bind fun (found, c') hs => ?_
    rcases found with e | (_ | _)
    · exact (finish_same L).bind fun _ hf => Gives.pure (hs.trans hf)
    · exact (finish_same L).bind fun _ hf => Gives.pure (hs.trans hf)
    · dsimp only
      split
      · exact Gives.bind_any fun _ => Gives.pure hs
      · exact (finish_same L).bind fun _ hf => Gives.pure (hs.trans hf)

theorem collect_same (fuel : Nat) :
    Gives (collect L fuel c) fun x => c.result.Same x.2.result := by
  induction fuel generalizing c with
  | zero => exact Gives.pure (.refl _)
  | succ fuel ih =>
    refine (next_same L).bind fun (y, c') hs => ?_
    cases y with
    | finished | error => exact Gives.pure hs
    | row row => exact ih.bind fun _ h => Gives.pure (hs.trans h)

/-! ## Iterations -/

/-- What a cursor yields when it is asked `n` times. -/
def nexts : (n : Nat) → Cursor → Action σ (List Yield × Cursor)
  | 0, c => return ([], c)
  | n + 1, c => do
    let (y, c) ← c.next L
    let (ys, c) ← nexts n c
    return (y :: ys, c)

theorem nexts_succ (n : Nat) (c : Cursor) (w : World σ) :
    nexts L (n + 1) c w =
      (((c.next L w).1.1 :: (nexts L n (c.next L w).1.2 (c.next L w).2).1.1,
        (nexts L n (c.next L w).1.2 (c.next L w).2).1.2),
        (nexts L n (c.next L w).1.2 (c.next L w).2).2) := rfl

theorem nexts_add (m n : Nat) (c : Cursor) (w : World σ) :
    nexts L (m + n) c w =
      (((nexts L m c w).1.1 ++ (nexts L n (nexts L m c w).1.2 (nexts L m c w).2).1.1,
        (nexts L n (nexts L m c w).1.2 (nexts L m c w).2).1.2),
        (nexts L n (nexts L m c w).1.2 (nexts L m c w).2).2) := by
  induction m generalizing c w with
  | zero => rw [Nat.zero_add]; rfl
  | succ m ih =>
    rw [Nat.add_right_comm, nexts_succ, ih, nexts_succ]
    rfl

theorem nexts_done (n : Nat) (h : c.isDone) (w : World σ) :
    nexts L n c w = ((List.replicate n .finished, c), w) := by
  induction n with
  | zero => rfl
  | succ n ih => rw [nexts_succ, next_done L h, ih, List.replicate_succ]

/-- The yields of an iteration: rows, then one error at most, then only the
end. Once something else than a row was yielded the cursor is through. -/
structure Progress (c : Cursor) (ys : List Yield) (c' : Cursor) : Prop where
  same : c.result.Same c'.result
  settled : c'.Settled
  shape : ∃ (rows : List Row) (e : Option Error) (k : Nat),
    ys = rows.map .row ++ (Option.toList e).map .error ++ List.replicate k .finished ∧
    c'.rows = c.rows + rows.length ∧ (e.isSome ∨ 0 < k → c'.isDone)

theorem nexts_progress (n : Nat) (hc : c.Settled) (w : World σ) :
    Progress c (nexts L n c w).1.1 (nexts L n c w).1.2 := by
  induction n generalizing c w with
  | zero => exact ⟨.refl _, hc, [], none, 0, rfl, rfl, by simp⟩
  | succ n ih =>
    have hy := next_gives L hc w
    rw [nexts_succ]
    rcases hy.step with ⟨row, hrow, -, hn⟩ | ⟨hno, hdone, hn⟩
    · obtain ⟨same, settled, rows, e, k, hys, hrows, hend⟩ := ih hy.settled (c.next L w).2
      refine ⟨hy.same.trans same, settled, row :: rows, e, k, by simp [hrow, hys], ?_, hend⟩
      rw [hrows, hn, List.length_cons]
      omega
    · have hd : (c.next L w).1.2.isDone := by simp [isDone, hdone]
      rw [nexts_done L n hd]
      cases hyield : (c.next L w).1.1 with
      | row row => exact absurd hyield (hno row)
      | error e =>
        exact ⟨hy.same, hy.settled, [], some e, n, by simp, by simp [hn], fun _ => hd⟩
      | finished =>
        exact ⟨hy.same, hy.settled, [], none, n + 1, by simp [List.replicate_succ],
          by simp [hn], fun _ => hd⟩

/-- A cursor that yielded something else than a row is through. -/
theorem Progress.isDone {ys : List Yield} {c' : Cursor} (h : Progress c ys c') {y : Yield}
    (hy : y ∈ ys) (hrow : ∀ row, y ≠ .row row) : c'.isDone := by
  obtain ⟨rows, e, k, hys, -, hend⟩ := h.shape
  rw [hys, List.mem_append, List.mem_append] at hy
  rcases hy with (hy | hy) | hy
  · obtain ⟨row, -, rfl⟩ := List.mem_map.mp hy
    exact absurd rfl (hrow row)
  · cases e with
    | none => simp at hy
    | some e => exact hend (Or.inl rfl)
  · exact hend (Or.inr (Nat.pos_of_ne_zero (List.mem_replicate.mp hy).1))

/-- After the end, or an error, the world is left alone. -/
theorem nexts_silent {m n : Nat} (hmn : m ≤ n) (hc : c.Settled) (w : World σ)
    (h : ∃ y ∈ (nexts L m c w).1.1, ∀ row, y ≠ .row row) :
    (nexts L n c w).2 = (nexts L m c w).2 := by
  obtain ⟨y, hy, hrow⟩ := h
  have hd := (nexts_progress L m hc w).isDone hy hrow
  obtain ⟨k, rfl⟩ := Nat.exists_eq_add_of_le hmn
  rw [nexts_add, nexts_done L k hd]

end Cursor

end Querent
