import Mathlib.Data.List.Induction
import Querent.Proofs.Library.Erasure

/-!
# The order in which a cursor calls its library

Over any library, the calls of a cursor follow one order: a batch is released
before the next is asked for and before the result goes, so that no more than
one is ever held, each is released once, and the result once, after all of them.
The order is an automaton over calls; what it says of a log is stated without it.
-/

namespace Querent

/-! ## What a log says -/

/-- The batch that a call handed out. -/
def Call.made? : Call → Option Handle
  | .copyBatch _ b | .copyRow _ b => b
  | _ => none

def Call.released? : Call → Option Handle
  | .release h _ => some h
  | _ => none

/-- The call is one of the client side: it is on no result and no batch. -/
def Call.isClient : Call → Bool
  | .explain _ | .connect .. | .close .. | .destroy _ | .execute .. => true
  | _ => false

/-- The batches that were handed out, in order. -/
def obtained (log : List Call) : List Handle := log.filterMap Call.made?

def released (log : List Call) : List Handle := log.filterMap Call.released?

/-- The log of a cursor on the result `h`, from its making to its end. The
handles that are released are those that were handed out, one after the other,
and last the result. -/
structure Orderly (h : Handle) (calls : List Call) : Prop where
  /-- at most one batch is not released, at every moment -/
  one_batch : ∀ done, done <+: calls →
    obtained done = released done ∨ ∃ b, obtained done = released done ++ [b]
  /-- none when the next one is asked for -/
  fetch_free : ∀ done answer, done ++ [.fetch h answer] <+: calls →
    obtained done = released done
  /-- none in the end -/
  all_released : obtained calls = released calls

/-! ## The order as an automaton -/

/-- What a cursor holds besides its result, as its calls so far tell. -/
inductive Holding where
  | nothing
  | batch (b : Handle)
  /-- the result itself is gone -/
  | ended
  deriving DecidableEq

namespace Holding

/-- While a batch is held the calls are on it, otherwise on the result `h`. -/
def next (h : Handle) : Holding → Call → Option Holding
  | nothing, .kind r | nothing, .isOk r | nothing, .code r | nothing, .details r
  | nothing, .report r | nothing, .atEnd r | nothing, .openCursor r _ | nothing, .fetch r _ =>
    if r = h then some nothing else none
  | nothing, .copyBatch r b | nothing, .copyRow r b =>
    if r = h then some (b.elim nothing batch) else none
  | nothing, .release r _ => if r = h then some ended else none
  | batch b, .nextRow r | batch b, .fieldCount r | batch b, .field r _ =>
    if r = b then some (batch b) else none
  | batch b, .release r .row => if r = b then some nothing else none
  | ended, .explain _ | ended, .close .. | ended, .destroy _ => some ended
  | _, _ => none

/-- The batches that have to be released. -/
def owed : Holding → List Handle
  | batch b => [b]
  | nothing | ended => []

variable {h : Handle} {p q : Holding} {c : Call} {calls done : List Call}

/-- **One call.** What was owed and what was made is released or still owed. -/
theorem owed_next (hn : next h p c = some q) (hq : q ≠ ended) :
    owed p ++ c.made?.toList = c.released?.toList ++ owed q := by
  cases p with
  | nothing =>
    cases c with
    | copyBatch r b | copyRow r b =>
      obtain ⟨-, rfl⟩ : r = h ∧ b.elim nothing batch = q := by simpa [next] using hn
      cases b <;> rfl
    | _ => grind [next, owed, Call.made?, Call.released?]
  | batch b =>
    cases c with
    | release r k => cases k <;> grind [next, owed, Call.made?, Call.released?]
    | _ => grind [next, owed, Call.made?, Call.released?]
  | ended => cases c <;> grind [next]

theorem ended_next (hn : next h ended c = some q) : q = ended ∧ c.isClient := by
  cases c <;> grind [next, Call.isClient]

theorem next_ended (hn : next h p c = some ended) :
    (p = nothing ∧ ∃ kind, c = .release h kind) ∨ (p = ended ∧ c.isClient) := by
  cases p with
  | nothing => cases c <;> grind [next, cases Option]
  | batch b =>
    cases c with
    | release r k => cases k <;> grind [next]
    | _ => grind [next]
  | ended => exact Or.inr ⟨rfl, (ended_next hn).2⟩

/-- What calls in order lead to. -/
def run (h : Handle) (calls : List Call) : Option Holding := calls.foldlM (next h) nothing

theorem run_snoc (hr : run h (calls ++ [c]) = some q) :
    ∃ p, run h calls = some p ∧ next h p c = some q := by
  rw [run, List.foldlM_append] at hr
  obtain ⟨p, hp, hq⟩ := Option.bind_eq_some_iff.mp hr
  exact ⟨p, hp, by simpa using hq⟩

/-- **A run before the end.** What was made is what was released and what is
still owed. -/
theorem obtained_run (hr : run h calls = some q) (hq : q ≠ ended) :
    obtained calls = released calls ++ owed q := by
  -- the automaton reads from the front, so the call to look at is the last one
  induction calls using List.reverseRecOn generalizing q with
  | nil =>
    obtain rfl : nothing = q := by simpa [run] using hr
    rfl
  | append_singleton calls c ih =>
    obtain ⟨p, hp, hn⟩ := run_snoc hr
    have hp' : p ≠ ended := by
      rintro rfl
      exact hq (ended_next hn).1
    have made : obtained (calls ++ [c]) = obtained calls ++ c.made?.toList := by
      cases hc : c.made? <;> simp [obtained, hc]
    have gone : released (calls ++ [c]) = released calls ++ c.released?.toList := by
      cases hc : c.released? <;> simp [released, hc]
    rw [made, gone, ih hp hp', List.append_assoc, List.append_assoc, owed_next hn hq]

/-- An order that has not ended had not ended at any moment before. -/
theorem run_prefix (hr : run h calls = some q) (hq : q ≠ ended) (hd : done <+: calls) :
    ∃ p, run h done = some p ∧ p ≠ ended := by
  obtain ⟨rest, rfl⟩ := hd
  induction rest using List.reverseRecOn generalizing q with
  | nil => exact ⟨q, by simpa using hr, hq⟩
  | append_singleton rest c ih =>
    rw [← List.append_assoc] at hr
    obtain ⟨p, hp, hn⟩ := run_snoc hr
    have hp' : p ≠ ended := by
      rintro rfl
      exact hq (ended_next hn).1
    exact ih hp' hp

/-- The log of a run that holds nothing is orderly. -/
theorem orderly_of_run (hr : run h calls = some nothing) : Orderly h calls where
  one_batch done hd := by
    obtain ⟨p, hp, hne⟩ := run_prefix hr (by simp) hd
    rw [obtained_run hp hne]
    cases p with
    | batch b => exact Or.inr ⟨b, rfl⟩
    | nothing => exact Or.inl (List.append_nil _)
    | ended => exact absurd rfl hne
  fetch_free done answer hd := by
    obtain ⟨q, hq, hne⟩ := run_prefix hr (by simp) hd
    obtain ⟨p, hp, hn⟩ := run_snoc hq
    -- a fetch is refused while a batch is held
    have hp' : p = nothing := by
      cases p <;> grind [next]
    subst hp'
    simpa [owed] using obtained_run hp (by simp)
  all_released := by
    simpa [owed] using obtained_run hr (by simp)

/-- A log that came to the end has the release of the result in it, after an
orderly part and before calls of the client side only. -/
theorem split_of_run (hr : run h calls = some ended) :
    ∃ before kind after, calls = before ++ .release h kind :: after ∧
      Orderly h before ∧ ∀ c ∈ after, c.isClient := by
  induction calls using List.reverseRecOn with
  | nil => simp [run] at hr
  | append_singleton calls c ih =>
    obtain ⟨p, hp, hn⟩ := run_snoc hr
    rcases next_ended hn with ⟨rfl, kind, rfl⟩ | ⟨rfl, hc⟩
    · exact ⟨calls, kind, [], by simp, orderly_of_run hp, by simp⟩
    · obtain ⟨before, kind, after, rfl, ho, ha⟩ := ih hp
      refine ⟨before, kind, after ++ [c], by simp, ho, ?_⟩
      intro d hd
      rcases List.mem_append.mp hd with hd | hd
      · exact ha d hd
      · rw [List.mem_singleton.mp hd]
        exact hc

end Holding

/-! ## Results and batches in order -/

variable {σ : Type} (L : Library σ) {h : Handle}

/-- The calls of the action take what is held from `p` to `q`. -/
abbrev Obeys {α : Type} (h : Handle) (act : Action (σ × List Call) α) (p : Holding)
    (q : α → Holding) : Prop :=
  Follows (Holding.next h) act p q

namespace QueryResult

variable {r : QueryResult}

theorem obeys_kind (hr : r.handle = h) :
    Obeys h (r.kind L.recorded) .nothing fun _ => .nothing := by
  unfold kind
  split
  · exact Follows.pure rfl
  · exact Follows.bind_any (Follows.record (fun _ => .kind r.handle) (L.results.kind r.handle)
      fun _ => by simp [Holding.next, hr]) fun _ => Follows.pure rfl

theorem obeys_isOk (hr : r.handle = h) :
    Obeys h (r.isOk L.recorded) .nothing fun _ => .nothing :=
  Follows.record (fun _ => .isOk r.handle) (L.results.isOk r.handle)
    fun _ => by simp [Holding.next, hr]

theorem obeys_code (hr : r.handle = h) :
    Obeys h (r.code L.recorded) .nothing fun _ => .nothing :=
  Follows.record (fun _ => .code r.handle) (L.results.code r.handle)
    fun _ => by simp [Holding.next, hr]

theorem obeys_details (hr : r.handle = h) :
    Obeys h (r.details L.recorded) .nothing fun _ => .nothing :=
  Follows.bind_any (Follows.record (fun _ => .details r.handle) (L.results.details r.handle)
    fun _ => by simp [Holding.next, hr]) fun _ => Follows.pure rfl

theorem obeys_atEnd (hr : r.handle = h) :
    Obeys h (r.atEnd L.recorded) .nothing fun _ => .nothing :=
  Follows.record (fun _ => .atEnd r.handle) (L.results.atEnd r.handle)
    fun _ => by simp [Holding.next, hr]

theorem obeys_error (hr : r.handle = h) :
    Obeys h (r.error L.recorded) .nothing fun _ => .nothing :=
  Follows.bind_any (obeys_code L hr) fun _ =>
    Follows.bind_any (obeys_details L hr) fun _ => Follows.pure rfl

theorem obeys_failure? (hr : r.handle = h) :
    Obeys h (r.failure? L.recorded) .nothing fun _ => .nothing := by
  refine Follows.bind_any (obeys_code L hr) fun code => ?_
  split
  · exact Follows.pure rfl
  · exact Follows.bind_any (obeys_details L hr) fun _ => Follows.pure rfl

/-- What is held with a copy that may not have come about. -/
def holdingOf : Except Error Batch → Holding
  | .ok b => .batch b.handle
  | .error _ => .nothing

theorem obeys_batchOf (hr : r.handle = h) (made : Option Handle) :
    Obeys h (r.batchOf L.recorded made) (made.elim .nothing .batch) holdingOf := by
  cases made with
  | some b => exact Follows.pure rfl
  | none => exact Follows.bind_any (obeys_error L hr) fun _ => Follows.pure rfl

theorem obeys_row (hr : r.handle = h) :
    Obeys h (r.row L.recorded) .nothing fun x => holdingOf x.1 := by
  refine Follows.bind (obeys_kind L hr) (kind_gives L.recorded r) fun (k, r') hs => ?_
  have hr' : r'.handle = h := hs.1.trans hr
  cases k with
  | cursor =>
    refine Follows.bind_any (q := fun made => made.elim .nothing .batch)
      (Follows.record (.copyBatch r'.handle) (L.results.copyBatch r'.handle)
        fun made => by simp [Holding.next, hr']) fun made => ?_
    exact Follows.bind_any (obeys_batchOf L hr' made) fun _ => Follows.pure rfl
  | row =>
    refine Follows.bind_any (q := fun made => made.elim .nothing .batch)
      (Follows.record (.copyRow r'.handle) (L.results.copyRow r'.handle)
        fun made => by simp [Holding.next, hr']) fun made => ?_
    exact Follows.bind_any (obeys_batchOf L hr' made) fun _ => Follows.pure rfl
  | nothing | status | report | unknown => exact Follows.pure rfl

theorem obeys_canTalk : Obeys h (r.canTalk (σ := σ × List Call)) .nothing fun _ => .nothing := by
  refine Follows.silent fun w => ?_
  unfold canTalk
  cases r.session <;> rfl

theorem obeys_classify (hr : r.handle = h) (code : Code) (what : Request) :
    Obeys h (r.classify L.recorded code what) .nothing fun _ => .nothing := by
  refine Follows.bind_any (obeys_isOk L hr) fun ok => ?_
  split
  · exact Follows.pure rfl
  · split
    · refine Follows.bind_any (obeys_failure? L hr) fun e => ?_
      cases e <;> exact Follows.pure rfl
    · refine Follows.bind_any (obeys_atEnd L hr) fun atEnd => ?_
      split
      · exact Follows.pure rfl
      · split <;> exact Follows.pure rfl

theorem obeys_request (hr : r.handle = h) (what : Request) :
    Obeys h (r.request L.recorded what) .nothing fun _ => .nothing := by
  refine Follows.bind_any (obeys_canTalk) fun talks => ?_
  split
  · cases what with
    | opening =>
      exact Follows.bind_any (Follows.record (.openCursor r.handle)
        (L.results.openCursor r.handle) fun _ => by simp [Holding.next, hr])
        fun code => obeys_classify L hr code _
    | fetching =>
      exact Follows.bind_any (Follows.record (.fetch r.handle)
        (L.results.fetch r.handle) fun _ => by simp [Holding.next, hr])
        fun code => obeys_classify L hr code _
  · exact Follows.pure rfl

theorem obeys_openRows (hr : r.handle = h) :
    Obeys h (r.openRows L.recorded) .nothing fun _ => .nothing := by
  refine Follows.bind (obeys_kind L hr) (kind_gives L.recorded r) fun (k, r') hs => ?_
  cases k with
  | cursor =>
    exact Follows.bind_any (obeys_request L (hs.1.trans hr) _) fun _ => Follows.pure rfl
  | row | nothing | status | report | unknown => exact Follows.pure rfl

theorem obeys_fetch (hr : r.handle = h) :
    Obeys h (r.fetch L.recorded) .nothing fun _ => .nothing := by
  refine Follows.bind (obeys_kind L hr) (kind_gives L.recorded r) fun (k, r') hs => ?_
  cases k with
  | cursor =>
    exact Follows.bind_any (obeys_request L (hs.1.trans hr) _) fun _ => Follows.pure rfl
  | row | nothing | status | report | unknown => exact Follows.pure rfl

end QueryResult

namespace Batch

variable (b : Batch)

theorem obeys_next :
    Obeys h (b.next L.recorded) (.batch b.handle) fun _ => .batch b.handle :=
  Follows.record (fun _ => .nextRow b.handle) (L.results.nextRow b.handle)
    fun _ => by simp [Holding.next]

theorem obeys_row :
    Obeys h (b.row L.recorded) (.batch b.handle) fun _ => .batch b.handle :=
  Follows.bind_any (Follows.record (fun _ => .fieldCount b.handle)
    (L.results.fieldCount b.handle) fun _ => by simp [Holding.next]) fun n =>
      Follows.mapM (fun i => Follows.record (fun _ => .field b.handle i)
        (L.results.field b.handle i) fun _ => by simp [Holding.next]) _

theorem obeys_release :
    Obeys h (b.release L.recorded) (.batch b.handle) fun _ => .nothing :=
  Follows.record (fun _ => .release b.handle .row) (L.results.release b.handle .row)
    fun _ => by simp [Holding.next]

end Batch

/-! ## Cursors in order -/

namespace Cursor

variable {c : Cursor}

/-- What a cursor holds besides its result. -/
def holding (c : Cursor) : Holding := c.batch.elim .nothing fun b => .batch b.handle

theorem obeys_releaseBatch (c : Cursor) :
    Obeys h (c.releaseBatch L.recorded) c.holding fun _ => .nothing := by
  unfold releaseBatch holding
  cases c.batch with
  | some b => exact Follows.bind_any (Batch.obeys_release L b) fun _ => Follows.pure rfl
  | none => exact Follows.pure rfl

theorem obeys_takeBatch (hc : c.result.handle = h) (hb : c.batch = none) :
    Obeys h (c.takeBatch L.recorded) .nothing fun x => x.2.holding := by
  refine Follows.bind_any (QueryResult.obeys_row L hc) fun (b, result) => ?_
  cases b with
  | ok b => exact Follows.pure rfl
  | error e => exact Follows.pure (by simp [holding, hb, QueryResult.holdingOf])

theorem obeys_afterRequest (hc : c.result.handle = h) (hb : c.batch = none)
    (fetched : Except Error Fetched) :
    Obeys h (c.afterRequest L.recorded fetched) .nothing fun x => x.2.holding := by
  rcases fetched with e | (_ | _)
  · exact Follows.pure (by simp [holding, hb])
  · exact obeys_takeBatch L hc hb
  · exact Follows.pure (by simp [holding, hb])

theorem obeys_start (hc : c.result.handle = h) (hb : c.batch = none) :
    Obeys h (c.start L.recorded) .nothing fun x => x.2.holding := by
  have none_held : ∀ result, holding { c with result } = .nothing := by simp [holding, hb]
  refine Follows.bind_any (QueryResult.obeys_isOk L hc) fun isOk => ?_
  cases isOk with
  | false =>
    refine Follows.bind_any (QueryResult.obeys_code L hc) fun code => ?_
    split
    · exact Follows.pure (none_held _)
    · exact Follows.bind_any (QueryResult.obeys_error L hc) fun _ => Follows.pure (none_held _)
  | true =>
    refine Follows.bind (QueryResult.obeys_kind L hc) (QueryResult.kind_gives _ _)
      fun (k, result) hr => ?_
    dsimp only
    split
    · have hr : result.handle = h := hr.1.trans hc
      refine Follows.bind (QueryResult.obeys_openRows L hr) (QueryResult.openRows_gives _ _)
        fun (fetched, result') hr' => ?_
      exact obeys_afterRequest L (c := { c with result := result' }) (hr'.1.trans hr) hb fetched
    · exact Follows.pure (none_held _)

theorem obeys_hasNext (c : Cursor) :
    Obeys h (c.hasNext L.recorded) c.holding fun _ => c.holding := by
  unfold hasNext holding
  cases c.batch with
  | some b => exact Batch.obeys_next L b
  | none => exact Follows.pure rfl

theorem obeys_advance (hc : c.result.handle = h) :
    Obeys h (c.advance L.recorded) c.holding fun x => x.2.holding := by
  refine Follows.bind_any (obeys_hasNext L c) fun more => ?_
  cases more with
  | true => exact Follows.pure rfl
  | false =>
    refine Follows.bind (obeys_releaseBatch L c) (releaseBatch_gives _ c) fun c' hc' => ?_
    subst hc'
    refine Follows.bind (QueryResult.obeys_kind L hc) (QueryResult.kind_gives _ _)
      fun (k, result) hr => ?_
    dsimp only
    split
    · exact Follows.pure rfl
    · have hr : result.handle = h := hr.1.trans hc
      refine Follows.bind (QueryResult.obeys_fetch L hr) (QueryResult.fetch_gives _ _)
        fun (fetched, result') hr' => ?_
      exact obeys_afterRequest L (c := { c with batch := none, result := result' })
        (hr'.1.trans hr) rfl fetched

theorem obeys_position (hc : c.result.handle = h) (hs : c.Settled) :
    Obeys h (c.position L.recorded) c.holding fun x => x.2.holding := by
  unfold position
  split
  · next hp =>
    have hb : c.batch = none := by simpa [Settled, hp] using hs
    rw [show c.holding = .nothing by simp [holding, hb]]
    exact obeys_start L hc hb
  · exact obeys_advance L hc
  · exact Follows.pure rfl

theorem obeys_finish (c : Cursor) :
    Obeys h (c.finish L.recorded) c.holding fun x => x.holding := by
  refine Follows.bind (obeys_releaseBatch L c) (releaseBatch_gives _ c) fun c' hc' => ?_
  subst hc'
  exact Follows.pure rfl

theorem obeys_next (hc : c.result.handle = h) (hs : c.Settled) :
    Obeys h (c.next L.recorded) c.holding fun x => x.2.holding := by
  unfold next
  split
  · exact Follows.pure rfl
  · refine Follows.bind_any (obeys_position L hc hs) fun (found, c') => ?_
    rcases found with e | (_ | _)
    · exact Follows.bind_any (obeys_finish L c') fun _ => Follows.pure rfl
    · exact Follows.bind_any (obeys_finish L c') fun _ => Follows.pure rfl
    · dsimp only
      split
      · next b hb =>
        have held : c'.holding = .batch b.handle := by simp [holding, hb]
        rw [held]
        exact Follows.bind_any (Batch.obeys_row L b) fun _ => Follows.pure held
      · exact Follows.bind_any (obeys_finish L c') fun _ => Follows.pure rfl

theorem obeys_nexts (n : Nat) (hc : c.result.handle = h) (hs : c.Settled) :
    Obeys h (nexts L.recorded n c) c.holding fun x => x.2.holding := by
  induction n generalizing c with
  | zero => exact Follows.pure rfl
  | succ n ih =>
    refine Follows.bind (obeys_next L hc hs) (next_gives _ hs) fun (y, c') hy => ?_
    exact Follows.bind_any (ih (hy.same.1.trans hc) hy.settled) fun _ => Follows.pure rfl

end Cursor

/-! ## The end -/

namespace Session

theorem obeys_hangUp (con : Handle) :
    Obeys h (hangUp L.recorded con) .ended fun _ => .ended := by
  refine Follows.bind_any (Follows.record (.close con) (L.client.close con)
    fun _ => rfl) fun code => ?_
  split
  · exact Follows.pure rfl
  · refine Follows.bind_any (Follows.record (fun _ => .destroy con) (L.client.destroy con)
      fun _ => rfl) fun _ => ?_
    exact Follows.bind_any (Follows.record (fun _ => .explain code) (L.client.explain code)
      fun _ => rfl) fun _ => Follows.pure rfl

theorem obeys_leave? (id : Option SessionId) :
    Obeys h (leave? L.recorded id) .ended fun _ => .ended := by
  cases id with
  | none => exact Follows.pure rfl
  | some id =>
    refine Follows.bind_any (Follows.silent fun _ => rfl) fun _ => ?_
    refine Follows.bind_any (Follows.silent fun _ => rfl) fun s => ?_
    split
    · refine Follows.bind_any (Follows.silent fun _ => rfl) fun _ => ?_
      exact Follows.bind_any (obeys_hangUp L _) fun _ => Follows.pure rfl
    · exact Follows.pure rfl

end Session

theorem QueryResult.obeys_drop {r : QueryResult} (hr : r.handle = h) :
    Obeys h (r.drop L.recorded) .nothing fun _ => .ended := by
  refine Follows.bind (obeys_kind L hr) (kind_gives _ r) fun (k, r') hs => ?_
  have hr' : r'.handle = h := hs.1.trans hr
  refine Follows.bind_any (q := fun _ => .ended) (Follows.record
    (fun _ => .release r'.handle k) (L.results.release r'.handle k)
    fun _ => by simp [Holding.next, hr']) fun _ => ?_
  exact Session.obeys_leave? L r'.session

theorem Cursor.obeys_drop {c : Cursor} (hc : c.result.handle = h) :
    Obeys h (c.drop L.recorded) c.holding fun _ => .ended := by
  refine Follows.bind (obeys_releaseBatch L c) (releaseBatch_gives _ c) fun c' hc' => ?_
  subst hc'
  exact QueryResult.obeys_drop L hc

/-! ## Whole iterations -/

/-- **A cursor from its making to its end, over any library.** It is asked `n`
times and dropped. It yields what it would yield without a log, and leaves the same
world behind; the yields are rows, one error at most, and then only the end. After
an error or the end the world is left alone until the drop. Wherever a row was found
there is a batch to read it from. And the log is orderly up to the release of the
result, after which only the connection may be closed. -/
theorem Cursor.iteration_orderly (s : σ) (sessions : List Session) (r : QueryResult) (n : Nat) :
    let start : World (σ × List Call) := ⟨(s, []), sessions⟩
    let run := fun i => nexts L.recorded i (ofResult r) start
    let ended := ((run n).1.2.drop L.recorded (run n).2).2
    (run n).1 = (nexts L n (ofResult r) start.erase).1 ∧
    ended.erase = ((run n).1.2.drop L (nexts L n (ofResult r) start.erase).2).2 ∧
    (∃ (rows : List Row) (e : Option Error) (k : Nat), (run n).1.1 =
      rows.map .row ++ (Option.toList e).map .error ++ List.replicate k .finished) ∧
    (∀ i ≤ n, (∃ y ∈ (run i).1.1, ∀ row, y ≠ .row row) → (run n).2 = (run i).2) ∧
    (∀ i ≤ n, ∀ found, (run i).1.2.position L.recorded (run i).2 = found →
      found.1.1 = .ok true → found.1.2.batch.isSome) ∧
    ∃ before kind after, ended.log = before ++ .release r.handle kind :: after ∧
      Orderly r.handle before ∧ ∀ c ∈ after, c.isClient := by
  intro start run ended
  have settled := ofResult_settled r
  have progress := fun i => nexts_progress L.recorded i settled start
  obtain ⟨hsame, herase⟩ := erases_nexts L (ofResult r) n start
  refine ⟨hsame, ?_, ?_, ?_, ?_, ?_⟩
  · rw [← herase]
    exact (erases_drop L (run n).1.2 (run n).2).2
  · obtain ⟨rows, e, k, hys, -⟩ := (progress n).shape
    exact ⟨rows, e, k, hys⟩
  · exact fun i hi h => nexts_silent L.recorded hi settled start h
  · rintro i - found rfl hfound
    exact ((position_gives L.recorded (progress i).settled) _).batch.mpr hfound
  · obtain ⟨calls, hlog, hheld⟩ := obeys_nexts L n (h := r.handle) rfl settled start
    obtain ⟨calls', hlog', hended⟩ :=
      obeys_drop L (h := r.handle) (progress n).same.1 (run n).2
    refine Holding.split_of_run ?_
    rw [show ended.log = calls ++ calls' by rw [hlog', hlog]; rfl, Holding.run,
      List.foldlM_append]
    exact hheld ▸ hended

end Querent
