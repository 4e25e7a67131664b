import Querent.Proofs.Result.Iteration
import Querent.Proofs.Server.Sessions

/-!
# What results and cursors hold

A result holds its handle and a share of its session, a batch its handle, and a
cursor a result and the batch at hand. Whatever is asked of them, they go on
holding what they say they hold, and what they make is held by someone.
-/

namespace Querent

open Server (Keeps Holdings owns share ifMade ifGiven library)

/-! ## Results -/

namespace QueryResult

variable (r : QueryResult)

def holdings : Holdings := owns r.handle + r.session.elim 0 share

/-- A call on the handle of a result keeps what the result holds. -/
theorem keeps_call {α : Type} {act : Action Server.State α}
    (h : Keeps act (owns r.handle) fun _ => owns r.handle) :
    Keeps act r.holdings fun _ => r.holdings :=
  h.frame _

theorem keeps_kind : Keeps (r.kind library) r.holdings fun x => x.2.holdings := by
  unfold kind
  split
  · exact Keeps.pure rfl
  · exact (r.keeps_call (Keeps.inspect _ _ _)).bind fun _ => Keeps.pure rfl

theorem keeps_isOk : Keeps (r.isOk library) r.holdings fun _ => r.holdings :=
  r.keeps_call (Keeps.inspect _ _ _)

theorem keeps_code : Keeps (r.code library) r.holdings fun _ => r.holdings :=
  r.keeps_call (Keeps.inspect _ _ _)

theorem keeps_details : Keeps (r.details library) r.holdings fun _ => r.holdings :=
  (r.keeps_call (Keeps.inspect _ _ _)).bind fun _ => Keeps.pure rfl

theorem keeps_atEnd : Keeps (r.atEnd library) r.holdings fun _ => r.holdings :=
  r.keeps_call (Keeps.inspect _ _ _)

theorem keeps_error : Keeps (r.error library) r.holdings fun _ => r.holdings :=
  r.keeps_code.bind fun _ => r.keeps_details.bind fun _ => Keeps.pure rfl

theorem keeps_failure? : Keeps (r.failure? library) r.holdings fun _ => r.holdings := by
  refine r.keeps_code.bind fun code => ?_
  split
  · exact Keeps.pure rfl
  · exact r.keeps_details.bind fun _ => Keeps.pure rfl

theorem keeps_check : Keeps (r.check library) r.holdings fun _ => r.holdings := by
  refine r.keeps_isOk.bind fun ok => ?_
  split
  · exact Keeps.pure rfl
  · refine r.keeps_failure?.bind fun e => ?_
    cases e <;> exact Keeps.pure rfl

theorem keeps_report : Keeps (r.report library) r.holdings fun x => x.2.holdings := by
  refine r.keeps_kind.bind fun (k, r') => ?_
  cases k with
  | report => exact (r'.keeps_call (Keeps.inspect _ _ _)).bind fun _ => Keeps.pure rfl
  | nothing | status | row | cursor | unknown => exact Keeps.pure rfl

end QueryResult

namespace Batch

variable (b : Batch)

def holdings : Holdings := owns b.handle

theorem keeps_next : Keeps (b.next library) b.holdings fun _ => b.holdings := Keeps.nextRow

theorem keeps_count : Keeps (b.count library) b.holdings fun _ => b.holdings :=
  Keeps.inspect _ _ _

theorem keeps_field (i : Nat) : Keeps (b.field library i) b.holdings fun _ => b.holdings :=
  Keeps.inspect _ _ _

theorem keeps_row : Keeps (b.row library) b.holdings fun _ => b.holdings :=
  b.keeps_count.bind fun _ => Keeps.mapM b.keeps_field _

theorem keeps_release : Keeps (b.release library) b.holdings fun _ => 0 := Keeps.release .row

end Batch

namespace QueryResult

variable (r : QueryResult)

theorem keeps_batchOf (made : Option Handle) :
    Keeps (r.batchOf library made) (ifGiven owns made + r.holdings)
      fun b => ifMade Batch.holdings b + r.holdings := by
  cases made with
  | some b => exact Keeps.pure rfl
  | none =>
    have h : Keeps (r.batchOf library none) r.holdings
        fun b => ifMade Batch.holdings b + r.holdings :=
      r.keeps_error.bind fun _ => Keeps.pure (zero_add _)
    exact h.conv (zero_add _) fun _ => rfl

/-- A copy is held besides the result that it was made of. -/
theorem keeps_copy {act : Action Server.State (Option Handle)}
    (h : Keeps act (owns r.handle) fun made => ifGiven owns made + owns r.handle) :
    Keeps (act >>= fun made => r.batchOf library made >>= fun b => pure (b, r)) r.holdings
      fun x => ifMade Batch.holdings x.1 + x.2.holdings := by
  have copied : Keeps act r.holdings fun made => ifGiven owns made + r.holdings :=
    (h.frame _).conv rfl fun _ => (add_assoc _ _ _).symm
  exact copied.bind fun made => (r.keeps_batchOf made).bind fun _ => Keeps.pure rfl

theorem keeps_row : Keeps (r.row library) r.holdings
    fun x => ifMade Batch.holdings x.1 + x.2.holdings := by
  refine r.keeps_kind.bind fun (k, r') => ?_
  cases k with
  | cursor => exact r'.keeps_copy Keeps.copyBatch
  | row => exact r'.keeps_copy Keeps.copyRow
  | nothing | status | report | unknown => exact Keeps.pure (zero_add _)

theorem keeps_canTalk {H : Holdings} :
    Keeps (r.canTalk : Action Server.State Bool) H fun _ => H := by
  unfold canTalk
  split
  · exact Keeps.pure rfl
  · exact (Keeps.quiet fun _ => ⟨rfl, rfl, rfl, rfl, rfl⟩ :
      Keeps (Session.handle? _) H fun _ => H).bind fun _ => Keeps.pure rfl

theorem keeps_classify (code : Code) (what : Request) :
    Keeps (r.classify library code what) r.holdings fun _ => r.holdings := by
  refine r.keeps_isOk.bind fun ok => ?_
  split
  · exact Keeps.pure rfl
  · split
    · refine r.keeps_failure?.bind fun e => ?_
      cases e <;> exact Keeps.pure rfl
    · refine r.keeps_atEnd.bind fun atEnd => ?_
      split
      · exact Keeps.pure rfl
      · split <;> exact Keeps.pure rfl

theorem keeps_request (what : Request) :
    Keeps (r.request library what) r.holdings fun _ => r.holdings := by
  refine r.keeps_canTalk.bind fun talks => ?_
  split
  · cases what with
    | opening =>
      exact (r.keeps_call Keeps.openCursor).bind fun code => r.keeps_classify code _
    | fetching =>
      exact (r.keeps_call Keeps.fetch).bind fun code => r.keeps_classify code _
  · exact Keeps.pure rfl

theorem keeps_openRows : Keeps (r.openRows library) r.holdings fun x => x.2.holdings := by
  refine r.keeps_kind.bind fun (k, r') => ?_
  cases k with
  | cursor => exact (r'.keeps_request _).bind fun _ => Keeps.pure rfl
  | row | nothing | status | report | unknown => exact Keeps.pure rfl

theorem keeps_fetch : Keeps (r.fetch library) r.holdings fun x => x.2.holdings := by
  refine r.keeps_kind.bind fun (k, r') => ?_
  cases k with
  | cursor => exact (r'.keeps_request _).bind fun _ => Keeps.pure rfl
  | row | nothing | status | report | unknown => exact Keeps.pure rfl

theorem keeps_drop : Keeps (r.drop library) r.holdings fun _ => 0 := by
  refine r.keeps_kind.bind fun (k, r') => ?_
  have released : Keeps (call (library.results.release r'.handle k)) r'.holdings
      fun _ => r'.session.elim 0 share := (Keeps.release k).ending _
  exact released.bind fun _ => Keeps.leave? r'.session

/-- The handle stays with whoever asked for it. -/
theorem keeps_intoRaw : Keeps (r.intoRaw library) r.holdings owns := by
  have left : Keeps (Session.leave? library r.session) r.holdings fun _ => owns r.handle :=
    ((Keeps.leave? r.session).ending (owns r.handle)).conv (add_comm _ _) fun _ => rfl
  exact left.bind fun _ => Keeps.pure rfl

end QueryResult

/-! ## Cursors -/

namespace Cursor

variable {c : Cursor}

def holdings (c : Cursor) : Holdings := c.batch.elim 0 Batch.holdings + c.result.holdings

theorem holdings_of_none (hb : c.batch = none) : c.holdings = c.result.holdings := by
  rw [holdings, hb]
  exact zero_add _

theorem keeps_releaseBatch (c : Cursor) :
    Keeps (c.releaseBatch library) c.holdings fun c' => c'.result.holdings := by
  unfold releaseBatch
  split
  · next b hb =>
    have released : Keeps (b.release library) c.holdings fun _ => c.result.holdings :=
      (b.keeps_release.ending _).conv (by rw [holdings, hb]; rfl) fun _ => rfl
    exact released.bind fun _ => Keeps.pure rfl
  · next hb => exact Keeps.pure (holdings_of_none hb).symm

theorem keeps_takeBatch (hb : c.batch = none) :
    Keeps (c.takeBatch library) c.holdings fun x => x.2.holdings := by
  rw [holdings_of_none hb]
  refine c.result.keeps_row.bind fun (b, result) => ?_
  cases b with
  | ok b => exact Keeps.pure rfl
  | error e => exact Keeps.pure (by simp [holdings, hb, ifMade])

theorem keeps_afterRequest (hb : c.batch = none) (fetched : Except Error Fetched) :
    Keeps (c.afterRequest library fetched) c.holdings fun x => x.2.holdings := by
  rcases fetched with e | (_ | _)
  · exact Keeps.pure rfl
  · exact keeps_takeBatch hb
  · exact Keeps.pure rfl

/-- The holdings of a cursor without a batch that goes on with another result. -/
theorem holdings_with (hb : c.batch = none) (result : QueryResult) :
    holdings { c with result } = result.holdings :=
  holdings_of_none hb

theorem keeps_start (hb : c.batch = none) :
    Keeps (c.start library) c.holdings fun x => x.2.holdings := by
  rw [holdings_of_none hb]
  refine c.result.keeps_isOk.bind fun isOk => ?_
  cases isOk with
  | false =>
    refine c.result.keeps_code.bind fun code => ?_
    split
    · exact Keeps.pure (holdings_of_none hb)
    · exact c.result.keeps_error.bind fun _ => Keeps.pure (holdings_of_none hb)
  | true =>
    refine c.result.keeps_kind.bind fun (k, result) => ?_
    dsimp only
    split
    · refine result.keeps_openRows.bind fun (fetched, result') => ?_
      exact (keeps_afterRequest (c := { c with result := result' }) hb fetched).conv
        (holdings_with hb _).symm fun _ => rfl
    · exact Keeps.pure (holdings_with hb _)

theorem keeps_hasNext (c : Cursor) :
    Keeps (c.hasNext library) c.holdings fun _ => c.holdings := by
  unfold hasNext
  split
  · next b hb =>
    have heq : c.holdings = b.holdings + c.result.holdings := by rw [holdings, hb]; rfl
    rw [heq]
    exact b.keeps_next.frame _
  · exact Keeps.pure rfl

theorem keeps_advance (c : Cursor) :
    Keeps (c.advance library) c.holdings fun x => x.2.holdings := by
  refine c.keeps_hasNext.bind fun more => ?_
  cases more with
  | true => exact Keeps.pure rfl
  | false =>
    refine c.keeps_releaseBatch.bind_gives (releaseBatch_gives _ c) fun c' hc' => ?_
    have hb : c'.batch = none := by rw [hc']
    refine c'.result.keeps_kind.bind fun (k, result) => ?_
    dsimp only
    split
    · exact Keeps.pure (holdings_with hb _)
    · refine result.keeps_fetch.bind fun (fetched, result') => ?_
      exact (keeps_afterRequest (c := { c' with result := result' }) hb fetched).conv
        (holdings_with hb _).symm fun _ => rfl

theorem keeps_finish (c : Cursor) :
    Keeps (c.finish library) c.holdings fun c' => c'.holdings := by
  refine c.keeps_releaseBatch.bind_gives (releaseBatch_gives _ c) fun c' hc' => ?_
  exact Keeps.pure (holdings_of_none (c := { c' with phase := .done }) (by rw [hc']))

theorem keeps_position (hs : c.Settled) :
    Keeps (c.position library) c.holdings fun x => x.2.holdings := by
  unfold position
  split
  · next h => exact keeps_start (by simpa [Settled, h] using hs)
  · exact keeps_advance c
  · exact Keeps.pure rfl

theorem keeps_next (hs : c.Settled) :
    Keeps (c.next library) c.holdings fun x => x.2.holdings := by
  unfold next
  split
  · exact Keeps.pure rfl
  · refine (keeps_position hs).bind fun (found, c') => ?_
    rcases found with e | (_ | _)
    · exact c'.keeps_finish.bind fun _ => Keeps.pure rfl
    · exact c'.keeps_finish.bind fun _ => Keeps.pure rfl
    · dsimp only
      split
      · next b hb =>
        have heq : c'.holdings = b.holdings + c'.result.holdings := by rw [holdings, hb]; rfl
        rw [heq]
        exact (b.keeps_row.frame _).bind fun _ => Keeps.pure heq
      · exact c'.keeps_finish.bind fun _ => Keeps.pure rfl

theorem keeps_drop (c : Cursor) : Keeps (c.drop library) c.holdings fun _ => 0 :=
  c.keeps_releaseBatch.bind fun c' => c'.result.keeps_drop

/-- The rows to the end keep a cursor settled and its holdings in order. -/
theorem collect_settled (fuel : Nat) (hs : c.Settled) :
    Gives (collect library fuel c) fun x => x.2.Settled := by
  induction fuel generalizing c with
  | zero => exact Gives.pure hs
  | succ fuel ih =>
    refine Gives.bind (next_gives library hs) fun (y, c') hy => ?_
    cases y with
    | finished | error => exact Gives.pure hy.settled
    | row row => exact (ih hy.settled).bind fun _ h => Gives.pure h

theorem keeps_collect (fuel : Nat) (hs : c.Settled) :
    Keeps (collect library fuel c) c.holdings fun x => x.2.holdings := by
  induction fuel generalizing c with
  | zero => exact Keeps.pure rfl
  | succ fuel ih =>
    refine (keeps_next hs).bind_gives (next_gives library hs) fun (y, c') hy => ?_
    cases y with
    | finished | error => exact Keeps.pure rfl
    | row row => exact (ih hy.settled).bind fun _ => Keeps.pure rfl

end Cursor

end Querent
