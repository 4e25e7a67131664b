import Mathlib.Tactic.SplitIfs
import Querent.Playback.Tables
import Querent.Proofs.Result.Iteration

/-!
# How the end of data is told

A request for a batch leaves four things to go by: the code that it returned, whether the
result is in order after it, and then either the error code that the result carries or its
flag for the end. The end of data can be told by either code. Inside a procedure both are
the server's, and yet the code of the request is believed only where the flag confirms it.
-/

namespace Querent

/-! ## Signs -/

/-- What there is to go by after a request for a batch. -/
structure Signs where
  /-- what the request returned -/
  code : Code
  /-- the result carries no error -/
  ok : Bool
  /-- the error that a failed result carries -/
  errorCode : Code
  /-- the flag of a result in order -/
  flagged : Bool
  deriving DecidableEq, Repr

namespace Signs

/-- The end of data is told: by the error code of a failed result, by the code of the
request if the result is in order. -/
def TellEnd (s : Signs) : Prop :=
  if s.ok then s.code = Code.endOfData else s.errorCode = Code.endOfData

/-- The code of the request tells the end of data, and the flag does not. -/
def Unconfirmed (s : Signs) : Prop :=
  s.ok ∧ s.code = Code.endOfData ∧ ¬ s.flagged

instance (s : Signs) : Decidable s.TellEnd :=
  inferInstanceAs (Decidable (if s.ok then s.code = Code.endOfData else s.errorCode = Code.endOfData))

instance (s : Signs) : Decidable s.Unconfirmed :=
  inferInstanceAs (Decidable (s.ok ∧ s.code = Code.endOfData ∧ ¬ s.flagged))

/-- What the signs mean where there is no session; `details` are those of a failed result. -/
def verdict (s : Signs) (what : Request) (details : String) : Except Error Fetched :=
  if s.ok then
    if s.code = Code.ok then .ok .batch
    else if s.flagged then .ok .endOfData
    else .error (.server s.code what.failure)
  else if s.errorCode = Code.endOfData then .ok .endOfData
  else .error (.server s.errorCode details)

variable {s : Signs} {what : Request} {details : String}

theorem verdict_of_tellEnd (h : s.TellEnd) (hc : ¬ s.Unconfirmed) :
    s.verdict what details = .ok .endOfData := by
  obtain ⟨code, ok, errorCode, flagged⟩ := s
  cases ok with
  | true =>
    obtain rfl : code = Code.endOfData := h
    cases flagged with
    | true => rfl
    | false => exact absurd ⟨rfl, rfl, Bool.false_ne_true⟩ hc
  | false =>
    obtain rfl : errorCode = Code.endOfData := h
    rfl

theorem verdict_of_unconfirmed (h : s.Unconfirmed) :
    s.verdict what details = .error (.server Code.endOfData what.failure) := by
  obtain ⟨code, ok, errorCode, flagged⟩ := s
  obtain ⟨rfl, rfl, hflag⟩ := h
  obtain rfl : flagged = false := Bool.eq_false_iff.mpr hflag
  rfl

/-- A failed result is never reported with the code for the end of data; that code can
only be one that the request returned. -/
theorem unconfirmed_of_verdict {e : Error} (h : s.verdict what details = .error e)
    (he : e.isEndOfData) : s.Unconfirmed := by
  unfold verdict at h
  split_ifs at h with hok hcode hflag hcode
  · cases h
    exact ⟨hok, by simpa [Error.isEndOfData, Error.hasServerCode] using he, hflag⟩
  · cases h
    exact absurd (by simpa [Error.isEndOfData, Error.hasServerCode] using he) hcode

end Signs

/-! ## Requests -/

namespace QueryResult

variable {σ : Type} (L : Library σ) (r : QueryResult)

/-- The call of the library that makes a request. -/
def calling : Request → Action σ Code
  | .opening => call (L.results.openCursor r.handle)
  | .fetching => call (L.results.fetch r.handle)

/-- The signs that a request made in the world `w` leaves. -/
def signs (what : Request) (w : World σ) : Signs :=
  let asked := r.calling L what w
  let state := r.isOk L asked.2
  ⟨asked.1, state.1, (r.code L state.2).1, (r.atEnd L state.2).1⟩

/-- Asks for the first batch, or for the next one. -/
def batch (what : Request) : Action σ (Except Error Fetched × QueryResult) :=
  match what with
  | .opening => r.openRows L
  | .fetching => r.fetch L

variable {L r} {what : Request} {w : World σ}

/-- A result that knows its kind does not ask for it again. -/
theorem kind_kind : (r.kind L w).1.2.kind L (r.kind L w).2 = r.kind L w := by
  obtain ⟨handle, _ | known, session⟩ := r <;> rfl

theorem failure?_apply (w : World σ) :
    (r.failure? L w).1 =
      if (r.code L w).1 = Code.endOfData then none
      else some (.server (r.code L w).1 (r.details L (r.code L w).2).1) := by
  unfold failure?
  rw [bind_apply]
  split_ifs <;> rfl

/-- A result that can talk makes the call, and goes by what it returned. -/
theorem request_of_canTalk (h : r.canTalk w = (true, w)) :
    r.request L what w =
      r.classify L (r.calling L what w).1 what (r.calling L what w).2 := by
  unfold request
  rw [bind_apply, h]
  cases what <;> rfl

theorem request_of_none (hr : r.session = none) :
    r.request L what w =
      r.classify L (r.calling L what w).1 what (r.calling L what w).2 := by
  refine request_of_canTalk ?_
  unfold canTalk
  rw [hr]
  rfl

/-- Without a session, what comes of a request is read off its signs. -/
theorem request_verdict (hr : r.session = none) :
    ∃ details, (r.request L what w).1 = (r.signs L what w).verdict what details := by
  rw [request_of_none hr]
  unfold classify signs
  generalize r.calling L what w = asked
  dsimp only [bind_apply]
  generalize r.isOk L asked.2 = state
  obtain ⟨ok, w'⟩ := state
  refine ⟨(r.details L (r.code L w').2).1, ?_⟩
  cases ok with
  | false =>
    have hfailure := failure?_apply (L := L) (r := r) w'
    simp only [Bool.false_eq_true, and_false, if_false, Bool.not_false, if_true, bind_apply,
      Signs.verdict]
    split_ifs at hfailure ⊢ with hcode <;> rw [hfailure] <;> rfl
  | true =>
    simp only [Signs.verdict, and_true, Bool.not_true, Bool.false_eq_true, if_false, if_true, hr]
    split_ifs with hcode hflag
    · rfl
    · rw [bind_apply, if_pos hflag]
      rfl
    · rw [bind_apply, if_neg hflag]
      rfl

/-- A cursor is asked for a batch by a request, once its kind is known. -/
theorem batch_of_cursor (hk : (r.kind L w).1.1 = .cursor) :
    r.batch L what w =
      let asked := (r.kind L w).1.2.request L what (r.kind L w).2
      ((asked.1, (r.kind L w).1.2), asked.2) := by
  cases what with
  | opening =>
    dsimp only [batch, openRows, bind_apply]
    rw [hk]
    rfl
  | fetching =>
    dsimp only [batch, fetch, bind_apply]
    rw [hk]
    rfl

/-- A batch is asked for by kind, so it does not matter if that was looked at before. -/
theorem batch_of_kind (w : World σ) :
    (r.kind L w).1.2.batch L what (r.kind L w).2 = r.batch L what w := by
  cases what <;> dsimp only [batch, openRows, fetch, bind_apply] <;> rw [kind_kind]

/-- The signs are those of the handle, whether the kind is known or not. -/
theorem signs_of_same {r' : QueryResult} (h : r.Same r') : r'.signs L what w = r.signs L what w := by
  unfold signs calling isOk code atEnd
  rw [h.1]

/-- Without a session, what comes of asking a cursor for a batch is read off the signs. -/
theorem batch_verdict (what : Request) (hr : r.session = none) (hk : (r.kind L w).1.1 = .cursor) :
    ∃ details, (r.batch L what w).1.1 =
      (r.signs L what (r.kind L w).2).verdict what details := by
  have hsame : r.Same (r.kind L w).1.2 := kind_gives L r w
  rw [batch_of_cursor hk, ← signs_of_same hsame]
  exact request_verdict (hsame.2.trans hr)

end QueryResult

/-! ## Cursors -/

namespace Cursor

variable {σ : Type} (L : Library σ) {c : Cursor} {what : Request} {w w' : World σ}

/-- Asked for a row in the world `w`, the cursor comes to the world `w'` and needs a batch
there: its first one, for a result in order, or the one after a batch that is through. -/
def Needs (c : Cursor) : Request → (w w' : World σ) → Prop
  | .opening, w, w' => c.phase = .pending ∧ c.result.isOk L w = (true, w')
  | .fetching, w, w' => c.phase = .reading ∧ (c.hasNext L w).1 = false ∧
      (c.releaseBatch L (c.hasNext L w).2).2 = w'

variable {L}

/-- A cursor in need of a batch asks its result for one. -/
theorem position_of_needs (h : c.Needs L what w w') (hk : (c.result.kind L w').1.1 = .cursor) :
    ∃ c' : Cursor, c.position L w =
      c'.afterRequest L (c.result.batch L what w').1.1 (c.result.batch L what w').2 := by
  rw [← QueryResult.batch_of_kind]
  cases what with
  | opening =>
    obtain ⟨hphase, hok⟩ := h
    dsimp only [position, bind_apply]
    rw [hphase]
    dsimp only [start, bind_apply]
    rw [hok, if_pos rfl, bind_apply]
    dsimp only
    rw [hk, if_pos (by decide), bind_apply]
    exact ⟨_, rfl⟩
  | fetching =>
    obtain ⟨hphase, hnext, rfl⟩ := h
    have hresult := releaseBatch_gives L c (c.hasNext L w).2
    dsimp only [position, bind_apply]
    rw [hphase]
    dsimp only [advance, bind_apply]
    rw [hnext, if_neg Bool.false_ne_true, bind_apply, hresult]
    dsimp only [bind_apply]
    rw [hk, if_neg (by decide), bind_apply]
    exact ⟨_, rfl⟩

theorem Needs.not_done (h : c.Needs L what w w') : ¬ c.isDone := by
  cases what with
  | opening => simp [isDone, h.1]
  | fetching => simp [isDone, h.1]

theorem finish_isDone (w : World σ) : (c.finish L w).1.isDone := by
  rw [finish_gives L c w]
  rfl

/-- The end of data ends the cursor. -/
theorem next_of_needs_end (h : c.Needs L what w w') (hk : (c.result.kind L w').1.1 = .cursor)
    (hend : (c.result.batch L what w').1.1 = .ok .endOfData) :
    (c.next L w).1.1 = .finished ∧ (c.next L w).1.2.isDone := by
  obtain ⟨c', hposition⟩ := position_of_needs h hk
  rw [hend] at hposition
  unfold next
  rw [if_neg h.not_done, bind_apply, hposition]
  exact ⟨rfl, finish_isDone _⟩

/-- An error is yielded, and ends the cursor. -/
theorem next_of_needs_error {e : Error} (h : c.Needs L what w w')
    (hk : (c.result.kind L w').1.1 = .cursor)
    (herror : (c.result.batch L what w').1.1 = .error e) :
    (c.next L w).1.1 = .error e ∧ (c.next L w).1.2.isDone := by
  obtain ⟨c', hposition⟩ := position_of_needs h hk
  rw [herror] at hposition
  unfold next
  rw [if_neg h.not_done, bind_apply, hposition]
  exact ⟨rfl, finish_isDone _⟩

theorem nexts_of_next {y : Yield} (h : (c.next L w).1.1 = y ∧ (c.next L w).1.2.isDone) (n : Nat) :
    (nexts L (n + 1) c w).1.1 = y :: List.replicate n .finished := by
  rw [nexts_succ, nexts_done L n h.2, h.1]

end Cursor

/-! ## The end of data inside a procedure -/

/-- **The end of data, confirmed.** Inside a procedure, whatever the library does at a
request for a batch: an error result with the code for the end of data is the end, and so
is a request that returns this code, if the flag of the result is set. Where it is not, and
only there, the end of data comes out as an error. A cursor in need of the batch ends
without an error in the first case, and with that error in the second. -/
theorem end_of_data_confirmed {σ : Type} (L : Library σ) (r : QueryResult) (what : Request)
    (w : World σ) (hr : r.session = none) (hk : (r.kind L w).1.1 = .cursor) :
    let signs := r.signs L what (r.kind L w).2
    let answer := (r.batch L what w).1.1
    let reported := Error.server Code.endOfData what.failure
    (signs.TellEnd → ¬ signs.Unconfirmed → answer = .ok .endOfData) ∧
    (signs.Unconfirmed → answer = .error reported) ∧
    (∀ e, answer = .error e → e.isEndOfData → signs.Unconfirmed) ∧
    ∀ (c : Cursor) (w₀ : World σ) (n : Nat), c.result = r → c.Needs L what w₀ w →
      (signs.TellEnd → ¬ signs.Unconfirmed →
        (Cursor.nexts L n c w₀).1.1 = List.replicate n .finished) ∧
      (signs.Unconfirmed →
        (Cursor.nexts L (n + 1) c w₀).1.1 = .error reported :: List.replicate n .finished) := by
  intro signs answer reported
  obtain ⟨details, hanswer⟩ := QueryResult.batch_verdict what hr hk
  have hend (h : signs.TellEnd) (hc : ¬ signs.Unconfirmed) : answer = .ok .endOfData :=
    hanswer.trans (Signs.verdict_of_tellEnd h hc)
  have herror (h : signs.Unconfirmed) : answer = .error reported :=
    hanswer.trans (Signs.verdict_of_unconfirmed h)
  refine ⟨hend, herror, ?_, ?_⟩
  · exact fun e he heof => Signs.unconfirmed_of_verdict (hanswer.symm.trans he) heof
  · rintro c w₀ n rfl hneeds
    refine ⟨fun h hc => ?_, fun h => ?_⟩
    · cases n with
      | zero => rfl
      | succ n => exact Cursor.nexts_of_next (Cursor.next_of_needs_end hneeds hk (hend h hc)) n
    · exact Cursor.nexts_of_next (Cursor.next_of_needs_error hneeds hk (herror h)) n

/-- A host library with one cursor, whose only fetch returns the code for the end of data
and changes the result like this. -/
def Playback.ending (change : Playback.Content → Playback.Content) : World Playback.State :=
  .start {
    script := ⟨.host, [], 0, 0, [], [], 8192, 0, 0⟩
    last := 1
    items := [(1, .result ⟨.empty .host 0x24, [⟨8, change⟩]⟩)] }

/-- The fetch sets the flag: a cursor over the result ends. -/
theorem end_of_data_confirmed_flagged :
    let L := (Playback.hostTable .full).library
    let w := Playback.ending fun content => { content with atEnd := 1 }
    let r := QueryResult.new ⟨1⟩ none
    r.session = none ∧ (r.kind L w).1.1 = .cursor ∧ (r.openRows L w).1.1 = .ok .endOfData ∧
      (Cursor.nexts L 2 (.ofResult r) w).1.1 = [.finished, .finished] := by
  intro L w r
  have hk : (r.kind L w).1.1 = .cursor := by decide
  have htell : (r.signs L .opening (r.kind L w).2).TellEnd := by decide
  have hconfirmed : ¬ (r.signs L .opening (r.kind L w).2).Unconfirmed := by decide
  obtain ⟨hend, -, -, hcursor⟩ := end_of_data_confirmed L r .opening w rfl hk
  exact ⟨rfl, hk, hend htell hconfirmed,
    (hcursor (.ofResult r) w 2 rfl ⟨rfl, rfl⟩).1 htell hconfirmed⟩

/-- The fetch leaves the result as it is: the end of data comes out as an error. -/
theorem end_of_data_unconfirmed :
    let L := (Playback.hostTable .full).library
    let w := Playback.ending id
    let r := QueryResult.new ⟨1⟩ none
    r.session = none ∧ (r.kind L w).1.1 = .cursor ∧
      (r.signs L .opening (r.kind L w).2).ok ∧
      (r.signs L .opening (r.kind L w).2).code = Code.endOfData ∧
      ∃ e, (r.openRows L w).1.1 = .error e ∧ e.isEndOfData := by
  intro L w r
  have hk : (r.kind L w).1.1 = .cursor := by decide
  have hsigns : (r.signs L .opening (r.kind L w).2).Unconfirmed := by decide
  obtain ⟨details, hanswer⟩ := QueryResult.batch_verdict .opening rfl hk
  exact ⟨rfl, hk, hsigns.1, hsigns.2.1, _,
    hanswer.trans (Signs.verdict_of_unconfirmed hsigns), rfl⟩

end Querent
