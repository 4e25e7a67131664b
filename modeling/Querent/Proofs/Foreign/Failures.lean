import Mathlib.Algebra.Ring.Int.Defs
import Querent.Procedure.RowBuilder
import Querent.Proofs.Foreign.Delivery
import Querent.Proofs.Result.EndOfData
import Querent.Proofs.Sharing.Log

/-!
# Codes of failure

Some functions of a foreign library return a long that is zero for success: fetching and
opening a cursor, closing a connection, adding to a row and ending one. The code is cut to
32 bits before it is looked at. So an error comes of every code but the multiples of 2 to
the 32; of those that are not zero, a failure passes for success, and a connection that was
not closed is not freed either.
-/

namespace Querent

open Foreign

/-! ## Codes that are cut -/

/-- All codes are heard but those that are lost with their high bits. -/
theorem Foreign.signals_iff {code : Int64} : Signals code ↔ ¬ (2 ^ 32 : Int) ∣ code.toInt := by
  have hzero : (0 : Int32).toInt = 0 := rfl
  rw [Signals, Ne, not_iff_not, ← Int32.toInt_inj, Int64.toInt_toInt32, hzero]
  exact Int.dvd_iff_bmod_eq_zero.symm

/-- The call succeeds exactly if the code that the library returned is one that is taken
for success. -/
def Heeds {α : Type} (code : Int64) (outcome : Except Error α) : Prop :=
  outcome.isOk ↔ ¬ Signals code

theorem isOk_iff_of_eq {α : Type} {p : Prop} [Decidable p] {outcome : Except Error α} {a : α}
    {e : Error} (h : outcome = if p then .ok a else .error e) : outcome.isOk ↔ p := by
  rw [h]
  by_cases hp : p <;> simp [hp, Except.isOk, Except.toBool]

theorem heeds_of_eq {α : Type} {code : Int64} {outcome : Except Error α} {a : α} {e : Error}
    (h : outcome = if code.toInt32 = Code.ok then .ok a else .error e) : Heeds code outcome := by
  rw [Heeds, Signals, not_not]
  exact isOk_iff_of_eq h

/-- A call whose code is believed: it succeeds with the code for success, and no other. -/
theorem believed_isOk_iff {σ : Type} {act : StateM σ Code}
    {failing : Code → Action σ (Except Error Unit)} {w : World σ}
    (hfailing : ∀ code w', (failing code w').1.isOk = false) :
    ((do
      let code ← call act
      if code = Code.ok then return .ok ()
      else failing code : Action σ (Except Error Unit)) w).1.isOk ↔ (act w.lib).1 = Code.ok := by
  rw [bind_apply, call_apply]
  by_cases hcode : (act w.lib).1 = Code.ok
  · rw [if_pos hcode]
    exact iff_of_true rfl hcode
  · rw [if_neg hcode, hfailing]
    exact iff_of_false Bool.false_ne_true hcode

/-! ## Requests -/

namespace QueryResult

variable {σ : Type} (L : Library σ) (r : QueryResult)

/-- The error for a request that returned `code`, of a result that tells no reason. -/
def blamed (code : Code) (what : Request) : Error :=
  match r.session with
  | some _ => .client code what.failure
  | none => .server code what.failure

/-- A cursor, over an open connection or none, that is still in order after the request
and not at the end of its data. -/
structure Sound (what : Request) (w : World σ) : Prop where
  kind : (r.kind L w).1.1 = .cursor
  talks : ∀ id ∈ r.session, (w.line id).isSome
  ok : (r.signs L what (r.kind L w).2).ok = true
  going : (r.signs L what (r.kind L w).2).flagged = false

variable {L r} {what : Request} {w : World σ}

theorem canTalk_of_line (h : ∀ id ∈ r.session, (w.line id).isSome) : r.canTalk w = (true, w) := by
  unfold canTalk
  cases hsession : r.session with
  | none => rfl
  | some id => exact Prod.ext (h id hsession) rfl

theorem classify_of_ok {code : Code} (hok : (r.isOk L w).1 = true)
    (hgoing : (r.atEnd L (r.isOk L w).2).1 = false) : (r.classify L code what w).1 =
      if code = Code.ok then .ok .batch else .error (r.blamed code what) := by
  unfold classify
  rw [bind_apply]
  generalize r.isOk L w = state at hok hgoing ⊢
  obtain ⟨ok, w'⟩ := state
  obtain rfl : ok = true := hok
  by_cases hcode : code = Code.ok
  · simp [hcode]
  · have hnot : ¬ (code = Code.ok ∧ true = true) := fun h => hcode h.1
    dsimp only at hgoing ⊢
    rw [if_neg hnot, if_neg hcode, if_neg (by decide), bind_apply, hgoing,
      if_neg Bool.false_ne_true, blamed]
    cases r.session <;> rfl

theorem kind_sessions : (r.kind L w).2.sessions = w.sessions := by
  obtain ⟨handle, _ | known, session⟩ := r <;> rfl

/-- Of such a cursor all depends on the code. -/
theorem Sound.batch_eq (h : r.Sound L what w) :
    (r.batch L what w).1.1 =
      if (r.calling L what (r.kind L w).2).1 = Code.ok then .ok .batch
      else .error (r.blamed (r.calling L what (r.kind L w).2).1 what) := by
  obtain ⟨hkind, htalks, hok, hgoing⟩ := h
  -- the request is made by the result that knows its kind, over the same handle and session
  have hsame : r.Same (r.kind L w).1.2 := kind_gives L r w
  have hline : ∀ id ∈ (r.kind L w).1.2.session, ((r.kind L w).2.line id).isSome := by
    rw [hsame.2]
    intro id hid
    rw [World.line, kind_sessions]
    exact htalks id hid
  have hcalling : (r.kind L w).1.2.calling L what = r.calling L what := by
    unfold calling
    rw [hsame.1]
  have hblamed (code : Code) : (r.kind L w).1.2.blamed code what = r.blamed code what := by
    rw [blamed, blamed, hsame.2]
  rw [← signs_of_same hsame] at hok hgoing
  dsimp only [signs] at hok hgoing
  rw [batch_of_cursor hkind]
  dsimp only
  rw [request_of_canTalk (canTalk_of_line hline), classify_of_ok hok hgoing, hcalling, hblamed]

end QueryResult

namespace Foreign

variable {σ τ : Type} {ct : ClientTable σ} {ht : HostTable τ} {r : QueryResult}

theorem ClientTable.fetch_heeds {w : World σ} (h : r.Sound ct.library .fetching w) :
    Heeds (ct.fetch r.handle (r.kind ct.library w).2.lib).1 (r.fetch ct.library w).1.1 :=
  heeds_of_eq h.batch_eq

theorem HostTable.fetch_heeds {w : World τ} (h : r.Sound ht.library .fetching w) :
    Heeds (ht.fetch r.handle (r.kind ht.library w).2.lib).1 (r.fetch ht.library w).1.1 :=
  heeds_of_eq h.batch_eq

/-- In a client, opening a cursor is no call. -/
theorem ClientTable.openRows_eq {w : World σ} (h : r.Sound ct.library .opening w) :
    (r.openRows ct.library w).1.1 = .ok .batch := by
  have hcode : (r.calling ct.library .opening (r.kind ct.library w).2).1 = Code.ok := rfl
  have hbatch := h.batch_eq
  rwa [if_pos hcode] at hbatch

/-- Opening and the first fetch both have to succeed. -/
theorem HostTable.openCode_eq_ok_iff {h : Handle} {s : τ} :
    (ht.openCode h s).1 = Code.ok ↔
      ¬ Signals (ht.openCursor h s).1 ∧ ¬ Signals (ht.fetch h (ht.openCursor h s).2).1 := by
  rw [openCode, bind_apply, Signals, Signals, not_not, not_not]
  by_cases hopen : (ht.openCursor h s).1.toInt32 = Code.ok
  · rw [if_pos hopen]
    constructor
    · intro hfetch
      exact ⟨hopen, hfetch⟩
    · exact And.right
  · rw [if_neg hopen]
    constructor
    · intro hcode
      exact absurd hcode hopen
    · rintro ⟨hcode, -⟩
      exact absurd hcode hopen

theorem HostTable.openRows_isOk_iff {w : World τ} (h : r.Sound ht.library .opening w) :
    let opened := ht.openCursor r.handle (r.kind ht.library w).2.lib
    (r.openRows ht.library w).1.1.isOk ↔
      ¬ Signals opened.1 ∧ ¬ Signals (ht.fetch r.handle opened.2).1 := by
  intro opened
  have hcode : (r.calling ht.library .opening (r.kind ht.library w).2).1 =
      (ht.openCode r.handle (r.kind ht.library w).2.lib).1 := rfl
  have hbatch := h.batch_eq
  rw [hcode] at hbatch
  exact (isOk_iff_of_eq hbatch).trans openCode_eq_ok_iff

end Foreign

/-! ## Closing -/

section Closing

variable {σ : Type} {con : Handle}

theorem hangUp_isOk_iff {L : Library σ} {w : World σ} :
    (Session.hangUp L con w).1.isOk ↔ (L.client.close con w.lib).1 = Code.Client.ok :=
  believed_isOk_iff fun _ _ => rfl

variable (ct : ClientTable σ) {c : Connection} {w : World (σ × List Call)}

/-- The code of a close decides what it comes to, and if the connection is freed. -/
theorem Connection.close_heeds (hline : w.line c.session = some con) :
    Heeds (ct.close con w.lib.1).1 (c.close ct.library.recorded w).1 ∧
      (c.close ct.library.recorded w).2.log =
        w.log ++ hangUpCalls con (ct.close con w.lib.1).1.toInt32 := by
  rw [Connection.close, close_of_some _ hline]
  constructor
  · rw [Heeds, Signals, not_not]
    exact hangUp_isOk_iff
  · exact log_hangUp_answered ct.library con _

/-- The last holder closes the connection too, and has nobody to tell. -/
theorem Connection.log_drop_of_last (hline : w.line c.session = some con)
    (hlast : (departed c.session w).holders c.session = 0) :
    (c.drop ct.library.recorded w).2.log =
      w.log ++ hangUpCalls con (ct.close con w.lib.1).1.toInt32 := by
  rw [Connection.drop, leave_of_last _ hline hlast]
  exact log_hangUp_answered ct.library con _

end Closing

/-! ## Rows that are built -/

namespace RowBuilder

variable {τ : Type} {ht : HostTable τ} {b : RowBuilder} {w : World τ}

/-- A value is added if there is room for it, it can be passed, and the code is that of success. -/
theorem push_isOk_iff {v : Value} :
    (b.push ht.library v w).1.isOk ↔ (b.fits ht.library v w).1 = true ∧
      ∃ cell, Cell.ofValue? v = some cell ∧ ¬ Signals (ht.add b.result.handle v.type.tag.toInt8 cell
        (b.fits ht.library v w).2.lib).1 := by
  rw [push, bind_apply]
  generalize b.fits ht.library v w = room
  obtain ⟨fits, w'⟩ := room
  cases fits with
  | false => exact iff_of_false Bool.false_ne_true fun h => Bool.false_ne_true h.1
  | true =>
    have hadd : (ht.library.host.add b.result.handle v w'.lib).1 = Code.ok ↔
        ∃ cell, Cell.ofValue? v = some cell ∧
          ¬ Signals (ht.add b.result.handle v.type.tag.toInt8 cell w'.lib).1 := by
      dsimp only [HostTable.library, HostTable.hostCalls]
      cases Cell.ofValue? v with
      | none => exact iff_of_false (by decide : Code.invalid ≠ Code.ok) (by simp)
      | some cell =>
        simp only [Option.some.injEq, exists_eq_left', Signals, not_not]
        exact Iff.rfl
    rw [if_pos rfl, and_iff_right rfl, ← hadd]
    exact believed_isOk_iff fun _ _ => rfl

theorem closeRow_heeds :
    Heeds (ht.closeRow b.result.handle w.lib).1 (b.closeRow ht.library w).1 := by
  rw [Heeds, Signals, not_not]
  exact believed_isOk_iff fun _ _ => rfl

end RowBuilder

/-- **What is heard of failures.** Over any client library and any library for procedures,
a code that a cursor fetch, the opening of a cursor, the closing of a connection, adding to
a row or ending one returns makes an error, unless it is zero in its low 32 bits. Results
are those in order, not at the end of their data, with a connection that is open. A close
with such a code is followed by freeing the connection, also where the last holder leaves;
after another code neither an error nor the freeing comes. -/
theorem failures_heard {σ τ : Type} (ct : ClientTable σ) (ht : HostTable τ) :
    (∀ code, Signals code ↔ ¬ (2 ^ 32 : Int) ∣ code.toInt) ∧
    (∀ r w, QueryResult.Sound ct.library r .fetching w →
      Heeds (ct.fetch r.handle (r.kind ct.library w).2.lib).1 (r.fetch ct.library w).1.1) ∧
    (∀ r w, QueryResult.Sound ht.library r .fetching w →
      Heeds (ht.fetch r.handle (r.kind ht.library w).2.lib).1 (r.fetch ht.library w).1.1) ∧
    (∀ r w, QueryResult.Sound ct.library r .opening w →
      (r.openRows ct.library w).1.1 = .ok .batch) ∧
    (∀ r w, QueryResult.Sound ht.library r .opening w →
      let opened := ht.openCursor r.handle (r.kind ht.library w).2.lib
      (r.openRows ht.library w).1.1.isOk ↔
        ¬ Signals opened.1 ∧ ¬ Signals (ht.fetch r.handle opened.2).1) ∧
    (∀ (c : Connection) (con : Handle) (w : World (σ × List Call)), w.line c.session = some con →
      let code := (ct.close con w.lib.1).1
      Heeds code (c.close ct.library.recorded w).1 ∧
      (c.close ct.library.recorded w).2.log = w.log ++ hangUpCalls con code.toInt32 ∧
      ((departed c.session w).holders c.session = 0 →
        (c.drop ct.library.recorded w).2.log = w.log ++ hangUpCalls con code.toInt32)) ∧
    (∀ (b : RowBuilder) v w, (b.push ht.library v w).1.isOk ↔ (b.fits ht.library v w).1 = true ∧
      ∃ cell, Cell.ofValue? v = some cell ∧
        ¬ Signals (ht.add b.result.handle v.type.tag.toInt8 cell (b.fits ht.library v w).2.lib).1) ∧
    (∀ (b : RowBuilder) w,
      Heeds (ht.closeRow b.result.handle w.lib).1 (b.closeRow ht.library w).1) := by
  refine ⟨fun code => signals_iff, fun r w => ClientTable.fetch_heeds,
    fun r w => HostTable.fetch_heeds, fun r w => ClientTable.openRows_eq,
    fun r w => HostTable.openRows_isOk_iff, ?_, fun b v w => RowBuilder.push_isOk_iff,
    fun b w => RowBuilder.closeRow_heeds⟩
  intro c con w hline code
  obtain ⟨heeds, hlog⟩ := Connection.close_heeds ct hline
  exact ⟨heeds, hlog, fun hlast => Connection.log_drop_of_last ct hline hlast⟩

/-- A library that answers all of these calls with one code. There are a connection and a
cursor that a fetch leaves as it is. -/
def Playback.answering (side : Playback.Side) (code : Int64) : Playback.State where
  script := ⟨side, [], 0, code, [], [], 8192, code, code⟩
  last := 2
  items := [(1, .connection),
    (2, .result ⟨{ Playback.Content.empty side 0x24 with openCode := code }, [⟨code, id⟩]⟩)]

/-- The code has high bits, and is 7 in the low ones: each of the calls fails. -/
theorem failures_heard_high_bits :
    let code : Int64 := 4294967303
    let client := Playback.clientTable .full
    let host := Playback.hostTable .full
    let sessions : List Session := [⟨some ⟨1⟩, "", 1⟩]
    let w : World Playback.State := ⟨Playback.answering .client code, sessions⟩
    let w' : World (Playback.State × List Call) := ⟨(Playback.answering .client code, []), sessions⟩
    let v : World Playback.State := ⟨Playback.answering .host code, []⟩
    let r := QueryResult.new ⟨2⟩ (some 0)
    let s := QueryResult.new ⟨2⟩ none
    let closed := Connection.close client.library.recorded ⟨0⟩ w'
    ¬ (r.fetch client.library w).1.1.isOk ∧ ¬ (s.fetch host.library v).1.1.isOk ∧
      ¬ (s.openRows host.library v).1.1.isOk ∧ ¬ closed.1.isOk ∧
      closed.2.log = [.close ⟨1⟩ 7, .destroy ⟨1⟩, .explain 7] ∧
      ¬ (RowBuilder.push host.library ⟨s⟩ .null v).1.isOk ∧
      ¬ (RowBuilder.closeRow host.library ⟨s⟩ v).1.isOk := by
  intro code client host sessions w w' v r s closed
  have signals : Signals code := by
    rw [signals_iff]
    decide
  have going : r.Sound client.library .fetching w := by
    refine ⟨by decide, ?_, by decide, by decide⟩
    rintro id ⟨⟩
    rfl
  have going' : s.Sound host.library .fetching v :=
    ⟨by decide, by simp [s, QueryResult.new], by decide, by decide⟩
  have starting : s.Sound host.library .opening v :=
    ⟨by decide, by simp [s, QueryResult.new], by decide, by decide⟩
  obtain ⟨-, fetched, fetched', -, opened, closing, pushed, ended⟩ := failures_heard client host
  obtain ⟨heeds, log, -⟩ := closing ⟨0⟩ ⟨1⟩ w' rfl
  have calls : hangUpCalls ⟨1⟩ code.toInt32 = [.close ⟨1⟩ 7, .destroy ⟨1⟩, .explain 7] := by
    have cut : code.toInt32 = 7 := by decide
    rw [hangUpCalls, cut, if_neg (by decide)]
  refine ⟨?_, ?_, ?_, ?_, log.trans calls, ?_, ?_⟩
  · exact fun h => (fetched r w going).mp h signals
  · exact fun h => (fetched' s v going').mp h signals
  · exact fun h => ((opened s v starting).mp h).1 signals
  · exact fun h => heeds.mp h signals
  · intro h
    obtain ⟨-, cell, -, hadded⟩ := (pushed ⟨s⟩ .null v).mp h
    exact hadded signals
  · exact fun h => (ended ⟨s⟩ v).mp h signals

/-- The code is not zero, but is so in its low bits: each of the calls succeeds, and the
connection that was not closed is not freed. -/
theorem cut_failure_passes :
    let code : Int64 := 4294967296
    let client := Playback.clientTable .full
    let host := Playback.hostTable .full
    let sessions : List Session := [⟨some ⟨1⟩, "", 1⟩]
    let w : World Playback.State := ⟨Playback.answering .client code, sessions⟩
    let w' : World (Playback.State × List Call) := ⟨(Playback.answering .client code, []), sessions⟩
    let v : World Playback.State := ⟨Playback.answering .host code, []⟩
    let r := QueryResult.new ⟨2⟩ (some 0)
    let s := QueryResult.new ⟨2⟩ none
    let closed := Connection.close client.library.recorded ⟨0⟩ w'
    code ≠ 0 ∧
      (r.fetch client.library w).1.1.isOk ∧ (s.fetch host.library v).1.1.isOk ∧
      (s.openRows host.library v).1.1.isOk ∧ closed.1.isOk ∧
      closed.2.log = [.close ⟨1⟩ 0] ∧ closed.2.lib.1.connections = 1 ∧
      (RowBuilder.push host.library ⟨s⟩ .null v).1.isOk ∧
      (RowBuilder.closeRow host.library ⟨s⟩ v).1.isOk := by
  exact ⟨by decide, by decide +kernel, by decide +kernel, by decide +kernel, by decide +kernel, rfl,
    by decide +kernel, by decide +kernel, by decide +kernel⟩

end Querent
