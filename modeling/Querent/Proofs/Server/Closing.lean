import Querent.Proofs.Ownership.DbApi
import Querent.Proofs.Result.Along
import Querent.Proofs.Text.Passing

/-!
# After a session was closed

Whatever is asked of the objects of a closed session, the server receives no statement
and no fetch. What would need it fails at once: a statement, a request for a batch, a
new cursor of the DB-API.
-/

namespace Querent

namespace Server

/-! ## Calls that the server does not count -/

/-- No statement and no fetch has come in between. -/
def Idle (s s' : State) : Prop := s'.executed = s.executed ∧ s'.fetches = s.fetches

instance : IsPreorder State Idle where
  refl _ := ⟨rfl, rfl⟩
  trans _ _ _ h h' := ⟨h'.1.trans h.1, h'.2.trans h.2⟩

namespace Idle

variable (h : Handle)

/-- An action that the server does not see. -/
theorem of_rfl {α : Type} {act : StateM State α}
    (h : ∀ s, (act s).2.executed = s.executed ∧ (act s).2.fetches = s.fetches) : Along Idle act :=
  h

theorem look : Along Idle (MonadState.get : StateM State State) := of_rfl fun _ => ⟨rfl, rfl⟩

theorem noted (m : Misuse) : Along Idle (note m) := of_rfl fun _ => ⟨rfl, rfl⟩

theorem removed : Along Idle (remove h) := of_rfl fun _ => ⟨rfl, rfl⟩

theorem get (operation : String) : Along Idle (Server.get h operation) := by
  refine look.bind fun s => ?_
  split
  · exact .pure _
  · exact (noted _).bind fun _ => .pure _

theorem inspect {α : Type} (operation : String) (missing : α) (f : Item → α) :
    Along Idle (Server.inspect operation missing f h) :=
  (get h operation).bind fun _ => .pure _

theorem release (kind : ResultKind) : Along Idle (Server.release h kind) := by
  refine (removed h).bind fun item => ?_
  split
  · exact of_rfl fun _ => ⟨rfl, rfl⟩
  · refine look.bind fun s => ?_
    split <;> exact of_rfl fun _ => ⟨rfl, rfl⟩

theorem copied (rows : Rows) : Along Idle (Server.copied rows) :=
  (of_rfl fun _ => ⟨rfl, rfl⟩ : Along Idle (alloc _)).bind fun _ => .pure _

theorem copyBatch : Along Idle (Server.copyBatch h) := by
  refine (get h _).bind fun item => ?_
  split
  · split
    · exact copied _
    · exact .pure _
  · exact .pure _

theorem copyRow : Along Idle (Server.copyRow h) := by
  refine (get h _).bind fun item => ?_
  split
  · exact copied _
  · exact copied _
  · exact .pure _

theorem nextRow : Along Idle (Server.nextRow h) := by
  refine (get h _).bind fun item => ?_
  split
  · exact (of_rfl fun _ => ⟨rfl, rfl⟩ : Along Idle (put h _)).bind fun _ => .pure _
  · exact .pure _

theorem close : Along Idle (Server.close h) := by
  have counted : Along Idle (modify fun s : State => { s with closes := s.closes + 1 }) :=
    of_rfl fun _ => ⟨rfl, rfl⟩
  refine counted.bind fun _ => ?_
  refine (removed h).bind fun item => ?_
  split
  · exact (of_rfl fun _ => ⟨rfl, rfl⟩ : Along Idle (markReleased h)).bind fun _ => .pure _
  · exact (noted _).bind fun _ => .pure _

theorem destroy : Along Idle (Server.destroy h) := by
  refine (removed h).bind fun item => ?_
  split
  · exact of_rfl fun _ => ⟨rfl, rfl⟩
  · exact .pure _

end Idle

/-! ## Where a session is closed -/

/-- If the session was closed, it still is, and the server has received nothing. -/
def Silent (id : SessionId) (w w' : World State) : Prop :=
  w.line id = none → w'.line id = none ∧ Idle w.lib w'.lib

instance (id : SessionId) : IsPreorder (World State) (Silent id) where
  refl _ hc := ⟨hc, refl_of Idle _⟩
  trans _ _ _ h h' hc :=
    ⟨(h' (h hc).1).1, trans_of Idle (h hc).2 (h' (h hc).1).2⟩

variable {id : SessionId}

namespace Silent

theorem call {α : Type} {act : StateM State α} (h : Along Idle act) :
    Along (Silent id) (Querent.call act) :=
  fun w hc => ⟨hc, h w.lib⟩

theorem calm : Calm library (Silent id) where
  kind _ := call (Idle.inspect _ _ _ _)
  isOk _ := call (Idle.inspect _ _ _ _)
  code _ := call (Idle.inspect _ _ _ _)
  details _ := call (Idle.inspect _ _ _ _)
  report _ := call (Idle.inspect _ _ _ _)
  atEnd _ := call (Idle.inspect _ _ _ _)
  release _ k := call (Idle.release _ k)
  copyBatch _ := call (Idle.copyBatch _)
  copyRow _ := call (Idle.copyRow _)
  nextRow _ := call (Idle.nextRow _)
  fieldCount _ := call (Idle.inspect _ _ _ _)
  field _ _ := call (Idle.inspect _ _ _ _)

/-- A change of a session that opens none. -/
theorem update {i : SessionId} {f : Session → Session}
    (hf : ∀ s : Session, s.handle = none → (f s).handle = none) :
    Along (Silent id) (Session.update i f) := by
  intro w hc
  refine ⟨?_, rfl, rfl⟩
  rw [line_update]
  split
  · next hi =>
    subst hi
    rw [World.line] at hc
    cases hs : w.sessions[id]? with
    | none => rfl
    | some s =>
      rw [hs] at hc
      exact hf s hc
  · exact hc

theorem join (i : SessionId) : Along (Silent id) (Session.join i) := update fun _ h => h

theorem clear (i : SessionId) : Along (Silent id) (Session.clear i) := update fun _ _ => rfl

theorem handle? (i : SessionId) : Along (Silent id) (Session.handle? i) :=
  fun w hc => ⟨hc, refl_of Idle w.lib⟩

theorem hangUp (con : Handle) : Along (Silent id) (Session.hangUp library con) := by
  refine (call (Idle.close con)).bind fun code => ?_
  split
  · exact .pure _
  · exact (call (Idle.destroy con)).bind fun _ =>
      (call (Idle.of_rfl fun _ => ⟨rfl, rfl⟩)).bind fun _ => .pure _

theorem close (i : SessionId) : Along (Silent id) (Session.close library i) := by
  refine (handle? i).bind fun con => ?_
  split
  · exact .pure _
  · next con => exact (clear i).bind fun _ => hangUp con

theorem leave (i : SessionId) : Along (Silent id) (Session.leave library i) := by
  have departed : Along (Silent id)
      (Session.update i fun s => { s with holders := s.holders - 1 }) := update fun _ h => h
  refine departed.bind fun _ => ?_
  refine Along.bind (fun w hc => ⟨hc, refl_of Idle w.lib⟩) fun s => ?_
  split
  · next con _ => exact (clear i).bind fun _ => (hangUp con).bind fun _ => .pure _
  · exact .pure _

theorem leave? (i : Option SessionId) : Along (Silent id) (Session.leave? library i) := by
  cases i with
  | none => exact .pure _
  | some i => exact leave i

end Silent

end Server

open Server (Silent library)

variable {id : SessionId} {w : World Server.State}

/-! ## Results and cursors -/

namespace QueryResult

theorem silent_drop (r : QueryResult) : Along (Silent id) (r.drop library) :=
  (r.along_kind Silent.calm).bind fun (k, r') =>
    (Silent.calm.release r'.handle k).bind fun _ => Silent.leave? r'.session

/-- On a closed session no request is made. -/
theorem request_closed {r : QueryResult} (hr : r.session = some id) (hc : w.line id = none)
    (what : Request) : r.request library what w = (.error .connectionClosed, w) := by
  have shut : r.canTalk w = (false, w) := by
    unfold canTalk
    rw [hr]
    show ((w.line id).isSome, w) = _
    rw [hc]
    rfl
  unfold request
  rw [bind_apply, shut]
  rfl

end QueryResult

namespace Cursor

theorem silent_drop (c : Cursor) : Along (Silent id) (c.drop library) :=
  (c.along_releaseBatch Silent.calm).bind fun c' => c'.result.silent_drop

end Cursor

/-! ## Connections -/

/-- Why a statement is not sent over a closed connection: if it has a NUL then for the first
one, told by the bytes before it, and only otherwise because the connection is closed. -/
structure Unsendable (sql : String) (e : Error) : Prop where
  passable : Passable sql → e = .connectionClosed
  nul : ∀ before after, sql.toList = before ++ '\x00' :: after → '\x00' ∉ before →
    e = .invalidArgument (.nul (Text.Utf8.encode before).length)

namespace Connection

variable {c : Connection} {sql text : String}

/-- Over a closed session no statement is sent. -/
theorem execute_closed (hs : c.session = id) (hc : w.line id = none) (sql : String) :
    ∃ e, c.execute library sql w = (.error e, w) ∧ Unsendable sql e := by
  unfold execute
  obtain ⟨hpassable, hp⟩ | ⟨hnot, e, hp⟩ := passable?_of sql
  · rw [hp]
    refine ⟨.connectionClosed, ?_, fun _ => rfl, fun before after hsql _ => ?_⟩
    · dsimp only
      rw [bind_apply, handle?_eq, hs, hc]
      rfl
    · rw [Passable, hsql] at hpassable
      exact absurd (List.mem_append_right _ List.mem_cons_self) hpassable
  · rw [hp]
    refine ⟨e, rfl, fun hpassable => absurd hpassable hnot, fun before after hsql hbefore => ?_⟩
    exact Except.error.inj (hp.symm.trans (passable?_of_nul hsql hbefore))

end Connection

/-! ## The DB-API -/

namespace DbApi

namespace Cursor

variable {c : Cursor}

theorem silent_dropRows (c : Cursor) : Along (Silent id) (c.dropRows library) := by
  unfold dropRows
  split
  · next rows _ => exact rows.silent_drop
  · exact .pure _

theorem silent_close (c : Cursor) : Along (Silent id) (c.close library) :=
  c.silent_dropRows.bind fun _ => .pure _

theorem silent_drop (c : Cursor) : Along (Silent id) (c.drop library) :=
  Along.bind (Silent.leave _) fun _ => c.silent_dropRows

/-- Neither a statement nor the description that it needs is asked for. -/
theorem send_closed (hs : c.connection.session = id) (hc : w.line id = none) (fuel : Nat)
    (sql : String) : ∃ e, c.send library fuel sql w = ((some (.error e), c), w) := by
  obtain ⟨e, sent, -⟩ := Connection.execute_closed hs hc sql
  have known (columns : List String)
      (hd : describe library fuel c.connection sql w = (some (.ok columns), w)) :
      c.send library fuel sql w = ((some (.error (.failure e)), c), w) := by
    rw [send, bind_apply, hd]
    dsimp only
    rw [bind_apply, sent]
    rfl
  cases hsel : Statement.selectColumns sql with
  | named names => exact ⟨_, known names (by rw [describe, hsel]; rfl)⟩
  | unknown => exact ⟨_, known [] (by rw [describe, hsel]; rfl)⟩
  | star table =>
    obtain ⟨e', asked, -⟩ := Connection.execute_closed hs hc ("describe " ++ table)
    have hd : describe library fuel c.connection sql w =
        (some (.error (.cannotDescribe e')), w) := by
      rw [describe, hsel]
      dsimp only
      rw [bind_apply, asked]
      rfl
    exact ⟨_, by rw [send, bind_apply, hd]; rfl⟩

theorem execute_closed (hs : c.connection.session = id) (hc : w.line id = none) (fuel : Nat)
    (op : String) (params : List Value) :
    ∃ e, c.execute library fuel op params w =
      ((some (.error e), c.reset), (c.close library w).2) := by
  have closed : (c.close library w).1 = c.reset := c.close_gives w
  rw [execute, bind_apply, closed]
  cases statementFor op params with
  | error e => exact ⟨e, rfl⟩
  | ok sql => exact send_closed (c := c.reset) hs (c.silent_close w hc).1 fuel sql

end Cursor

namespace Connection

variable {c : Connection}

theorem cursor_closed (hs : c.inner.session = id) (hc : w.line id = none) :
    c.cursor w = (.error .noConnection, w) := by
  have shut : c.isClosed w = (true, w) := by
    show ((w.line c.inner.session).isNone, w) = _
    rw [hs, hc]
    rfl
  rw [cursor, bind_apply, shut]
  rfl

theorem execute_closed (hs : c.inner.session = id) (hc : w.line id = none) (fuel : Nat)
    (op : String) (params : List Value) (format : RowFormat) :
    c.execute library fuel op params format w = (some (.error .noConnection), w) := by
  rw [execute, bind_apply, cursor_closed hs hc]
  rfl

end Connection

end DbApi

end Querent
