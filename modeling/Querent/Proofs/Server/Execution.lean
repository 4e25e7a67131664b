import Querent.Procedure.Basic
import Querent.Proofs.Server.Answers

/-!
# Results of statements

A statement that the server can answer, sent over an open connection or by a
procedure, obtains a result under a handle that was never used before, with the item
of its reply there.
-/

namespace Querent

namespace Server

/-- An execution has obtained the result `r`, with the item `i` that the reply
brought. -/
structure Obtained (w w' : World State) (r : QueryResult) (i : Item) : Prop where
  stands : Stands w' r i
  talks : Talks w' r
  fresh : w.lib.last < r.handle.number
  unread : r.known = none
  fetches : w'.lib.fetches = w.lib.fetches

variable {w : World State} {H : Holdings} {sql : String} {i : Item}

/-- The world after a statement was received and its reply put in place. -/
def answered (w : World State) (sql : String) (i : Item) : World State :=
  { w with lib := (alloc i { w.lib with executed := w.lib.executed ++ [sql] }).2 }

/-- What comes of a statement is told by the item of its reply. -/
theorem receive_reply (s : State) : receive sql s = ((match (s.replyTo sql).item with
    | .ok item => return .ok (← alloc item)
    | .error code => return .error code : StateM State (Except Code Handle))
      { s with executed := s.executed ++ [sql] }) := rfl

theorem receive_eq (hitem : (w.lib.replyTo sql).item = .ok i) :
    call (receive sql) w = (.ok ⟨w.lib.last + 1⟩, answered w sql i) := by
  have run : receive sql w.lib = (.ok ⟨w.lib.last + 1⟩, (answered w sql i).lib) := by
    rw [receive_reply, hitem]
    rfl
  rw [call_apply, run]
  rfl

theorem receive_failed {code : Code} (hitem : (w.lib.replyTo sql).item = .error code) :
    (call (receive sql) w).1 = .error code := by
  rw [call_apply, receive_reply, hitem]
  rfl

theorem answered_get? (ha : Accounts w H) (n : Nat) : (answered w sql i).lib.objects.get? n =
    if n = w.lib.last + 1 then some i else w.lib.objects.get? n :=
  ha.alloc_get? i n

theorem Stands.answered {session : Option SessionId} (ha : Accounts w H) (hplain : i.Plain) :
    Stands (answered w sql i) (.new ⟨w.lib.last + 1⟩ session) i where
  bounded := by
    intro n hn
    have hn : w.lib.last + 1 < n := hn
    rw [answered_get? ha, if_neg (by omega)]
    exact ha.bounded n (by omega)
  there := (answered_get? ha _).trans (if_pos rfl)
  plain := hplain
  known := fun k hk => absurd hk (by simp [QueryResult.new])

end Server

open Server

variable {w : World Server.State} {H : Holdings} {sql : String} {i : Item}

/-- What is passed is the text itself. -/
theorem passed_eq {text passed : String} (h : passable? text = .ok passed) : passed = text := by
  unfold passable? at h
  split at h
  · exact absurd h (by simp)
  · exact (Except.ok.inj h).symm

/-- A connection whose session is open sends the statement. -/
theorem Connection.execute_eq (c : Connection) (ha : Accounts w H)
    (hopen : (w.line c.session).isSome) (hsql : passable? sql = .ok sql) :
    c.execute library sql w = ((do
      match ← call (receive sql) with
      | .error code => return .error (.client code (← call (library.client.explain code)))
      | .ok handle =>
        Session.join c.session
        return .ok (.new handle (some c.session))) : Action State _) w := by
  obtain ⟨con, hcon⟩ := Option.isSome_iff_exists.mp hopen
  have connected : w.lib.connected con = true := (ha.lines con).mpr ⟨c.session, hcon⟩
  have sent : call (library.client.execute con sql) w = call (receive sql) w := by
    rw [call_apply, call_apply, ← execute_of_connected connected]
    rfl
  unfold Connection.execute
  rw [hsql]
  dsimp only
  rw [bind_apply, handle?_eq, hcon]
  dsimp only
  rw [bind_apply, sent]
  rfl

theorem Procedure.execute_eq (p : Procedure) (hsql : passable? sql = .ok sql) :
    p.execute library sql w = ((do
      match ← call (receive sql) with
      | .ok handle => return .ok (.new handle none)
      | .error code => return .error (.server code code.name)) : Action State _) w := by
  unfold Procedure.execute
  rw [hsql]
  rfl

namespace Server

/-- What a program can have a statement executed by. -/
inductive Executor where
  | connection (c : Connection)
  | procedure (p : Procedure)

namespace Executor

def execute (sql : String) : Executor → Action State (Except Error QueryResult)
  | connection c => c.execute library sql
  | procedure p => p.execute library sql

/-- The session of a connection is open. -/
def Ready (w : World State) : Executor → Prop
  | connection c => (w.line c.session).isSome
  | procedure _ => True

/-- **A statement obtains its reply**, if the text can be passed and the reply can be
sent. -/
theorem obtains (x : Executor) (ha : Accounts w H) (hx : x.Ready w)
    (hsql : passable? sql = .ok sql) (hitem : (w.lib.replyTo sql).item = .ok i) :
    ∃ r w', x.execute sql w = (.ok r, w') ∧ Obtained w w' r i := by
  have plain := Reply.item_plain hitem
  cases x with
  | connection c =>
    let r : QueryResult := .new ⟨w.lib.last + 1⟩ (some c.session)
    let w' := (Session.join c.session (answered w sql i)).2
    have run : c.execute library sql w = (.ok r, w') := by
      rw [c.execute_eq ha hx hsql, bind_apply, receive_eq hitem]
      rfl
    have stands : Stands (answered w sql i) r i := Stands.answered ha plain
    refine ⟨r, w', run, ⟨stands.bounded, stands.there, plain, stands.known⟩, ?_,
      Nat.lt_succ_self _, rfl, rfl⟩
    intro id hid
    obtain rfl : c.session = id := Option.some.inj hid
    have same : w'.line c.session = w.line c.session := line_join c.session
    rw [same]
    exact hx
  | procedure p =>
    have run : p.execute library sql w =
        (.ok (.new ⟨w.lib.last + 1⟩ none), answered w sql i) := by
      rw [p.execute_eq hsql, bind_apply, receive_eq hitem]
      rfl
    refine ⟨_, _, run, Stands.answered ha plain, ?_, Nat.lt_succ_self _, rfl, rfl⟩
    exact fun id hid => absurd hid (by simp [QueryResult.new])

/-- A result that an execution obtained is that of a reply. -/
theorem obtained {r : QueryResult} {w' : World State} (x : Executor) (ha : Accounts w H)
    (run : x.execute sql w = (.ok r, w')) :
    ∃ i, (w.lib.replyTo sql).item = .ok i ∧ Obtained w w' r i := by
  have hok : (x.execute sql w).1 = .ok r := congrArg Prod.fst run
  have hsql : passable? sql = .ok sql := by
    cases hp : passable? sql with
    | ok passed => rw [passed_eq hp]
    | error e =>
      have failed : (x.execute sql w).1 = .error e := by
        cases x <;> simp only [execute, Connection.execute, Procedure.execute, hp] <;> rfl
      rw [failed] at hok
      exact absurd hok (by simp)
  have hx : x.Ready w := by
    cases x with
    | procedure p => trivial
    | connection c =>
      cases hline : w.line c.session with
      | some con => simp [Ready, hline]
      | none =>
        have failed : c.execute library sql w = (.error .connectionClosed, w) := by
          unfold Connection.execute
          rw [hsql]
          dsimp only
          rw [bind_apply, handle?_eq, hline]
          rfl
        rw [show (connection c).execute sql w = _ from failed] at hok
        exact absurd hok (by simp)
  cases hitem : (w.lib.replyTo sql).item with
  | ok i =>
    obtain ⟨r', w'', run', obtained⟩ := x.obtains ha hx hsql hitem
    rw [run] at run'
    cases run'
    exact ⟨i, rfl, obtained⟩
  | error code =>
    have failed : ∃ e, (x.execute sql w).1 = .error e := by
      cases x with
      | connection c =>
        refine ⟨.client code (explain code), ?_⟩
        rw [show (connection c).execute sql w = _ from c.execute_eq ha hx hsql,
          bind_apply, receive_failed hitem]
        rfl
      | procedure p =>
        refine ⟨.server code code.name, ?_⟩
        rw [show (procedure p).execute sql w = _ from p.execute_eq hsql, bind_apply,
          receive_failed hitem]
        rfl
    obtain ⟨e, failed⟩ := failed
    rw [failed] at hok
    exact absurd hok (by simp)

end Executor

end Server

end Querent
