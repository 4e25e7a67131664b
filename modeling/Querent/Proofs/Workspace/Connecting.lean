import Querent.Proofs.Server.Execution
import Querent.Proofs.Workspace.Ownership

/-!
# Connecting is all or nothing

A configuration may be refused before a call is made, by the connect call, or by
the statement that chooses its database. The statement leaves no result behind,
whatever comes of it, and the connection that it was sent over is freed if it
failed: by the last holder that leaves, or by a close before that.
-/

namespace Querent

/-- The statement that chooses the database of a configuration. -/
def Connection.uses (config : Config) : List String :=
  (config.database.map ("use " ++ ·)).toList

open Connection (uses)

namespace Server

theorem Table.erase_snoc {t : Table} {k : Nat} (item : Item) (fresh : get? t k = none) :
    erase (t ++ [(k, item)]) k = t := by
  have herase : erase t k = t := erase_of_get?_none t k fresh
  rw [erase] at herase ⊢
  rw [List.filter_append, herase]
  simp

variable {w w' : World State} {H : Holdings} {sql : String} {sent : List String}
  {r : QueryResult} {i : Item} {id : SessionId} {con : Handle}

/-! ## A statement and its result -/

/-- Statements have been sent, and nothing else is left of what was done. -/
structure Consulted (w w' : World State) (sent : List String) : Prop where
  sessions : w'.sessions = w.sessions
  objects : w'.lib.objects = w.lib.objects
  misuse : w'.lib.misuse = w.lib.misuse
  executed : w'.lib.executed = w.lib.executed ++ sent

theorem Consulted.refl (w : World State) : Consulted w w [] :=
  ⟨rfl, rfl, rfl, (List.append_nil _).symm⟩

/-- Ending a result while its session is closed or has another holder. -/
theorem Stands.drop_eq (hs : Stands w r i) (hsession : r.session = some id)
    (hheld : (w.line id).isSome → 0 < (departed id w).holders id) :
    r.drop library w = ((), departed id (Server.freed w r.handle)) := by
  have released : call (library.results.release r.handle i.sort) w =
      ((), Server.freed w r.handle) := by
    show ((release r.handle i.sort w.lib).1,
      (⟨(release r.handle i.sort w.lib).2, w.sessions⟩ : World State)) = _
    rw [release_of_live hs.there]
    rfl
  rw [QueryResult.drop, bind_apply, hs.kind_eq]
  show (call (library.results.release r.handle i.sort) >>= fun _ =>
    Session.leave? library r.session) w = _
  rw [bind_apply, released, hsession]
  exact leave_of_held library hheld

theorem receive_refused {code : Code} (hitem : (w.lib.replyTo sql).item = .error code) :
    call (receive sql) w = (.error code,
      { w with lib := { w.lib with executed := w.lib.executed ++ [sql] } }) := by
  have run : receive sql w.lib =
      (.error code, { w.lib with executed := w.lib.executed ++ [sql] }) := by
    rw [receive_reply, hitem]
    rfl
  rw [call_apply, run]

/-- Over an open connection a statement fails, or gives a result of which nothing is
left when it has ended. -/
theorem execute_consults (c : Connection) (ha : Accounts w H) (hopen : w.line c.session = some con)
    (sql : String) :
    (∃ e w' sent, c.execute library sql w = (.error e, w') ∧ sent <+: [sql] ∧
      Consulted w w' sent) ∨
    ∃ r i w', c.execute library sql w = (.ok r, w') ∧ Stands w' r i ∧
      Consulted w (r.drop library w').2 [sql] := by
  cases hsql : passable? sql with
  | error e =>
    refine .inl ⟨e, w, [], ?_, List.nil_prefix, Consulted.refl w⟩
    rw [Connection.execute, hsql]
    rfl
  | ok passed =>
    obtain rfl := passed_eq hsql
    have run := c.execute_eq ha (by rw [hopen]; rfl) hsql
    cases hitem : (w.lib.replyTo passed).item with
    | error code =>
      refine .inl ⟨.client code (explain code),
        { w with lib := { w.lib with executed := w.lib.executed ++ [passed] } }, [passed], ?_,
        List.prefix_refl _, rfl, rfl, rfl, rfl⟩
      rw [run, bind_apply, receive_refused hitem]
      rfl
    | ok i =>
      let r : QueryResult := .new ⟨w.lib.last + 1⟩ (some c.session)
      let w' := (Session.join c.session (answered w passed i)).2
      have hheld : 0 < (answered w passed i).holders c.session :=
        ha.held c.session (by rw [hopen]; rfl)
      have stands : Stands (answered w passed i) r i :=
        Stands.answered ha (Reply.item_plain hitem)
      have stands : Stands w' r i := ⟨stands.bounded, stands.there, stands.plain, stands.known⟩
      have left : 0 < (departed c.session w').holders c.session := by
        rw [holders_departed_self, holders_join hheld, if_pos rfl]
        exact hheld
      refine .inr ⟨r, i, w', ?_, stands, ?_⟩
      · rw [run, bind_apply, receive_eq hitem]
        rfl
      · rw [stands.drop_eq rfl fun _ => left]
        exact ⟨departed_join (w := answered w passed i), Table.erase_snoc i ha.fresh, rfl, rfl⟩

theorem useDatabase_consults (c : Connection) (ha : Accounts w H)
    (hopen : w.line c.session = some con) (name : String) :
    ∃ sent, sent <+: ["use " ++ name] ∧
      Consulted w (c.useDatabase library name w).2 sent ∧
      ((c.useDatabase library name w).1 = .ok () → sent = ["use " ++ name]) := by
  rw [Connection.useDatabase, bind_apply]
  obtain ⟨e, w', sent, run, hsent, consulted⟩ | ⟨r, i, w', run, stands, consulted⟩ :=
    execute_consults c ha hopen ("use " ++ name)
  · rw [run]
    exact ⟨sent, hsent, consulted, fun h => by cases h⟩
  · rw [run]
    dsimp only
    rw [bind_apply, stands.isOk_eq]
    cases i.isOk with
    | true => exact ⟨_, List.prefix_refl _, consulted, fun _ => rfl⟩
    | false =>
      have failed : (Except.error <$> r.error library : Action State (Except Error Unit)) w' =
          (.error i.error, w') := by
        show (Except.error (r.error library w').1, (r.error library w').2) = _
        rw [stands.error_eq]
      rw [if_neg (by simp), bind_apply, failed]
      exact ⟨_, List.prefix_refl _, consulted, fun h => by cases h⟩

/-! ## A new connection -/

/-- The world after a connection was made. -/
def linked (config : Config) (w : World State) : World State :=
  ⟨(alloc .connection w.lib).2, w.sessions ++ [⟨some ⟨w.lib.last + 1⟩, config.peer, 1⟩]⟩

theorem dial_eq (config : Config) (w : World State) :
    (∃ e, Connection.dial library config w = (.error e, w)) ∨
      Connection.dial library config w = (.ok ⟨w.sessions.length⟩, linked config w) := by
  unfold Connection.dial
  cases Connection.request config with
  | error e => exact .inl ⟨e, rfl⟩
  | ok req =>
    have called : call (library.client.connect req) w =
        ((connect req w.lib).1, { w with lib := (connect req w.lib).2 }) := rfl
    rw [connect_eq] at called
    dsimp only
    cases hf : w.lib.connectFailure with
    | some code =>
      rw [hf] at called
      refine .inl ⟨.client code (explain code), ?_⟩
      rw [bind_apply, called]
      rfl
    | none =>
      rw [hf] at called
      refine .inr ?_
      rw [bind_apply, called]
      rfl

variable {config : Config}

theorem linked_line : (linked config w).line w.sessions.length = some ⟨w.lib.last + 1⟩ :=
  (line_started _ _ _).trans (if_pos rfl)

theorem linked_holders : (linked config w).holders w.sessions.length = 1 :=
  (holders_started _ _ _).trans (if_pos rfl)

namespace Consulted

variable (hc : Consulted (linked config w) w' sent)

include hc

theorem line : w'.line w.sessions.length = some ⟨w.lib.last + 1⟩ := by
  rw [World.line, hc.sessions]
  exact linked_line

theorem holders : w'.holders w.sessions.length = 1 := by
  rw [World.holders, hc.sessions]
  exact linked_holders

theorem connected (ha : Accounts w H) : w'.lib.connected ⟨w.lib.last + 1⟩ := by
  rw [State.connected_iff, hc.objects]
  exact (ha.alloc_get? .connection _).trans (if_pos rfl)

/-- The only holder of the connection leaves. -/
theorem drop_lib (ha : Accounts w H) :
    (Connection.drop library ⟨w.sessions.length⟩ w').2.lib =
      Server.cut ⟨w.lib.last + 1⟩ w'.lib := by
  have hlast : (departed w.sessions.length w').holders w.sessions.length = 0 := by
    rw [holders_departed_self, hc.holders]
  rw [Connection.drop, leave_of_last library hc.line hlast, hangUp_of_connected]
  · rfl
  · exact hc.connected ha

/-- The connection is closed, and its only holder leaves then. -/
theorem close_drop_lib (ha : Accounts w H) :
    (Connection.drop library ⟨w.sessions.length⟩
      (Connection.close library ⟨w.sessions.length⟩ w').2).2.lib =
        Server.cut ⟨w.lib.last + 1⟩ w'.lib := by
  have closed : Connection.close library ⟨w.sessions.length⟩ w' = (.ok (),
      ⟨Server.cut ⟨w.lib.last + 1⟩ w'.lib, (Session.clear w.sessions.length w').2.sessions⟩) := by
    rw [Connection.close, close_of_some library hc.line, hangUp_of_connected]
    · rfl
    · exact hc.connected ha
  rw [closed, Connection.drop, leave_of_held]
  · rfl
  · -- the session is closed, so nothing is left to do for the holder
    intro hopen
    have hclear : (Session.clear w.sessions.length w').2.line w.sessions.length = none :=
      (line_clear _).trans (if_pos rfl)
    exact absurd (hclear ▸ hopen) (by simp)

end Consulted

/-! ## What the server sees of connecting -/

/-- There is one more open connection, and the database was chosen. -/
structure Gained (config : Config) (s s' : State) : Prop where
  connections : s'.openConnections = s.openConnections + 1
  live : s'.live = s.live
  handles : s'.handles = s.handles
  misuse : s'.misuse = s.misuse
  executed : s'.executed = s.executed ++ uses config

/-- All is as before, but for a statement that was sent. -/
structure Restored (config : Config) (s s' : State) : Prop where
  connections : s'.openConnections = s.openConnections
  live : s'.live = s.live
  handles : s'.handles = s.handles
  misuse : s'.misuse = s.misuse
  executed : ∃ sent, sent <+: uses config ∧ s'.executed = s.executed ++ sent

/-- A connection that was made is there, and one that was not has left nothing. -/
def AllOrNothing {ε α : Type} (config : Config) (s : State) : Except ε α × World State → Prop
  | (.ok _, w) => Gained config s w.lib
  | (.error _, w) => Restored config s w.lib

theorem Restored.refl (config : Config) (s : State) : Restored config s s :=
  ⟨rfl, rfl, rfl, rfl, [], List.nil_prefix, (List.append_nil _).symm⟩

namespace Consulted

variable (hc : Consulted (linked config w) w' sent)

include hc

/-- The connection stays. -/
theorem gained (hsent : sent = uses config) : Gained config w.lib w'.lib := by
  have hobj : w'.lib.objects = w.lib.objects ++ [(w.lib.last + 1, .connection)] := hc.objects
  refine ⟨?_, ?_, ?_, hc.misuse, hsent ▸ hc.executed⟩
  · rw [State.openConnections, hobj, List.countP_append]
    rfl
  · rw [State.live, hobj, List.countP_append]
    rfl
  · rw [State.handles, hobj, List.filter_append, List.map_append]
    exact List.append_nil _

/-- The connection is hung up. -/
theorem restored (ha : Accounts w H) (hsent : sent <+: uses config) :
    Restored config w.lib (cut ⟨w.lib.last + 1⟩ w'.lib) := by
  have hobj : (cut ⟨w.lib.last + 1⟩ w'.lib).objects = w.lib.objects := by
    show w'.lib.objects.erase (w.lib.last + 1) = _
    rw [hc.objects]
    exact Table.erase_snoc .connection ha.fresh
  refine ⟨?_, ?_, ?_, hc.misuse, sent, hsent, hc.executed⟩
  · rw [State.openConnections, hobj]
    rfl
  · rw [State.live, hobj]
    rfl
  · rw [State.handles, hobj]
    rfl

end Consulted

/-- A new connection keeps the accounts. -/
theorem Accounts.linked (ha : Accounts w H) (config : Config) :
    Accounts (linked config w) (share w.sessions.length + H) :=
  (Keeps.start config.peer w H ((zero_add H).symm ▸ ha)).1

end Server

open Server

/-! ## The two ways to connect -/

/-- Connecting without a database is dialling. -/
theorem Connection.connect_without {σ : Type} (L : Library σ) (config : Config) :
    connect L { config with database := none } = dial L config := by
  funext w
  rw [connect, bind_apply]
  show _ = dial L { config with database := none } w
  obtain ⟨made | c, w'⟩ := dial L { config with database := none } w <;> rfl

variable {w : World Server.State} {H : Holdings}

theorem Connection.connect_all_or_nothing (ha : Accounts w H) (config : Config) :
    AllOrNothing config w.lib (connect library config w) := by
  rw [connect, bind_apply]
  obtain ⟨e, run⟩ | run := dial_eq config w
  · rw [run]
    exact Restored.refl config w.lib
  rw [run]
  dsimp only
  cases hdb : config.database with
  | none => exact (Consulted.refl (linked config w)).gained (by simp [uses, hdb])
  | some name =>
    obtain ⟨sent, hsent, consulted, hok⟩ :=
      useDatabase_consults ⟨w.sessions.length⟩ (ha.linked config) linked_line name
    have huses : ["use " ++ name] = uses config := by simp [uses, hdb]
    dsimp only
    rw [bind_apply]
    cases hused : (useDatabase library ⟨w.sessions.length⟩ name (linked config w)).1 with
    | ok => exact consulted.gained ((hok hused).trans huses)
    | error e =>
      have dropped := consulted.restored ha (huses ▸ hsent)
      rw [← consulted.drop_lib ha] at dropped
      exact dropped

theorem DbApi.Connection.connect_all_or_nothing (ha : Accounts w H) (config : Config) :
    AllOrNothing config w.lib (connect library config w) := by
  rw [connect, bind_apply, Querent.Connection.connect_without]
  obtain ⟨e, run⟩ | run := dial_eq config w
  · rw [run]
    exact Restored.refl config w.lib
  rw [run]
  dsimp only
  cases hdb : config.database with
  | none => exact (Consulted.refl (linked config w)).gained (by simp [uses, hdb])
  | some name =>
    have huses : ["use " ++ name] = uses config := by simp [uses, hdb]
    dsimp only
    rw [bind_apply]
    obtain ⟨e, w', sent, sending, hsent, consulted⟩ | ⟨r, i, w', sending, stands, consulted⟩ :=
      execute_consults ⟨w.sessions.length⟩ (ha.linked config) linked_line ("use " ++ name)
    · rw [sending]
      have dropped := consulted.restored ha (huses ▸ hsent)
      rw [← consulted.drop_lib ha] at dropped
      exact dropped
    · rw [sending]
      dsimp only
      rw [bind_apply, stands.isOk_eq]
      cases i.isOk with
      | true => exact consulted.gained huses
      | false =>
        have dropped := consulted.restored ha (huses ▸ List.prefix_refl _)
        rw [← consulted.close_drop_lib ha] at dropped
        exact dropped

/-- **The two functions succeed on the same inputs**, over any library. -/
theorem connect_isOk {σ : Type} (L : Library σ) (config : Config) (w : World σ) :
    (DbApi.Connection.connect L config w).1.isOk = (Connection.connect L config w).1.isOk := by
  rw [Connection.connect, DbApi.Connection.connect, bind_apply, bind_apply,
    Connection.connect_without]
  obtain ⟨e | c, w⟩ := Connection.dial L config w
  · rfl
  dsimp only
  cases config.database with
  | none => rfl
  | some name =>
    dsimp only
    rw [bind_apply, bind_apply, Connection.useDatabase, bind_apply]
    obtain ⟨e | r, w⟩ := c.execute L ("use " ++ name) w
    · rfl
    · dsimp only
      rw [bind_apply, bind_apply]
      obtain ⟨ok, w⟩ := r.isOk L w
      cases ok <;> rfl

namespace Workspace

/-- The server is told how to answer from now on, and whether to take connections. -/
def instructed (script : List (String × Server.Reply)) (connectFailure : Option Code)
    (w : World Server.State) : World Server.State :=
  { w with lib := { w.lib with script, connectFailure } }

/-- **Connecting is all or nothing.** After any steps on a server, whatever it is told
to answer then: if connecting fails, the server has the same connections and handles as
before, and nothing was misused; if it succeeds, there is one more connection, and the
only statement sent is the one that chooses the database, if there is one to choose. The
two functions that connect succeed on the same configurations. -/
theorem connecting_all_or_nothing (replies script : List (String × Server.Reply))
    (failure failure' : Option Code) (rowCapacity : Int32) (fuel : Nat) (steps : List Step)
    (config : Config) :
    let ws := play installation fuel steps (start (.scripted replies failure rowCapacity))
    let w := instructed script failure' ws.world
    AllOrNothing config w.lib (Connection.connect library config w) ∧
      AllOrNothing config w.lib (DbApi.Connection.connect library config w) ∧
      (DbApi.Connection.connect library config w).1.isOk =
        (Connection.connect library config w).1.isOk := by
  intro ws w
  obtain ⟨hobj, -⟩ := Server.State.scripted_fresh replies failure rowCapacity
  have hk := (kept_start hobj).after_play fuel steps
  have ha : Accounts w _ := hk.accounts.of_eq rfl rfl rfl
  exact ⟨Connection.connect_all_or_nothing ha config,
    DbApi.Connection.connect_all_or_nothing ha config, connect_isOk library config w⟩

end Workspace

end Querent
