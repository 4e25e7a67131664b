import Querent.DbApi.Connection
import Querent.Procedure.RowBuilder
import Querent.Proofs.Ownership.Results

/-!
# What connections and procedures hold

A connection holds a share of its session, and so does a cursor of the DB-API,
besides the rows it has at hand. A procedure holds nothing. What they make and do
not hand out they drop, on every path.
-/

namespace Querent

open Server (Keeps KeepsAt Holdings owns share ifMade ifGiven library)

/-! ## Connections -/

namespace Connection

variable (c : Connection)

def holdings : Holdings := share c.session

theorem keeps_handle? {H : Holdings} {id : SessionId} :
    Keeps (Session.handle? id) H fun _ => H :=
  (Keeps.quiet fun _ => ⟨rfl, rfl, rfl, rfl, rfl⟩ :
    Keeps (Session.get id) H fun _ => H).bind fun _ => Keeps.pure rfl

theorem keeps_explain {H : Holdings} (code : Code) :
    Keeps (call (library.client.explain code)) H fun _ => H :=
  Keeps.quiet fun _ => ⟨rfl, rfl, rfl, rfl, rfl⟩

theorem keeps_execute (statement : String) : Keeps (c.execute library statement) c.holdings
    fun made => ifMade QueryResult.holdings made + c.holdings := by
  unfold execute
  split
  · exact Keeps.pure (zero_add _)
  · next statement _ =>
    refine keeps_handle?.bind_at (φ := fun con w => ∀ h, con = some h → w.lib.connected h)
      (fun w F ha h hcon => ha.line_connected hcon) fun con w F hcon => ?_
    cases con with
    | none => exact Keeps.pure (zero_add _) w F
    | some con =>
      -- over a connection that is open the server receives the statement
      have received : Keeps (call (Server.receive statement)) c.holdings
          fun made => ifMade owns made + c.holdings :=
        (Keeps.receive statement).making c.holdings
      have sent : call (library.client.execute con statement) w =
          call (Server.receive statement) w := by
        rw [call_apply, call_apply, ← Server.execute_of_connected (hcon con rfl)]
        rfl
      refine received.bind_at_eq sent fun made => ?_
      cases made with
      | error code => exact (keeps_explain code).bind fun _ => Keeps.pure rfl
      | ok handle =>
        have joined : Keeps (Session.join c.session) (owns handle + c.holdings)
            fun _ => owns handle + (share c.session + share c.session) :=
          (Keeps.join.frame (owns handle)).conv (add_comm _ _) fun _ => add_comm _ _
        exact joined.bind fun _ => Keeps.pure (add_assoc _ _ _)

/-- A result of a connection belongs to its session. -/
theorem execute_session {σ : Type} (L : Library σ) (statement : String) :
    Gives (c.execute L statement) fun made => ∀ r, made = .ok r → r.session = some c.session := by
  unfold execute
  split
  · exact Gives.pure (by simp)
  · refine Gives.bind_any fun con => ?_
    cases con with
    | none => exact Gives.pure (by simp)
    | some con =>
      refine Gives.bind_any fun sent => ?_
      cases sent with
      | error code => exact Gives.bind_any fun _ => Gives.pure (by simp)
      | ok handle =>
        refine Gives.bind_any fun _ => Gives.pure ?_
        rintro r ⟨⟩
        rfl

theorem keeps_useDatabase (name : String) :
    Keeps (c.useDatabase library name) c.holdings fun _ => c.holdings := by
  refine (c.keeps_execute _).bind fun made => ?_
  cases made with
  | error e => exact Keeps.pure (zero_add _).symm
  | ok res =>
    have ending (outcome : Except Error Unit) :
        Keeps (res.drop library >>= fun _ => pure outcome) (res.holdings + c.holdings)
          fun _ => c.holdings :=
      (res.keeps_drop.ending c.holdings).bind fun _ => Keeps.pure rfl
    refine (res.keeps_isOk.frame c.holdings).bind fun ok => ?_
    split
    · exact ending (.ok ())
    · have failed : Keeps (Except.error <$> res.error library) (res.holdings + c.holdings)
          fun _ : Except Error Unit => res.holdings + c.holdings :=
        Keeps.map (res.keeps_error.frame c.holdings)
      exact failed.bind ending

theorem keeps_close : Keeps (c.close library) c.holdings fun _ => c.holdings :=
  (Keeps.close.frame c.holdings).conv (zero_add _).symm fun _ => (zero_add _).symm

theorem keeps_isClosed {H : Holdings} :
    Keeps (c.isClosed : Action Server.State Bool) H fun _ => H :=
  keeps_handle?.bind fun _ => Keeps.pure rfl

theorem keeps_peer {H : Holdings} :
    Keeps (c.peer : Action Server.State String) H fun _ => H :=
  (Keeps.quiet fun _ => ⟨rfl, rfl, rfl, rfl, rfl⟩ :
    Keeps (Session.get c.session) H fun _ => H).bind fun _ => Keeps.pure rfl

theorem keeps_describe {H : Holdings} :
    Keeps (c.describe : Action Server.State String) H fun _ => H :=
  c.keeps_peer.bind fun _ => c.keeps_isClosed.bind fun _ => Keeps.pure rfl

theorem keeps_clone : Keeps (c.clone : Action Server.State Connection) c.holdings
    fun c' => c'.holdings + c.holdings :=
  Keeps.join.bind fun _ => Keeps.pure rfl

theorem keeps_drop : Keeps (c.drop library) c.holdings fun _ => 0 := Keeps.leave

theorem keeps_dial (config : Config) : Keeps (dial library config) 0 (ifMade holdings) := by
  unfold dial
  split
  · exact Keeps.pure rfl
  · next req _ =>
    intro w F
    have refused (code : Code) : Keeps (call (library.client.explain code) >>= fun text =>
        pure (.error (Error.client code text))) 0 (ifMade holdings) :=
      (keeps_explain code).bind fun _ => Keeps.pure rfl
    have started : Keeps (call (Server.alloc .connection) >>= fun con =>
        Session.start con config.peer >>= fun id => pure (.ok ⟨id⟩)) 0
        (ifMade (ε := Error) holdings) :=
      (Keeps.start config.peer).bind fun _ => Keeps.pure rfl
    have reply := Server.connect_eq req w.lib
    show KeepsAt w F (call (Server.connect req) >>= _) 0 _
    cases hf : w.lib.connectFailure with
    | some code =>
      rw [hf] at reply
      rw [KeepsAt, bind_apply, call_apply, reply]
      exact refused code w F
    | none =>
      rw [hf] at reply
      rw [KeepsAt, bind_apply, call_apply, reply]
      exact started w F

theorem keeps_connect (config : Config) :
    Keeps (connect library config) 0 (ifMade holdings) := by
  refine (keeps_dial config).bind fun made => ?_
  cases made with
  | error e => exact Keeps.pure rfl
  | ok c =>
    dsimp only
    split
    · exact Keeps.pure rfl
    · refine (c.keeps_useDatabase _).bind fun used => ?_
      cases used with
      | ok => exact Keeps.pure rfl
      | error e => exact c.keeps_drop.bind fun _ => Keeps.pure rfl

theorem keeps_rows (fuel : Nat) (statement : String) :
    Keeps (c.rows library fuel statement) c.holdings fun _ => c.holdings := by
  refine (c.keeps_execute _).bind fun made => ?_
  cases made with
  | error e => exact Keeps.pure (zero_add _).symm
  | ok res =>
    have collected := Cursor.keeps_collect fuel (Cursor.ofResult_settled res)
    refine (collected.frame c.holdings).conv (by rw [Cursor.holdings_of_none rfl]; rfl)
      (fun _ => rfl) |>.bind fun (rows, cursor) => ?_
    exact (cursor.keeps_drop.ending c.holdings).bind fun _ => Keeps.pure rfl

end Connection

/-! ## Procedures -/

namespace Procedure

theorem keeps_made {m : Making} (handle : Option Handle) :
    ifMade QueryResult.holdings (made m handle) = ifGiven owns handle := by
  cases handle with
  | none => rfl
  | some h => exact add_zero _

/-- What a procedure makes of a handle holds it. -/
theorem keeps_making {act : Action Server.State (Option Handle)} {H : Holdings} (m : Making)
    (h : Keeps act H (ifGiven owns)) :
    Keeps (act >>= fun handle => pure (made m handle)) H (ifMade QueryResult.holdings) :=
  h.bind fun handle => Keeps.pure (keeps_made handle)

theorem keeps_execute (p : Procedure) (statement : String) :
    Keeps (p.execute library statement) 0 (ifMade QueryResult.holdings) := by
  unfold execute
  split
  · exact Keeps.pure rfl
  · refine (Keeps.receive _).bind fun made => ?_
    cases made with
    | ok handle => exact Keeps.pure (add_zero _)
    | error code => exact Keeps.pure rfl

theorem keeps_wrap (raw : Handle) :
    Keeps (wrap library raw) (owns raw) (ifMade QueryResult.holdings) :=
  keeps_making .wrap Keeps.wrap

theorem keeps_success : Keeps (success library) 0 (ifMade QueryResult.holdings) :=
  keeps_making .success (Keeps.make rfl)

theorem keeps_error (code : Code) (text : String) :
    Keeps (error library code text) 0 (ifMade QueryResult.holdings) := by
  unfold error
  split
  · exact Keeps.pure rfl
  · exact keeps_making .error (Keeps.make rfl)

theorem keeps_report (r : Report) :
    Keeps (report library r) 0 (ifMade QueryResult.holdings) :=
  keeps_making .report (Keeps.make rfl)

end Procedure

namespace RowBuilder

variable (b : RowBuilder)

def holdings : Holdings := b.result.holdings

theorem keeps_start : Keeps (start library) 0 (ifMade holdings) := by
  refine Keeps.makeRow.bind fun handle => ?_
  cases handle with
  | none => exact Keeps.pure rfl
  | some h => exact Keeps.pure (add_zero _)

theorem keeps_capacity : Keeps (b.capacity library) b.holdings fun _ => b.holdings :=
  b.result.keeps_call Keeps.capacity

theorem keeps_fits (v : Value) : Keeps (b.fits library v) b.holdings fun _ => b.holdings :=
  b.keeps_capacity.bind fun _ => Keeps.pure rfl

theorem keeps_push (v : Value) : Keeps (b.push library v) b.holdings fun _ => b.holdings := by
  refine (b.keeps_fits v).bind fun fits => ?_
  split
  · refine (b.result.keeps_call (Keeps.add v)).bind fun code => ?_
    split <;> exact Keeps.pure rfl
  · exact b.keeps_capacity.bind fun _ => Keeps.pure rfl

theorem keeps_closeRow : Keeps (b.closeRow library) b.holdings fun _ => b.holdings := by
  refine (b.result.keeps_call Keeps.closeRow).bind fun code => ?_
  split <;> exact Keeps.pure rfl

theorem keeps_drop : Keeps (b.drop library) b.holdings fun _ => 0 := b.result.keeps_drop

end RowBuilder

end Querent
