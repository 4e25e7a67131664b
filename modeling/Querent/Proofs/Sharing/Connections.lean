import Querent.Procedure.RowBuilder
import Querent.Proofs.Sharing.Register

/-!
# What results and connections enter into the register

A connection has a stake in its session, and so have a result of it and a cursor over
the result. Whatever is asked of them, their stakes stay as they are; a clone and a new
result come with a stake of their own; and the stake of an object is gone when it is
dropped, for a result after its handle was released. A procedure has no stake, nor have
the results that it makes.
-/

namespace Querent

variable {σ α β : Type} {p : Past} {pre F : Stakes}

/-! ## Actions that keep the register -/

/-- The action keeps the register in order where it turns the stakes `pre` into `post`,
and `F` are the others. -/
def EntersAt (p : Past) (F : Stakes) (act : Action (σ × List Call) α) (pre : Stakes)
    (post : α → Stakes) : Prop :=
  ∀ w, Register w p (pre + F) → Register (act w).2 p (post (act w).1 + F)

/-- Whatever the other stakes are. -/
def Enters (p : Past) (act : Action (σ × List Call) α) (pre : Stakes) (post : α → Stakes) :
    Prop :=
  ∀ F, EntersAt p F act pre post

/-- The stakes of what was made, if it was. -/
def ifOk {ε : Type} (stakes : α → Stakes) : Except ε α → Stakes
  | .ok a => stakes a
  | .error _ => 0

theorem EntersAt.pure {post : α → Stakes} {a : α} (h : post a = pre) :
    EntersAt p F (Pure.pure a : Action (σ × List Call) α) pre post := by
  intro w hr
  rw [pure_apply, h]
  exact hr

/-- What is known of the first answer where the register is in order may be used. -/
theorem EntersAt.bind_known {act : Action (σ × List Call) α} {f : α → Action (σ × List Call) β}
    {post : α → Stakes} {last : β → Stakes} {φ : α → Prop} (ha : EntersAt p F act pre post)
    (hφ : ∀ w, Register w p (pre + F) → φ (act w).1)
    (hf : ∀ a, φ a → EntersAt p F (f a) (post a) last) : EntersAt p F (act >>= f) pre last :=
  fun w hr => hf _ (hφ w hr) _ (ha w hr)

theorem EntersAt.bind {act : Action (σ × List Call) α} {f : α → Action (σ × List Call) β}
    {post : α → Stakes} {last : β → Stakes} (ha : EntersAt p F act pre post)
    (hf : ∀ a, EntersAt p F (f a) (post a) last) : EntersAt p F (act >>= f) pre last :=
  fun w hr => hf _ _ (ha w hr)

namespace Enters

variable {act : Action (σ × List Call) α} {post : α → Stakes}

theorem pure {a : α} (h : post a = pre) :
    Enters p (Pure.pure a : Action (σ × List Call) α) pre post :=
  fun _ => EntersAt.pure h

theorem bind_gives {f : α → Action (σ × List Call) β} {φ : α → Prop} {last : β → Stakes}
    (ha : Enters p act pre post) (hφ : Gives act φ)
    (hf : ∀ a, φ a → Enters p (f a) (post a) last) : Enters p (act >>= f) pre last :=
  fun F => (ha F).bind_known (fun w _ => hφ w) fun a h => hf a h F

theorem bind {f : α → Action (σ × List Call) β} {last : β → Stakes}
    (ha : Enters p act pre post) (hf : ∀ a, Enters p (f a) (post a) last) :
    Enters p (act >>= f) pre last :=
  fun F => (ha F).bind fun a => hf a F

/-- Stakes that are not concerned may be added. -/
theorem frame (R : Stakes) (ha : Enters p act pre post) :
    Enters p act (pre + R) fun a => post a + R := by
  intro F w hr
  rw [add_assoc] at hr ⊢
  exact ha (R + F) w hr

theorem conv {pre' : Stakes} {post' : α → Stakes} (ha : Enters p act pre post)
    (hpre : pre' = pre) (hpost : ∀ a, post' a = post a) : Enters p act pre' post' := by
  rw [hpre, funext hpost]
  exact ha

/-- The stakes of what an action ends are gone. -/
theorem ending (R : Stakes) (ha : Enters p act pre fun _ => 0) :
    Enters p act (pre + R) fun _ => R :=
  (ha.frame R).conv rfl fun _ => (zero_add R).symm

/-- An action that concerns no connection. -/
theorem quiet (ha : Along Quiet act) : Enters p act pre fun _ => pre :=
  fun _ w hr => hr.quiet (ha w)

/-- An action that concerns no connection, and gives what has the same stakes. -/
theorem quietly (ha : Along Quiet act) (hs : Gives act fun a => post a = pre) :
    Enters p act pre post := by
  intro F w hr
  rw [hs w]
  exact hr.quiet (ha w)

end Enters

variable {L : Library σ}

/-! ## Sessions -/

/-- The stake of an object that may hold a session, and owes no handle. -/
def holding (id : Option SessionId) : Stakes := id.elim 0 fun id => {(id, none)}

theorem Enters.leave (id : SessionId) :
    Enters p (Session.leave L.recorded id) {(id, none)} fun _ => 0 := by
  intro F w hr
  rw [zero_add]
  exact hr.leave

theorem Enters.leave? (id : Option SessionId) :
    Enters p (Session.leave? L.recorded id) (holding id) fun _ => 0 := by
  cases id with
  | none => exact Enters.pure rfl
  | some id => exact Enters.leave id

/-! ## Results -/

namespace QueryResult

variable (r : QueryResult)

def stakes : Stakes := r.session.elim 0 fun id => {(id, some r.handle)}

theorem stakes_same {r r' : QueryResult} (h : r.Same r') : r'.stakes = r.stakes := by
  rw [stakes, stakes, h.1, h.2]

/-- A result whose handle is released goes on holding its session. -/
theorem enters_release (k : ResultKind) : Enters p (call (L.recorded.results.release r.handle k))
    r.stakes fun _ => holding r.session := by
  unfold stakes
  cases r.session with
  | none => exact Enters.quiet (Quiet.calm.release r.handle k)
  | some id => exact fun F w hr => hr.release k

theorem enters_drop : Enters p (r.drop L.recorded) r.stakes fun _ => 0 := by
  refine (Enters.quiet (r.along_kind Quiet.calm)).bind_gives (r.kind_gives _)
    fun (k, r') same => ?_
  rw [← stakes_same same]
  exact (r'.enters_release k).bind fun _ => Enters.leave? r'.session

/-- The past after the result gave up its handle. -/
def given (p : Past) : Past := r.session.elim p fun id => p.give id r.handle

/-- A result that gives up its handle leaves its session. -/
theorem enter_intoRaw {w : World (σ × List Call)} (hr : Register w p (r.stakes + F)) :
    Register (r.intoRaw L.recorded w).2 (r.given p) F := by
  have holds : Register w (r.given p) (holding r.session + F) := by
    unfold stakes at hr
    unfold given
    cases hs : r.session with
    | none =>
      rw [hs] at hr
      exact hr
    | some id =>
      rw [hs] at hr
      exact hr.give
  exact zero_add F ▸ Enters.leave? r.session F w holds

end QueryResult

/-! ## Cursors -/

namespace Cursor

variable (c : Cursor)

def stakes : Stakes := c.result.stakes

theorem stakes_same {c c' : Cursor} (h : c.result.Same c'.result) : c'.stakes = c.stakes :=
  QueryResult.stakes_same h

theorem quiet_next : Along Quiet (c.next L.recorded) :=
  along_next Quiet.calm (Quiet.requests _)

theorem quiet_collect (fuel : Nat) : Along Quiet (c.collect L.recorded fuel) :=
  along_collect (φ := fun _ => True) (fun c _ => c.quiet_next) (fun _ _ => Gives.any) fuel trivial

theorem enters_drop : Enters p (c.drop L.recorded) c.stakes fun _ => 0 := by
  refine (Enters.quiet (c.along_releaseBatch Quiet.calm)).bind_gives (releaseBatch_gives _ c)
    fun c' hc' => ?_
  subst hc'
  exact c.result.enters_drop

/-- The rows of a result are collected, and the cursor dropped. -/
theorem enters_collect (fuel : Nat) : Enters p (c.collect L.recorded fuel) c.stakes
    fun x => x.2.stakes :=
  Enters.quietly (c.quiet_collect fuel) ((collect_same _ fuel).imp fun _ => stakes_same)

end Cursor

/-! ## Connections -/

namespace Connection

variable (c : Connection)

def stakes : Stakes := {(c.session, none)}

theorem quiet_explain (code : Code) : Along Quiet (call (L.recorded.client.explain code)) :=
  Quiet.called fun _ => ⟨_, rfl, rfl, fun _ => ⟨rfl, rfl⟩⟩

theorem quiet_isClosed : Along Quiet (c.isClosed : Action (σ × List Call) Bool) :=
  (Quiet.handle? _).bind fun _ => .pure _

theorem quiet_peer : Along Quiet (c.peer : Action (σ × List Call) String) :=
  Quiet.of_rfl fun _ => ⟨rfl, rfl⟩

theorem quiet_describe : Along Quiet (c.describe : Action (σ × List Call) String) :=
  c.quiet_peer.bind fun _ => c.quiet_isClosed.bind fun _ => .pure _

/-- The session of a connection has a holder. -/
theorem sharesOf_stakes : 0 < sharesOf c.session (c.stakes + F) :=
  sharesOf_pos.mpr ⟨none, Multiset.mem_add.mpr (Or.inl (Multiset.mem_singleton_self _))⟩

/-- A statement that gives a result makes it a holder of the session. -/
theorem enters_execute (statement : String) : Enters p (c.execute L.recorded statement) c.stakes
    fun made => ifOk QueryResult.stakes made + c.stakes := by
  unfold execute
  split
  · exact Enters.pure (zero_add _)
  · next text _ =>
    intro F w hr
    rw [bind_apply, handle?_eq]
    cases hl : w.line c.session with
    | none => exact (zero_add c.stakes).symm ▸ hr
    | some con =>
      have failed (code : Code) : Enters p (call (L.recorded.client.explain code) >>= fun text =>
          pure (.error (Error.client code text))) c.stakes
            fun made => ifOk QueryResult.stakes made + c.stakes :=
        (Enters.quiet (quiet_explain code)).bind fun _ => Enters.pure (zero_add _)
      obtain ⟨answer, lib, sent⟩ : ∃ answer lib, call (L.recorded.client.execute con text) w =
          (answer, ⟨(lib, w.log ++ [.execute con text answer]), w.sessions⟩) := ⟨_, _, rfl⟩
      dsimp only
      rw [bind_apply, sent]
      cases answer with
      | error code => exact failed code F _ (hr.quiet ⟨rfl, [_], rfl, by simp [Call.plain_failed]⟩)
      | ok h =>
        -- the new holder counts from here, the handle when it is on record
        have joined := hr.join c.sharesOf_stakes
        rw [add_assoc]
        exact joined.obtain ((line_join _).trans hl) rfl rfl

theorem enters_useDatabase (name : String) :
    Enters p (c.useDatabase L.recorded name) c.stakes fun _ => c.stakes := by
  refine (c.enters_execute _).bind fun made => ?_
  cases made with
  | error e => exact Enters.pure (zero_add _).symm
  | ok res =>
    have ending (outcome : Except Error Unit) :
        Enters p (res.drop L.recorded >>= fun _ => pure outcome) (res.stakes + c.stakes)
          fun _ => c.stakes :=
      (res.enters_drop.ending c.stakes).bind fun _ => Enters.pure rfl
    refine (Enters.quiet (Quiet.calm.isOk res.handle)).bind fun ok => ?_
    split
    · exact ending (.ok ())
    · exact (Enters.quiet (res.along_error Quiet.calm).map).bind ending

theorem enters_clone : Enters p (c.clone : Action (σ × List Call) Connection) c.stakes
    fun c' => c'.stakes + c.stakes := by
  intro F w hr
  rw [add_assoc]
  exact hr.join c.sharesOf_stakes

theorem enters_drop : Enters p (c.drop L.recorded) c.stakes fun _ => 0 := Enters.leave c.session

theorem enters_dial (config : Config) :
    Enters p (dial L.recorded config) 0 (ifOk stakes) := by
  unfold dial
  split
  · exact Enters.pure rfl
  · next req _ =>
    have failed (code : Code) : Enters p (call (L.recorded.client.explain code) >>= fun text =>
        pure (.error (Error.client code text))) 0 (ifOk stakes) :=
      (Enters.quiet (quiet_explain code)).bind fun _ => Enters.pure rfl
    intro F w hr
    obtain ⟨answer, lib, dialled⟩ : ∃ answer lib, call (L.recorded.client.connect req) w =
        (answer, ⟨(lib, w.log ++ [.connect req answer]), w.sessions⟩) := ⟨_, _, rfl⟩
    rw [bind_apply, dialled]
    cases answer with
    | error code => exact failed code F _ (hr.quiet ⟨rfl, [_], rfl, by simp [Call.plain_failed]⟩)
    | ok con =>
      rw [zero_add] at hr
      exact hr.start rfl rfl

/-- A new connection has a session of its own. -/
theorem dial_session (L : Library σ) (config : Config) (w : World σ) :
    ∀ c, (dial L config w).1 = .ok c → c.session = w.sessions.length := by
  unfold dial
  cases request config with
  | error e => exact fun c h => by cases h
  | ok req =>
    dsimp only
    rw [bind_apply]
    cases (call (L.client.connect req) w).1 with
    | error code => exact fun c h => by cases h
    | ok con =>
      rintro c ⟨⟩
      rfl

theorem connect_session (L : Library σ) (config : Config) (w : World σ) :
    ∀ c, (connect L config w).1 = .ok c → c.session = w.sessions.length := by
  intro c h
  refine dial_session L config w c ?_
  rw [connect, bind_apply] at h
  cases hd : (dial L config w).1 with
  | error e =>
    rw [hd] at h
    cases h
  | ok con =>
    rw [hd] at h
    dsimp only at h
    cases hdb : config.database with
    | none =>
      rw [hdb] at h
      exact h
    | some name =>
      rw [hdb] at h
      dsimp only at h
      rw [bind_apply] at h
      cases hu : (con.useDatabase L name (dial L config w).2).1 with
      | ok =>
        rw [hu] at h
        exact h
      | error e =>
        rw [hu] at h
        cases h

theorem enters_connect (config : Config) :
    Enters p (connect L.recorded config) 0 (ifOk stakes) := by
  refine (enters_dial config).bind fun made => ?_
  cases made with
  | error e => exact Enters.pure rfl
  | ok c =>
    dsimp only
    split
    · exact Enters.pure rfl
    · refine (c.enters_useDatabase _).bind fun used => ?_
      cases used with
      | ok => exact Enters.pure rfl
      | error e => exact c.enters_drop.bind fun _ => Enters.pure rfl

theorem enters_rows (fuel : Nat) (statement : String) :
    Enters p (c.rows L.recorded fuel statement) c.stakes fun _ => c.stakes := by
  refine (c.enters_execute _).bind fun made => ?_
  cases made with
  | error e => exact Enters.pure (zero_add _).symm
  | ok res =>
    refine ((Cursor.ofResult res).enters_collect fuel).frame c.stakes |>.bind
      fun (rows, cursor) => ?_
    exact (cursor.enters_drop.ending c.stakes).bind fun _ => Enters.pure rfl

end Connection

/-! ## Procedures -/

namespace Procedure

/-- What a procedure makes of a handle is in no session. -/
theorem made_stakes (m : Making) (handle : Option Handle) :
    ifOk QueryResult.stakes (made m handle) = 0 := by
  cases handle <;> rfl

theorem enters_making (act : StateM σ (Option Handle)) (m : Making) :
    Enters p (call (unrecorded act) >>= fun handle => pure (made m handle)) 0
      (ifOk QueryResult.stakes) :=
  (Enters.quiet (Quiet.unrecorded act)).bind fun handle => Enters.pure (made_stakes m handle)

theorem enters_execute (procedure : Procedure) (statement : String) :
    Enters p (procedure.execute L.recorded statement) 0 (ifOk QueryResult.stakes) := by
  unfold execute
  split
  · exact Enters.pure rfl
  · refine (Enters.quiet (Quiet.unrecorded _)).bind fun made => ?_
    cases made <;> exact Enters.pure rfl

theorem enters_wrap (raw : Handle) :
    Enters p (wrap L.recorded raw) 0 (ifOk QueryResult.stakes) := enters_making _ .wrap

theorem enters_success : Enters p (success L.recorded) 0 (ifOk QueryResult.stakes) :=
  enters_making _ .success

theorem enters_error (code : Code) (text : String) :
    Enters p (error L.recorded code text) 0 (ifOk QueryResult.stakes) := by
  unfold error
  split
  · exact Enters.pure rfl
  · exact enters_making _ .error

theorem enters_report (r : Report) :
    Enters p (report L.recorded r) 0 (ifOk QueryResult.stakes) := enters_making _ .report

end Procedure

namespace RowBuilder

variable (b : RowBuilder)

def stakes : Stakes := b.result.stakes

theorem enters_start : Enters p (start L.recorded) 0 (ifOk stakes) := by
  refine (Enters.quiet (Quiet.unrecorded _)).bind fun handle => ?_
  cases handle <;> exact Enters.pure rfl

theorem quiet_capacity : Along Quiet (b.capacity L.recorded) := Quiet.unrecorded _

theorem quiet_fits (v : Value) : Along Quiet (b.fits L.recorded v) :=
  b.quiet_capacity.bind fun _ => .pure _

theorem quiet_push (v : Value) : Along Quiet (b.push L.recorded v) := by
  refine (b.quiet_fits v).bind fun fits => ?_
  split
  · refine (Quiet.unrecorded (L.host.add _ v)).bind fun code => ?_
    split <;> exact .pure _
  · exact b.quiet_capacity.bind fun _ => .pure _

theorem quiet_closeRow : Along Quiet (b.closeRow L.recorded) := by
  refine (Quiet.unrecorded (L.host.closeRow _)).bind fun code => ?_
  split <;> exact .pure _

theorem enters_drop : Enters p (b.drop L.recorded) b.stakes fun _ => 0 := b.result.enters_drop

end RowBuilder

end Querent
