import Mathlib.Algebra.BigOperators.Group.List.Basic
import Mathlib.Tactic.Abel
import Querent.Proofs.Sharing.DbApi
import Querent.Proofs.Workspace.Ownership

/-!
# The stakes of a workspace

The objects of a workspace are all that share its sessions. A step keeps the register in
order, over any library: it gives a stake to what it makes, and takes that of an object
that it ends or that a new one replaces. Two questions do more, and are put off: to close
a session, and to give up the handle of a result.
-/

namespace Querent.Workspace

variable {σ : Type}

/-- What a program finds where the library keeps a log. -/
def Installation.recorded (I : Installation σ) : Installation (σ × List Call) where
  library := I.library.recorded
  hasClient := I.hasClient
  hasHost := I.hasHost
  builtRows := I.builtRows.map fun look h => unrecorded (look h)

/-- The stakes of an object in sessions. A batch has none, nor has a raw handle. -/
def Object.stakes : Object → Stakes
  | connection c => c.stakes
  | result r => r.stakes
  | cursor c => c.stakes
  | dbConnection c => c.stakes
  | dbCursor c => c.stakes
  | rowBuilder b => b.stakes
  | batch _ | procedure _ | raw _ => 0

variable {p : Past} {L : Library σ}

theorem Object.enters_drop (o : Object) :
    Enters p (o.drop L.recorded) o.stakes fun _ => 0 := by
  cases o with
  | connection c => exact c.enters_drop
  | result r => exact r.enters_drop
  | batch b => exact Enters.quiet (Quiet.calm.release b.handle .row)
  | cursor c => exact c.enters_drop
  | dbConnection c => exact c.enters_drop
  | dbCursor c => exact c.enters_drop
  | rowBuilder b => exact b.enters_drop
  | procedure | raw => exact Enters.pure rfl

namespace Slots

/-- The stakes of all objects. -/
def stakes (s : Slots) : Stakes := (s.map (·.2.stakes)).sum

variable {s : Slots} {name : String} {o : Object}

theorem stakes_erase (hs : s.Sorted) (h : s.get? name = some o) :
    s.stakes = o.stakes + (s.erase name).stakes := by
  rw [stakes, ((perm_erase hs h).map _).sum_eq]
  rfl

theorem stakes_set (hs : s.Sorted) :
    (s.set name o).stakes = o.stakes + (s.erase name).stakes := by
  rw [stakes, ((perm_set hs name o).map _).sum_eq]
  rfl

end Slots

/-! ## In the course of a step -/

/-- The register is in order, where a step has the stakes `X` in hand, and the objects in
their slots have the others. -/
structure Booked (p : Past) (X : Stakes) (ws : Workspace (σ × List Call)) : Prop where
  sorted : ws.slots.Sorted
  register : Register ws.world p (X + ws.slots.stakes)

namespace Booked

variable {ws : Workspace (σ × List Call)} {X Y : Stakes} {name : String} {o : Object} {α : Type}
  {act : Action (σ × List Call) α}

theorem conv (h : Booked p X ws) (heq : Y = X) : Booked p Y ws := heq ▸ h

/-- Takes a part of what is in hand for an action. -/
theorem run {post : α → Stakes} (h : Booked p (X + Y) ws) (hact : Enters p act X post) :
    Booked p (post (act ws.world).1 + Y) (Workspace.run act ws).2 := by
  refine ⟨h.sorted, ?_⟩
  rw [add_assoc]
  exact hact _ _ (add_assoc X Y _ ▸ h.register)

theorem quiet (h : Booked p X ws) (hact : Along Quiet act) :
    Booked p X (Workspace.run act ws).2 :=
  ⟨h.sorted, h.register.quiet (hact ws.world)⟩

/-- An object makes something, and stays as it is. -/
theorem make {made : α → Stakes} (h : Booked p X ws) (hget : ws.slots.get? name = some o)
    (hact : Enters p act o.stakes fun a => made a + o.stakes) :
    Booked p (made (act ws.world).1 + X) (Workspace.run act ws).2 := by
  have hr := h.register
  rw [Slots.stakes_erase h.sorted hget, add_left_comm] at hr
  refine ⟨h.sorted, ?_⟩
  show Register (act ws.world).2 p (_ + ws.slots.stakes)
  rw [Slots.stakes_erase h.sorted hget, add_assoc, add_left_comm X, ← add_assoc]
  exact hact _ _ hr

/-- An object is asked something, and stays as it is. -/
theorem keep (h : Booked p X ws) (hget : ws.slots.get? name = some o)
    (hact : Enters p act o.stakes fun _ => o.stakes) : Booked p X (Workspace.run act ws).2 := by
  have nothing : Enters p act o.stakes fun _ => 0 + o.stakes := hact.conv rfl fun _ => zero_add _
  exact (h.make hget nothing).conv (zero_add X).symm

/-- An object is asked something, and what became of it is written back. -/
theorem change {f : α → Object} (h : Booked p X ws) (hget : ws.slots.get? name = some o)
    (hact : Enters p act o.stakes fun a => (f a).stakes) :
    Booked p X (Workspace.put name (f (act ws.world).1) (Workspace.run act ws).2).2 := by
  have hr := h.register
  rw [Slots.stakes_erase h.sorted hget, add_left_comm] at hr
  refine ⟨h.sorted.set name _, ?_⟩
  show Register (act ws.world).2 p (X + (ws.slots.set name _).stakes)
  rw [Slots.stakes_set h.sorted, add_left_comm]
  exact hact _ _ hr

/-- Writes an object back that has the same stakes. -/
theorem put (o' : Object) (h : Booked p X ws) (hget : ws.slots.get? name = some o)
    (hs : o'.stakes = o.stakes) : Booked p X (Workspace.put name o' ws).2 := by
  refine ⟨h.sorted.set name o', ?_⟩
  have hr := h.register
  rw [Slots.stakes_erase h.sorted hget, ← hs, ← Slots.stakes_set h.sorted] at hr
  exact hr

/-- Takes an object out of its slot. -/
theorem take (h : Booked p X ws) (hget : ws.slots.get? name = some o) :
    Booked p (o.stakes + X) (forget name ws).2 := by
  refine ⟨h.sorted.erase name, ?_⟩
  have hr := h.register
  rw [Slots.stakes_erase h.sorted hget, add_left_comm, ← add_assoc] at hr
  exact hr

/-- Stores what is in hand. An object that was there is dropped. -/
theorem store {I : Installation σ} (h : Booked p (o.stakes + X) ws) (into : String) :
    Booked p X (Workspace.store I.recorded into o ws).2 := by
  have hr := h.register
  rw [Workspace.store, bind_apply, find?_apply, bind_apply]
  dsimp only
  cases hold : ws.slots.get? into with
  | none =>
    refine ⟨h.sorted.set into o, ?_⟩
    show Register ws.world p (X + (ws.slots.set into o).stakes)
    rw [Slots.stakes_set h.sorted, Slots.erase_of_get?_none hold, add_left_comm, ← add_assoc]
    exact hr
  | some old =>
    refine ⟨h.sorted.set into o, ?_⟩
    show Register (old.drop I.library.recorded ws.world).2 p (X + (ws.slots.set into o).stakes)
    rw [Slots.stakes_erase h.sorted hold] at hr
    have total : o.stakes + X + (old.stakes + (ws.slots.erase into).stakes) =
        old.stakes + (X + (ws.slots.set into o).stakes) := by
      rw [Slots.stakes_set h.sorted]
      abel
    rw [total] at hr
    exact zero_add (X + _) ▸ old.enters_drop _ _ hr

/-- What is made by an action goes into what follows. -/
theorem answer {β : Type} {f : α → Act (σ × List Call) β} (made : α → Stakes)
    (h : Booked p (made (act ws.world).1 + X) (Workspace.run act ws).2)
    (hf : ∀ a ws, Booked p (made a + X) ws → Booked p X (f a ws).2) :
    Booked p X ((Workspace.run act >>= f) ws).2 :=
  hf _ _ h

theorem bind {β : Type} {act : Act (σ × List Call) α} {f : α → Act (σ × List Call) β}
    (h : ∀ a, Booked p X (f a (act ws).2).2) : Booked p X ((act >>= f) ws).2 :=
  h _

section Storing

variable {I : Installation σ} {stakes : α → Stakes} {f : α → Object} (into : String)

theorem storeNew {made : Except Error α} (h : Booked p (ifOk stakes made + X) ws)
    (hf : ∀ a, (f a).stakes = stakes a) :
    Booked p X (Workspace.storeNew I.recorded into f made ws).2 := by
  cases made with
  | error e => exact h.conv (zero_add X).symm
  | ok a => exact (h.conv (congrArg (· + X) (hf a))).store into

theorem storeNewDb {made : Except DbApi.Error α} (h : Booked p (ifOk stakes made + X) ws)
    (hf : ∀ a, (f a).stakes = stakes a) :
    Booked p X (Workspace.storeNewDb I.recorded into f made ws).2 := by
  cases made with
  | error e => exact h.conv (zero_add X).symm
  | ok a => exact (h.conv (congrArg (· + X) (hf a))).store into

end Storing

end Booked

/-! ## Questions, by kind of object -/

variable {I : Installation σ} {ws : Workspace (σ × List Call)} {name : String}

/-- What a result tells of itself leaves it the same. -/
theorem resultInfo_gives {τ : Type} (I : Installation τ) (r : QueryResult) :
    Gives (resultInfo I r) fun x => r.Same x.2 :=
  (r.kind_gives I.library).bind fun _ same => Gives.bind_any fun _ => Gives.bind_any fun _ =>
    Gives.bind_any fun _ => Gives.bind_any fun _ => Gives.pure same

/-- To look into a row result that was built concerns no connection. -/
theorem quiet_look {look : Handle → StateM (σ × List Call) (List Row)}
    (h : I.recorded.builtRows = some look) (i : Handle) : Along Quiet (call (look i)) := by
  obtain ⟨look, -, rfl⟩ := Option.map_eq_some_iff.mp h
  exact Quiet.of_rfl fun _ => ⟨rfl, rfl⟩

theorem quiet_resultInfo (r : QueryResult) : Along Quiet (resultInfo I.recorded r) :=
  along_resultInfo (I := I.recorded) Quiet.calm r

variable (fuel : Nat)

theorem askConnection_booked {c : Connection} (h : Booked p 0 ws)
    (hget : ws.slots.get? name = some (.connection c)) {q : Question} (hq : q ≠ .close) :
    Booked p 0 (askConnection I.recorded fuel c q ws).2 := by
  cases q with
  | execute sql params format into =>
    exact Booked.storeNew into (h.make hget (c.enters_execute sql)) fun _ => rfl
  | useDatabase db => exact h.keep hget (c.enters_useDatabase db)
  | close => exact absurd rfl hq
  | isClosed => exact h.quiet c.quiet_isClosed
  | clone into => exact (h.make hget c.enters_clone).store (o := .connection _) into
  | describe => exact h.quiet c.quiet_describe
  | rows sql =>
    refine Booked.bind fun outcome => ?_
    cases outcome <;> exact h.keep hget (c.enters_rows fuel sql)
  | _ => exact h

theorem askResult_booked {r : QueryResult} (h : Booked p 0 ws)
    (hget : ws.slots.get? name = some (.result r)) {q : Question}
    (hq : ∀ into, q ≠ .intoRaw into) : Booked p 0 (askResult I.recorded name r q ws).2 := by
  have change {α : Type} {act : Action (σ × List Call) (α × QueryResult)}
      (hact : Along Quiet act) (same : Gives act fun x => r.Same x.2) :
      Booked p 0 (put name (.result (act ws.world).1.2) (Workspace.run act ws).2).2 :=
    h.change (f := fun x : α × QueryResult => .result x.2) hget
      (Enters.quietly hact (same.imp fun _ => QueryResult.stakes_same))
  cases q with
  | info => exact change (quiet_resultInfo r) (resultInfo_gives _ r)
  | check => exact h.quiet (r.along_check Quiet.calm)
  | error => exact h.quiet (r.along_error Quiet.calm)
  | report => exact change (r.along_report Quiet.calm) (r.report_gives _)
  | openRows =>
    exact change (QueryResult.along_openRows Quiet.calm (Quiet.requests _)) (r.openRows_gives _)
  | fetch => exact change (QueryResult.along_fetch Quiet.calm (Quiet.requests _)) (r.fetch_gives _)
  | row into =>
    have copied := change (r.along_row (Quiet.calm (L := I.library))) (r.row_gives _)
    have none : ifOk (fun _ => 0) (r.row I.library.recorded ws.world).1.1 = (0 : Stakes) := by
      cases (r.row I.library.recorded ws.world).1.1 <;> rfl
    exact Booked.storeNew into (copied.conv (congrArg (· + 0) none)) fun _ => rfl
  | intoCursor into => exact (h.take hget).store (o := .cursor _) into
  | intoRaw into => exact absurd rfl (hq into)
  | builtRows =>
    unfold askResult
    cases hb : I.recorded.builtRows with
    | none => exact h
    | some look => exact h.quiet (quiet_look hb r.handle)
  | _ => exact h

theorem askBatch_booked {b : Batch} (h : Booked p 0 ws) (q : Question) :
    Booked p 0 (askBatch I.recorded b q ws).2 := by
  cases q with
  | nextRow => exact h.quiet (Quiet.calm.nextRow b.handle)
  | count => exact h.quiet (Quiet.calm.fieldCount b.handle)
  | field i => exact h.quiet (Quiet.calm.field b.handle i)
  | toRow => exact h.quiet (b.along_row Quiet.calm)
  | _ => exact h

theorem askCursor_booked {c : Cursor} (h : Booked p 0 ws)
    (hget : ws.slots.get? name = some (.cursor c)) (q : Question) :
    Booked p 0 (askCursor I.recorded fuel name c q ws).2 := by
  have change {α : Type} {act : Action (σ × List Call) (α × Cursor)}
      (hact : Enters p act c.stakes fun x => x.2.stakes) :
      Booked p 0 (put name (.cursor (act ws.world).1.2) (Workspace.run act ws).2).2 :=
    h.change (f := fun x : α × Cursor => .cursor x.2) hget hact
  cases q with
  | next =>
    exact change (Enters.quietly c.quiet_next
      ((Cursor.next_same _).imp fun _ => Cursor.stakes_same))
  | all => exact change (c.enters_collect fuel)
  | status =>
    have told : Enters p (resultInfo I.recorded c.result) c.stakes fun x => x.2.stakes :=
      Enters.quietly (quiet_resultInfo c.result)
        ((resultInfo_gives _ c.result).imp fun _ => QueryResult.stakes_same)
    exact h.change (f := fun x : ResultInfo × QueryResult => .cursor { c with result := x.2 }) hget
      told
  | _ => exact h

theorem askDbConnection_booked {c : DbApi.Connection} (h : Booked p 0 ws)
    (hget : ws.slots.get? name = some (.dbConnection c)) {q : Question} (hq : q ≠ .close) :
    Booked p 0 (askDbConnection I.recorded fuel c q ws).2 := by
  cases q with
  | close => exact absurd rfl hq
  | isClosed => exact h.quiet c.inner.quiet_isClosed
  | peer => exact h.quiet c.inner.quiet_peer
  | cursor into =>
    have made := h.make hget c.enters_cursor
    exact Booked.storeNewDb into made fun _ => rfl
  | execute sql params format into =>
    have made := h.make hget (c.enters_execute (L := I.library) fuel sql params format)
    refine Booked.answer (fun x => x.elim 0 (ifOk DbApi.Cursor.stakes)) made
      fun outcome ws' made => ?_
    cases outcome with
    | none => exact made.conv (zero_add 0).symm
    | some outcome => exact Booked.storeNewDb into made fun _ => rfl
  | cloneDb into => exact (h.make hget c.enters_clone).store (o := .dbConnection _) into
  | cloneInner into => exact (h.make hget c.inner.enters_clone).store (o := .connection _) into
  | _ => exact h

theorem askDbCursor_booked {c : DbApi.Cursor} (h : Booked p 0 ws)
    (hget : ws.slots.get? name = some (.dbCursor c)) (q : Question) :
    Booked p 0 (askDbCursor I.recorded fuel name c q ws).2 := by
  have change {α : Type} {act : Action (σ × List Call) (α × DbApi.Cursor)}
      (hact : Enters p act c.stakes fun x => x.2.stakes) :
      Booked p 0 (put name (.dbCursor (act ws.world).1.2) (Workspace.run act ws).2).2 :=
    h.change (f := fun x : α × DbApi.Cursor => .dbCursor x.2) hget hact
  cases q with
  | execute sql params format into => exact change (c.enters_execute fuel sql params)
  | executeMany sql seq => exact change (c.enters_executeEach fuel sql none seq)
  | fetchOne | next => exact change c.enters_fetchOne
  | fetchMany size => exact change (DbApi.Cursor.enters_fetchMany size c)
  | fetchAll => exact change (c.enters_fetchAll fuel)
  | set arraySize format =>
    exact h.put (.dbCursor { c with
      arraySize := arraySize.getD c.arraySize, format := format.getD c.format }) hget rfl
  | close => exact h.change (f := .dbCursor) hget c.enters_close
  | _ => exact h

theorem askProcedure_booked {procedure : Procedure} (h : Booked p 0 ws) (q : Question) :
    Booked p 0 (askProcedure I.recorded procedure q ws).2 := by
  have ready : Booked p (0 + 0) ws := h.conv (zero_add 0)
  cases q with
  | execute sql params format into =>
    exact Booked.storeNew into (ready.run (procedure.enters_execute sql)) fun _ => rfl
  | makeSuccess into => exact Booked.storeNew into (ready.run Procedure.enters_success) fun _ => rfl
  | makeError code text into =>
    exact Booked.storeNew into (ready.run (Procedure.enters_error code text)) fun _ => rfl
  | makeReport r into =>
    exact Booked.storeNew into (ready.run (Procedure.enters_report r)) fun _ => rfl
  | wrap raw into =>
    rw [askProcedure, bind_apply, find?_apply]
    cases hraw : ws.slots.get? raw with
    | none => exact h
    | some o =>
      cases o with
      | raw i =>
        exact Booked.storeNew into ((h.take hraw).run (Procedure.enters_wrap i)) fun _ => rfl
      | _ => exact h
  | buildRow into => exact Booked.storeNew into (ready.run RowBuilder.enters_start) fun _ => rfl
  | _ => exact h

theorem askRowBuilder_booked {b : RowBuilder} (h : Booked p 0 ws)
    (hget : ws.slots.get? name = some (.rowBuilder b)) (q : Question) :
    Booked p 0 (askRowBuilder I.recorded name b q ws).2 := by
  cases q with
  | capacity => exact h.quiet b.quiet_capacity
  | fits v => exact h.quiet (b.quiet_fits v)
  | push v => exact h.quiet (b.quiet_push v)
  | closeRow => exact h.quiet b.quiet_closeRow
  | finish into => exact (h.take hget).store (o := .result _) into
  | _ => exact h

theorem askRaw_booked {i : Handle} (h : Booked p 0 ws)
    (hget : ws.slots.get? name = some (.raw i)) (q : Question) :
    Booked p 0 (askRaw I.recorded name i q ws).2 := by
  cases q with
  | release kind keep =>
    have released := h.quiet ((Quiet.calm (L := I.library)).release i kind)
    cases keep with
    | true => exact released
    | false => exact (released.take hget).conv (add_zero _).symm
  | builtRows =>
    unfold askRaw
    cases hb : I.recorded.builtRows with
    | none => exact h
    | some look => exact h.quiet (quiet_look hb i)
  | _ => exact h

end Querent.Workspace
