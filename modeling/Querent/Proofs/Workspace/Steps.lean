import Querent.Proofs.Workspace.Holdings

/-!
# Steps keep the accounts

Whatever a step asks, of whichever object, what it takes out of the account it puts
back, hands to an object that it stores, or drops. Only a handle that a result gives
up leaves the account, and only one that was given up comes back into it.
-/

namespace Querent.Workspace

open Server (Keeps Accounts Frame Holdings owns share ifMade library installation
  installation_library)

variable {σ : Stage} {X : Holdings} {world : World Server.State} {slots : Slots}
  {name : String}

theorem keeps_resultInfo (r : QueryResult) :
    Keeps (resultInfo installation r) r.holdings fun x => x.2.holdings := by
  refine r.keeps_kind.bind fun (k, r) => ?_
  exact r.keeps_isOk.bind fun _ => r.keeps_code.bind fun _ => r.keeps_details.bind fun _ =>
    r.keeps_atEnd.bind fun _ => Keeps.pure rfl

/-- A workspace is as far as the step has come. -/
abbrev Reaches (σ : Stage) (X : Holdings) (ws : Workspace Server.State) : Prop :=
  σ.At X ws.world ws.slots

theorem reaches_bind {α β : Type} {act : Act Server.State α} {f : α → Act Server.State β}
    {ws : Workspace Server.State} (h : ∀ a, Reaches σ X (f a (act ws).2).2) :
    Reaches σ X ((act >>= f) ws).2 :=
  h _

section Storing

variable {α : Type} {held : α → Holdings} {f : α → Object} (into : String)

theorem storeNew_at {made : Except Error α} (h : σ.At (ifMade held made + X) world slots)
    (hf : ∀ a, (f a).holdings = held a) (hfit : ∀ a, made = .ok a → (f a).Fit σ.given) :
    Reaches σ X (storeNew installation into f made ⟨world, slots⟩).2 := by
  cases made with
  | error e => exact h.conv (zero_add X).symm
  | ok a => exact (h.conv (congrArg (· + X) (hf a))).store into (hfit a rfl)

theorem storeNewDb_at {made : Except DbApi.Error α}
    (h : σ.At (ifMade held made + X) world slots)
    (hf : ∀ a, (f a).holdings = held a) (hfit : ∀ a, made = .ok a → (f a).Fit σ.given) :
    Reaches σ X (storeNewDb installation into f made ⟨world, slots⟩).2 := by
  cases made with
  | error e => exact h.conv (zero_add X).symm
  | ok a => exact (h.conv (congrArg (· + X) (hf a))).store into (hfit a rfl)

end Storing

/-! ## Questions, by kind of object -/

variable (fuel : Nat)

theorem askConnection_at {c : Connection} (h : σ.At (c.holdings + X) world (slots.erase name))
    (hl : σ.Lends name (.connection c) slots) (q : Question) :
    Reaches σ X (askConnection installation fuel c q ⟨world, slots⟩).2 := by
  cases q with
  | execute sql params format into =>
    exact storeNew_at into (h.make hl (c.keeps_execute sql)) (fun _ => rfl) fun _ _ => trivial
  | useDatabase db => exact (h.run (c.keeps_useDatabase db)).keep hl
  | close => exact (h.run c.keeps_close).keep hl
  | isClosed => exact (h.run c.keeps_isClosed).keep hl
  | clone into => exact (h.make hl c.keeps_clone).store (o := .connection _) into trivial
  | describe => exact (h.run c.keeps_describe).keep hl
  | rows sql =>
    refine reaches_bind fun outcome => ?_
    cases outcome <;> exact (h.run (c.keeps_rows fuel sql)).keep hl
  | _ => exact h.keep hl

theorem askResult_at {r : QueryResult} (h : σ.At (r.holdings + X) world (slots.erase name))
    (hl : σ.Lends name (.result r) slots) (q : Question) (hq : ∀ into, q ≠ .intoRaw into) :
    Reaches σ X (askResult installation name r q ⟨world, slots⟩).2 := by
  cases q with
  | info => exact (h.run (keeps_resultInfo r)).put (p := .result _) hl trivial
  | check => exact (h.run r.keeps_check).keep hl
  | error => exact (h.run r.keeps_error).keep hl
  | report => exact (h.run r.keeps_report).put (p := .result _) hl trivial
  | openRows => exact (h.run r.keeps_openRows).put (p := .result _) hl trivial
  | fetch => exact (h.run r.keeps_fetch).put (p := .result _) hl trivial
  | row into =>
    have h' := h.run r.keeps_row
    rw [add_comm (ifMade _ _), add_assoc] at h'
    exact storeNew_at into (h'.put (p := .result _) hl trivial) (fun _ => rfl) fun _ _ => trivial
  | intoCursor into =>
    refine (h.conv ?_).store (o := .cursor (.ofResult r)) into (Cursor.ofResult_settled r)
    exact congrArg (· + X) (Cursor.holdings_of_none rfl)
  | intoRaw into => exact absurd rfl (hq into)
  | builtRows => exact h.keep hl
  | _ => exact h.keep hl

/-- A result that gives up its handle leaves it to whoever takes it. -/
theorem askResult_intoRaw_at {r : QueryResult}
    (h : σ.At (r.holdings + X) world (slots.erase name)) (into : String)
    (hgiven : r.handle ∈ σ.given) : Reaches σ (owns r.handle + X)
      (askResult installation name r (.intoRaw into) ⟨world, slots⟩).2 :=
  ((h.run r.keeps_intoRaw).conv (zero_add _)).store (o := .raw _) into hgiven

theorem askBatch_at {b : Batch} (h : σ.At (b.holdings + X) world (slots.erase name))
    (hl : σ.Lends name (.batch b) slots) (q : Question) :
    Reaches σ X (askBatch installation b q ⟨world, slots⟩).2 := by
  cases q with
  | nextRow => exact (h.run b.keeps_next).keep hl
  | count => exact (h.run b.keeps_count).keep hl
  | field i => exact (h.run (b.keeps_field i)).keep hl
  | toRow => exact (h.run b.keeps_row).keep hl
  | _ => exact h.keep hl

theorem askCursor_at {c : Cursor} (h : σ.At (c.holdings + X) world (slots.erase name))
    (hl : σ.Lends name (.cursor c) slots) (q : Question) :
    Reaches σ X (askCursor installation fuel name c q ⟨world, slots⟩).2 := by
  have hs : c.Settled := hl.fit
  cases q with
  | next =>
    exact (h.run (Cursor.keeps_next hs)).put (p := .cursor _) hl
      (Cursor.next_gives library hs world).settled
  | all =>
    exact (h.run (Cursor.keeps_collect fuel hs)).put (p := .cursor _) hl
      (Cursor.collect_settled fuel hs world)
  | status =>
    have kept : Keeps (resultInfo installation c.result) c.holdings
        fun x => Cursor.holdings { c with result := x.2 } :=
      ((keeps_resultInfo c.result).frame _).conv (add_comm _ _) fun _ => add_comm _ _
    exact (h.run kept).put (p := .cursor _) hl hs
  | _ => exact h.keep hl

theorem askDbConnection_at {c : DbApi.Connection}
    (h : σ.At (c.holdings + X) world (slots.erase name))
    (hl : σ.Lends name (.dbConnection c) slots) (q : Question) :
    Reaches σ X (askDbConnection installation fuel c q ⟨world, slots⟩).2 := by
  cases q with
  | close => exact (h.run c.keeps_close).keep hl
  | isClosed => exact (h.run c.inner.keeps_isClosed).keep hl
  | peer => exact (h.run c.inner.keeps_peer).keep hl
  | cursor into =>
    have made := h.make hl c.keeps_cursor
    exact storeNewDb_at into made (fun _ => rfl) (c.cursor_settled world)
  | execute sql params format into =>
    have made := h.make hl (c.keeps_execute fuel sql params format)
    have settled := c.execute_settled fuel sql params format world
    rw [askDbConnection, bind_apply, run_apply, installation_library]
    -- the outcome and the world after it are one value, which all three speak of
    revert made settled
    generalize c.execute library fuel sql params format world = x
    intro made settled
    obtain ⟨_ | outcome, world'⟩ := x
    · exact made.conv (zero_add X).symm
    · exact storeNewDb_at into made (fun _ => rfl) fun cur hcur => settled cur (congrArg some hcur)
  | cloneDb into => exact (h.make hl c.keeps_clone).store (o := .dbConnection _) into trivial
  | cloneInner into => exact (h.make hl c.inner.keeps_clone).store (o := .connection _) into trivial
  | _ => exact h.keep hl

theorem askDbCursor_at {c : DbApi.Cursor}
    (h : σ.At (c.holdings + X) world (slots.erase name))
    (hl : σ.Lends name (.dbCursor c) slots) (q : Question) :
    Reaches σ X (askDbCursor installation fuel name c q ⟨world, slots⟩).2 := by
  have hs : c.Settled := hl.fit
  cases q with
  | execute sql params format into =>
    exact (h.run (c.keeps_execute fuel sql params)).put (p := .dbCursor _) hl
      (c.execute_settled fuel sql params world)
  | executeMany sql seq =>
    exact (h.run (c.keeps_executeEach fuel sql none seq)).put (p := .dbCursor _) hl
      (DbApi.Cursor.executeEach_settled fuel sql none hs seq world)
  | fetchOne | next =>
    exact (h.run (DbApi.Cursor.keeps_fetchOne hs)).put (p := .dbCursor _) hl
      (DbApi.Cursor.fetchOne_settled hs world)
  | fetchMany size =>
    exact (h.run (DbApi.Cursor.keeps_fetchMany size hs)).put (p := .dbCursor _) hl
      (DbApi.Cursor.fetchMany_settled size hs world)
  | fetchAll =>
    exact (h.run (DbApi.Cursor.keeps_fetchAll fuel hs)).put (p := .dbCursor _) hl
      (DbApi.Cursor.fetchAll_settled fuel hs world)
  | set arraySize format =>
    exact h.put (p := .dbCursor { c with
      arraySize := arraySize.getD c.arraySize, format := format.getD c.format }) hl hs
  | close =>
    exact (h.run c.keeps_close).put (p := .dbCursor _) hl
      (DbApi.Cursor.settled_of_none (c := c.reset) rfl)
  | _ => exact h.keep hl

theorem askProcedure_at {p : Procedure} (h : σ.At X world (slots.erase name))
    (hl : σ.Lends name (.procedure p) slots) (q : Question)
    (hq : ∀ raw into, q ≠ .wrap raw into) :
    Reaches σ X (askProcedure installation p q ⟨world, slots⟩).2 := by
  -- a procedure holds nothing, so it is never taken out of the account
  have kept : σ.At (0 + X) world slots :=
    Stage.At.conv (Stage.At.keep (h.conv (zero_add X)) hl) (zero_add X)
  cases q with
  | execute sql params format into =>
    exact storeNew_at into (kept.run (p.keeps_execute sql)) (fun _ => rfl) fun _ _ => trivial
  | makeSuccess into =>
    exact storeNew_at into (kept.run Procedure.keeps_success) (fun _ => rfl) fun _ _ => trivial
  | makeError code text into =>
    exact storeNew_at into (kept.run (Procedure.keeps_error code text)) (fun _ => rfl)
      fun _ _ => trivial
  | makeReport r into =>
    exact storeNew_at into (kept.run (Procedure.keeps_report r)) (fun _ => rfl)
      fun _ _ => trivial
  | wrap raw into => exact absurd rfl (hq raw into)
  | buildRow into =>
    exact storeNew_at into (kept.run RowBuilder.keeps_start) (fun _ => rfl) fun _ _ => trivial
  | _ => exact kept.conv (zero_add X).symm

theorem askRowBuilder_at {b : RowBuilder} (h : σ.At (b.holdings + X) world (slots.erase name))
    (hl : σ.Lends name (.rowBuilder b) slots) (q : Question) :
    Reaches σ X (askRowBuilder installation name b q ⟨world, slots⟩).2 := by
  cases q with
  | capacity => exact (h.run b.keeps_capacity).keep hl
  | fits v => exact (h.run (b.keeps_fits v)).keep hl
  | push v => exact (h.run (b.keeps_push v)).keep hl
  | closeRow => exact (h.run b.keeps_closeRow).keep hl
  | finish into => exact h.store (o := .result b.finish) into trivial
  | _ => exact h.keep hl

/-! ## Raw handles -/

theorem release_dead {h : Handle} {s : Server.State} {item : Server.Item}
    (hget : s.objects.get? h.number = some item) (kind : ResultKind) :
    (Server.release h kind s).2.objects.get? h.number = none := by
  rw [Server.release_of_live hget]
  exact (Server.Table.get?_erase _ _ _).trans (if_pos rfl)

theorem wrap_dead {h : Handle} {w : World Server.State} {F : Holdings}
    (ha : Accounts w (owns h + F)) :
    (Server.wrap h w.lib).2.objects.get? h.number = none := by
  obtain ⟨item, hget, -⟩ := ha.item_of_owned
  have hle := ha.le_last (Multiset.mem_add.mpr (Or.inl (Multiset.mem_singleton_self h)))
  rw [Server.wrap_of_live hget]
  show Server.Table.get? (w.lib.objects.erase h.number ++ [(w.lib.last + 1, item)]) h.number = none
  rw [Server.Table.get?_append, Server.Table.get?_erase, if_pos rfl, Server.Table.get?_cons,
    if_neg (by show w.lib.last + 1 ≠ h.number; omega)]
  rfl

/-- The stage of a step that has passed on a handle. -/
def Stage.spend (σ : Stage) (h : Handle) : Stage := { σ with spent := σ.spent ++ [h] }

/-- A handle that was taken out of the account and lives no more is spent. -/
theorem Stage.At.spend {h : Handle} (hat : σ.At X world slots)
    (hle : h.number ≤ world.lib.last) (hnone : world.lib.objects.get? h.number = none) :
    (σ.spend h).At X world slots where
  sorted := hat.sorted
  fit := hat.fit
  accounts := hat.accounts
  frame := hat.frame
  misuse := hat.misuse
  spent := by
    intro i hi
    rcases List.mem_append.mp hi with hi | hi
    · exact hat.spent i hi
    · obtain rfl := List.mem_singleton.mp hi
      exact ⟨hle, hnone⟩
  others := hat.others

/-- Only misuse was noted. -/
theorem Stage.At.noted (hat : σ.At X world slots) (hfair : ¬σ.fair) (lib : Server.State)
    (hobj : lib.objects = world.lib.objects) (hlast : lib.last = world.lib.last)
    (hscr : lib.script = world.lib.script) : σ.At X { world with lib } slots where
  sorted := hat.sorted
  fit := hat.fit
  accounts := hat.accounts.of_eq hobj hlast rfl
  frame := hat.frame.trans (Frame.of_objects hobj hlast hscr fun _ h => h)
  misuse := fun hf => absurd hf hfair
  spent := by
    intro i hi
    rw [hobj, hlast]
    exact hat.spent i hi
  others := by
    intro n hn p hp
    refine (hat.others n hn p hp).after (F := slots.total)
      (Frame.of_objects hobj hlast hscr fun _ h => h) ?_
    exact fun hget i hi => Slots.mem_total hat.sorted hget hi

theorem release_of_dead {h : Handle} {s : Server.State}
    (hget : s.objects.get? h.number = none) (kind : ResultKind) :
    ∃ m, Server.release h kind s = ((), { s with misuse := s.misuse ++ [m] }) := by
  rw [Server.release, bind_apply, Server.remove_eq, hget,
    Server.Table.erase_of_get?_none _ _ hget]
  dsimp only
  rw [bind_apply, get_apply]
  dsimp only
  split <;> exact ⟨_, rfl⟩

/-- A raw handle may be passed on: it is still held, or a step that is not fair passes
it on again. -/
def Passable (σ : Stage) (h : Handle) (X Y : Holdings) : Prop :=
  Y = owns h + X ∨ Y = X ∧ h ∈ σ.spent ∧ ¬σ.fair

theorem Stage.At.le_last {h : Handle} (hat : σ.At (owns h + X) world slots) :
    h.number ≤ world.lib.last :=
  hat.accounts.le_last (Multiset.mem_add.mpr (Or.inl
    (Multiset.mem_add.mpr (Or.inl (Multiset.mem_singleton_self h)))))

theorem Stage.At.owned {h : Handle} (hat : σ.At (owns h + X) world slots) :
    Accounts world (owns h + (X + (slots.total + σ.besides))) :=
  add_assoc (owns h) X _ ▸ hat.accounts

theorem askRaw_release_at {h : Handle} {Y : Holdings} (hat : σ.At Y world slots)
    (hget : slots.get? name = some (.raw h)) (hY : Passable σ h X Y) (kind : ResultKind)
    (keep : Bool) : Reaches (σ.spend h) X
      (askRaw installation name h (.release kind keep) ⟨world, slots⟩).2 := by
  have released : (σ.spend h).At X (call (Server.release h kind) world).2 slots := by
    rcases hY with rfl | ⟨rfl, hspent, hfair⟩
    -- held until now, or passed on before and gone
    · obtain ⟨item, hitem, -⟩ := hat.owned.item_of_owned
      have hlast := (Keeps.release kind world _ hat.owned).2.last
      exact ((hat.run (Keeps.release kind)).conv (zero_add X).symm).spend
        (hat.le_last.trans hlast) (release_dead hitem kind)
    · obtain ⟨hle, hnone⟩ := hat.spent h hspent
      obtain ⟨m, hm⟩ := release_of_dead hnone kind
      rw [call_apply, hm]
      exact (hat.noted hfair { world.lib with misuse := world.lib.misuse ++ [m] } rfl rfl
        rfl).spend hle hnone
  cases keep with
  | true => exact released
  | false => exact released.forget (o := .raw h) hget rfl

theorem askProcedure_wrap_at {h : Handle} {raw : String} {Y : Holdings}
    (hat : σ.At Y world slots) (hget : slots.get? raw = some (.raw h))
    (hY : Passable σ h X Y) (p : Procedure) (into : String) : Reaches (σ.spend h) X
      (askProcedure installation p (.wrap raw into) ⟨world, slots⟩).2 := by
  -- the slot is given up first: the object in it holds nothing, the step holds the handle
  have hforget := hat.forget hget rfl
  have run : askProcedure installation p (.wrap raw into) ⟨world, slots⟩ =
      storeNew installation into .result (Procedure.wrap library h world).1
        ⟨(Procedure.wrap library h world).2, slots.erase raw⟩ := by
    rw [askProcedure, bind_apply, find?_apply, hget]
    rfl
  rw [run]
  rcases hY with rfl | ⟨rfl, hspent, -⟩
  · have hlast := (Procedure.keeps_wrap h world _ hforget.owned).2.last
    exact storeNew_at into ((hforget.run (Procedure.keeps_wrap h)).spend
      (hforget.le_last.trans hlast) (wrap_dead hforget.owned)) (fun _ => rfl) fun _ _ => trivial
  · obtain ⟨hle, hnone⟩ := hat.spent h hspent
    have gone : Procedure.wrap library h world = (.error Making.wrap.failure, world) := by
      show ((Procedure.made .wrap (Server.wrap h world.lib).1 : Except Error QueryResult),
        { world with lib := (Server.wrap h world.lib).2 }) = _
      rw [Server.wrap_of_gone hnone]
      rfl
    rw [gone]
    exact hforget.spend hle hnone

end Querent.Workspace
