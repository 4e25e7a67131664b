import Querent.Proofs.Workspace.Steps

/-!
# Ownership

What lives in the server is what the objects of the workspace hold and the raw
handles that have not been passed on, each held once, after any run of steps. So
nothing is misused, nothing leaks, and when all objects have ended just those raw
handles are left.
-/

namespace Querent.Workspace

open Server (Keeps Accounts Frame Holdings owns ownsAll ownsAll_append ownsAll_perm library
  installation installation_library)

/-! ## Runs, and the raw handles that go through them -/

section Runs

variable {σ : Type} (I : Installation σ) (fuel : Nat)

/-- The workspace after a run of steps. -/
def play : List Step → Workspace σ → Workspace σ
  | [], ws => ws
  | s :: rest, ws => play rest (step I fuel s ws).2

theorem play_append (before rest : List Step) (ws : Workspace σ) :
    play I fuel (before ++ rest) ws = play I fuel rest (play I fuel before ws) := by
  induction before generalizing ws with
  | nil => rfl
  | cons s before ih => exact ih (step I fuel s ws).2

/-- The handle that a result gives up in a step. -/
def givenUp (ws : Workspace σ) : Step → Option Handle
  | .ask slot (.intoRaw _) =>
    match ws.slots.get? slot with
    | some (.result r) => some r.handle
    | _ => none
  | _ => none

/-- The raw handle that a step passes on, to a release or to a result that wraps it. -/
def passedOn (ws : Workspace σ) : Step → Option Handle
  | .ask slot (.release _ _) =>
    match ws.slots.get? slot with
    | some (.raw h) => some h
    | _ => none
  | .ask slot (.wrap raw _) =>
    match ws.slots.get? slot, ws.slots.get? raw with
    | some (.procedure _), some (.raw h) => some h
    | _, _ => none
  | _ => none

/-- The handles that results have given up, and those passed on since, in order. -/
structure Ledger where
  given : List Handle
  passed : List Handle

/-- The raw handles not yet passed on. -/
def Ledger.outstanding (l : Ledger) : List Handle := l.given.filter (· ∉ l.passed)

def Ledger.note (l : Ledger) (ws : Workspace σ) (s : Step) : Ledger where
  given := l.given ++ (givenUp ws s).toList
  passed := l.passed ++ (passedOn ws s).toList

/-- The ledger after a run of steps. -/
def ledger : List Step → Workspace σ → Ledger → Ledger
  | [], _, l => l
  | s :: rest, ws, l => ledger rest (step I fuel s ws).2 (l.note ws s)

end Runs

/-! ## One step -/

/-- The accounts of a workspace are in order: its objects and the raw handles not yet
passed on hold all that lives, and what was passed on is gone. -/
structure Kept (ws : Workspace Server.State) (l : Ledger) : Prop where
  sorted : ws.slots.Sorted
  fit : ∀ name o, ws.slots.get? name = some o → o.Fit l.given
  accounts : Accounts ws.world (ws.slots.total + ownsAll l.outstanding)
  passed : ∀ h ∈ l.passed,
    h.number ≤ ws.world.lib.last ∧ ws.world.lib.objects.get? h.number = none

/-- The name of the object that a step asks. -/
def asked : Step → Option String
  | .ask slot _ => some slot
  | _ => none

/-- What a step leaves of the raw handles not yet passed on. -/
def Ledger.left (l : Ledger) (ws : Workspace Server.State) (s : Step) : List Handle :=
  l.outstanding.filter fun h => passedOn ws s ≠ some h

variable {ws : Workspace Server.State} {l : Ledger} {s : Step}

namespace Kept

theorem held (hk : Kept ws l) {name : String} {o : Object} {h : Handle}
    (hget : ws.slots.get? name = some o) (hh : h ∈ o.holdings.1) :
    h ∈ (ws.slots.total + ownsAll l.outstanding).1 :=
  Multiset.mem_add.mpr (Or.inl (Slots.mem_total hk.sorted hget hh))

/-- What is held lives, so it was not passed on. -/
theorem not_passed_of_held (hk : Kept ws l) {h : Handle}
    (hm : h ∈ (ws.slots.total + ownsAll l.outstanding).1) : h ∉ l.passed := by
  intro hp
  have holds := hk.accounts.holds_of_mem hm
  rw [((Server.State.dead_iff _ _).mp (hk.passed h hp).2).1] at holds
  exact absurd holds (by simp)

end Kept

/-- The stage of a step. -/
def stage (ws : Workspace Server.State) (l : Ledger) (s : Step) : Stage where
  before := ws
  asked := asked s
  given := (l.note ws s).given
  spent := l.passed
  fair := ∀ h, passedOn ws s = some h → h ∉ l.passed
  besides := ownsAll (l.left ws s)

namespace Kept

theorem stage_at (hk : Kept ws l) (X : Holdings)
    (hX : X + ownsAll (l.left ws s) = ownsAll l.outstanding) :
    (stage ws l s).At X ws.world ws.slots where
  sorted := hk.sorted
  fit := fun name o ho => (hk.fit name o ho).mono (List.subset_append_left _ _)
  accounts := by
    have ha := hk.accounts
    rw [← hX, ← add_assoc, add_comm _ X, add_assoc] at ha
    exact ha
  frame := Frame.refl _ _
  misuse := fun _ => rfl
  spent := hk.passed
  others := fun name _ o ho => Or.inl ⟨ho, fun _ _ => rfl⟩

/-- A step that passes nothing on begins with empty hands. -/
theorem stage_at_zero (hk : Kept ws l) (hs : passedOn ws s = none) :
    (stage ws l s).At 0 ws.world ws.slots := by
  refine hk.stage_at 0 ?_
  rw [zero_add, Ledger.left, hs]
  simp

/-- A step that passes on a raw handle begins with it, unless it was passed on before. -/
theorem stage_at_passable (hk : Kept ws l) {h : Handle} (hs : passedOn ws s = some h)
    (hgiven : h ∈ l.given) :
    ∃ Y, Passable (stage ws l s) h 0 Y ∧ (stage ws l s).At Y ws.world ws.slots := by
  have hnodup : l.outstanding.Nodup :=
    Multiset.coe_nodup.mp (Multiset.nodup_add.mp hk.accounts.nodup).2.1
  have hleft : l.left ws s = l.outstanding.erase h := by
    rw [hnodup.erase_eq_filter, Ledger.left, hs]
    exact List.filter_congr fun i _ => by grind
  by_cases hp : h ∈ l.passed
  · -- it is no more outstanding, and the hands are empty
    refine ⟨0, Or.inr ⟨rfl, hp, fun hf => hf h hs hp⟩, hk.stage_at 0 ?_⟩
    have hout : h ∉ l.outstanding := by simp [Ledger.outstanding, hp]
    rw [zero_add, hleft, List.erase_of_not_mem hout]
  · refine ⟨owns h, Or.inl (add_zero _).symm, hk.stage_at _ ?_⟩
    have hout : h ∈ l.outstanding := by simp [Ledger.outstanding, hgiven, hp]
    rw [hleft, ownsAll_perm (List.perm_cons_erase hout)]
    exact (ownsAll_append [h] _).symm

end Kept

/-- The stage of a step that has passed on a handle, or none. -/
def Stage.after (σ : Stage) : Option Handle → Stage
  | some h => σ.spend h
  | none => σ

section After

variable (σ : Stage) (passed : Option Handle)

@[simp] theorem Stage.after_before : (σ.after passed).before = σ.before := by
  cases passed <;> rfl

@[simp] theorem Stage.after_asked : (σ.after passed).asked = σ.asked := by
  cases passed <;> rfl

@[simp] theorem Stage.after_given : (σ.after passed).given = σ.given := by
  cases passed <;> rfl

@[simp] theorem Stage.after_spent : (σ.after passed).spent = σ.spent ++ passed.toList := by
  cases passed with
  | none => exact (List.append_nil _).symm
  | some h => rfl

@[simp] theorem Stage.after_fair : (σ.after passed).fair = σ.fair := by
  cases passed <;> rfl

@[simp] theorem Stage.after_besides : (σ.after passed).besides = σ.besides := by
  cases passed <;> rfl

end After

theorem askObject_of_ne {σ : Type} {I : Installation σ} {fuel : Nat} (name : String) (o : Object)
    {q : Question} (hq : q ≠ .drop) :
    askObject I fuel name o q = match o with
      | .connection c => askConnection I fuel c q
      | .result r => askResult I name r q
      | .batch b => askBatch I b q
      | .cursor c => askCursor I fuel name c q
      | .dbConnection c => askDbConnection I fuel c q
      | .dbCursor c => askDbCursor I fuel name c q
      | .procedure p => askProcedure I p q
      | .rowBuilder b => askRowBuilder I name b q
      | .raw h => askRaw I name h q := by
  cases q <;> first | rfl | exact absurd rfl hq

/-- A question that neither gives up a handle nor passes one on. -/
theorem askObject_at (hk : Kept ws l) (fuel : Nat) {name : String} {o : Object} {q : Question}
    (hget : ws.slots.get? name = some o) (hpassed : passedOn ws (.ask name q) = none)
    (hgiven : givenUp ws (.ask name q) = none) :
    Reaches (stage ws l (.ask name q)) 0 (askObject installation fuel name o q ws).2 := by
  obtain ⟨hat, hl⟩ := (hk.stage_at_zero hpassed).lend hget rfl
  by_cases hq : q = .drop
  · subst hq
    exact (hat.run o.keeps_drop).conv (zero_add 0).symm
  · rw [askObject_of_ne name o hq]
    cases o with
    | connection c => exact askConnection_at fuel hat hl q
    | result r =>
      refine askResult_at hat hl q ?_
      rintro into rfl
      simp [givenUp, hget] at hgiven
    | batch b => exact askBatch_at hat hl q
    | cursor c => exact askCursor_at fuel hat hl q
    | dbConnection c => exact askDbConnection_at fuel hat hl q
    | dbCursor c => exact askDbCursor_at fuel hat hl q
    | procedure p =>
      by_cases hwrap : ∃ raw into, q = .wrap raw into
      · obtain ⟨raw, into, rfl⟩ := hwrap
        -- nothing is passed on, so there is no raw handle to wrap
        have hno : ∀ h, ws.slots.get? raw ≠ some (.raw h) := by
          intro h hraw
          simp [passedOn, hget, hraw] at hpassed
        have same : (askProcedure installation p (.wrap raw into) ws).2 = ws := by
          rw [askProcedure, bind_apply, find?_apply]
          cases hraw : ws.slots.get? raw with
          | none => rfl
          | some o =>
            cases o with
            | raw h => exact absurd hraw (hno h)
            | _ => rfl
        rw [same]
        exact hat.keep hl
      · exact askProcedure_at (hat.conv (zero_add 0).symm) hl q fun raw into h =>
          hwrap ⟨raw, into, h⟩
    | rowBuilder b => exact askRowBuilder_at hat hl q
    | raw h =>
      cases q with
      | release kind keep => simp [passedOn, hget] at hpassed
      | _ => exact hat.keep hl

theorem raw_given (hk : Kept ws l) {name : String} {h : Handle}
    (hget : ws.slots.get? name = some (.raw h)) : h ∈ l.given :=
  hk.fit name _ hget

/-- A question that gives up a handle or passes one on, or any other. -/
theorem ask_at (hk : Kept ws l) (fuel : Nat) {name : String} {o : Object} (q : Question)
    (hget : ws.slots.get? name = some o) :
    Reaches ((stage ws l (.ask name q)).after (passedOn ws (.ask name q)))
      (ownsAll (givenUp ws (.ask name q)).toList)
      (askObject installation fuel name o q ws).2 := by
  cases hpassed : passedOn ws (.ask name q) with
  | some h =>
    cases q with
    | release kind keep =>
      cases o with
      | raw i =>
        obtain rfl : i = h := by simpa [passedOn, hget] using hpassed
        obtain ⟨Y, hY, hat⟩ := hk.stage_at_passable hpassed (raw_given hk hget)
        exact askRaw_release_at hat hget hY kind keep
      | _ => simp [passedOn, hget] at hpassed
    | wrap raw into =>
      cases o with
      | procedure p =>
        have hraw : ws.slots.get? raw = some (.raw h) := by
          cases hraw : ws.slots.get? raw with
          | none => simp [passedOn, hget, hraw] at hpassed
          | some o => cases o <;> simp_all [passedOn]
        obtain ⟨Y, hY, hat⟩ := hk.stage_at_passable hpassed (raw_given hk hraw)
        exact askProcedure_wrap_at hat hraw hY p into
      | _ => simp [passedOn, hget] at hpassed
    | _ => simp [passedOn] at hpassed
  | none =>
    cases hgiven : givenUp ws (.ask name q) with
    | none => exact askObject_at hk fuel hget hpassed hgiven
    | some h =>
      cases q with
      | intoRaw into =>
        cases o with
        | result r =>
          obtain rfl : r.handle = h := by simpa [givenUp, hget] using hgiven
          obtain ⟨hat, hl⟩ := (hk.stage_at_zero hpassed).lend hget rfl
          have hmem : r.handle ∈ (stage ws l (.ask name (.intoRaw into))).given := by
            simp [stage, Ledger.note, hgiven]
          exact (askResult_intoRaw_at hat into hmem).conv (add_zero _).symm
        | _ => simp [givenUp, hget] at hgiven
      | _ => simp [givenUp] at hgiven

/-- **What one step does to the accounts.** It leaves the raw handle that it makes a
result give up, and has spent the one that it passes on. -/
theorem step_at (hk : Kept ws l) (fuel : Nat) (s : Step) :
    Reaches ((stage ws l s).after (passedOn ws s)) (ownsAll (givenUp ws s).toList)
      (step installation fuel s ws).2 := by
  cases s with
  | connect config into =>
    have made := ((hk.stage_at_zero (s := .connect config into) rfl).conv (zero_add 0)).run
      (Connection.keeps_connect config)
    rw [step, if_pos (show installation.hasClient = true from rfl), bind_apply,
      run_apply, installation_library]
    revert made
    generalize Connection.connect library config ws.world = x
    intro made
    obtain ⟨_ | c, world⟩ := x
    · exact made.conv (zero_add 0).symm
    · exact made.store (o := .connection c) into trivial
  | dbConnect config into =>
    have made := ((hk.stage_at_zero (s := .dbConnect config into) rfl).conv (zero_add 0)).run
      (DbApi.Connection.keeps_connect config)
    exact storeNewDb_at into made (fun _ => rfl) fun _ _ => trivial
  | dbConnectDefault config => exact hk.stage_at_zero rfl
  | procedure db into =>
    have hat := hk.stage_at_zero (s := .procedure db into) rfl
    rw [step]
    cases Procedure.ofDatabase db with
    | error e => exact hat
    | ok p => exact (hat.conv (zero_add 0)).store (o := .procedure p) into trivial
  | load => exact hk.stage_at_zero rfl
  | explain code => exact hk.stage_at_zero rfl
  | ask name q =>
    rw [step, bind_apply, find?_apply]
    cases hget : ws.slots.get? name with
    | some o => exact ask_at hk fuel q hget
    | none =>
      have hpassed : passedOn ws (.ask name q) = none := by
        cases q <;> simp [passedOn, hget]
      have hgiven : givenUp ws (.ask name q) = none := by
        cases q <;> simp [givenUp, hget]
      rw [hpassed, hgiven]
      exact hk.stage_at_zero hpassed

/-- What a step leaves alone. -/
theorem Kept.step_frame (hk : Kept ws l) (fuel : Nat) (s : Step) :
    Frame ws.world (step installation fuel s ws).2.world 0 := by
  have frame := (step_at hk fuel s).frame
  rw [Stage.after_before] at frame
  exact frame

/-- An object that a step does not ask stays as it is, or has ended. -/
theorem Kept.step_others (hk : Kept ws l) (fuel : Nat) (s : Step) {name : String} {o : Object}
    (hasked : asked s ≠ some name) (hget : ws.slots.get? name = some o) :
    Untouched ws.world (step installation fuel s ws).2.world
      (step installation fuel s ws).2.slots name o := by
  have others := (step_at hk fuel s).others
  rw [Stage.after_before, Stage.after_asked] at others
  exact others name hasked o hget

/-! ## Runs -/

/-- A handle that is given up was held until then, so it was not passed on before. -/
theorem Kept.not_passed (hk : Kept ws l) {h : Handle} (hgiven : givenUp ws s = some h) :
    h ∉ l.passed ∧ passedOn ws s = none := by
  cases s with
  | ask name q =>
    cases q with
    | intoRaw into =>
      refine ⟨fun hp => ?_, rfl⟩
      cases hget : ws.slots.get? name with
      | none => simp [givenUp, hget] at hgiven
      | some o =>
        cases o with
        | result r =>
          obtain rfl : r.handle = h := by simpa [givenUp, hget] using hgiven
          have owned : r.handle ∈ r.holdings.1 :=
            Multiset.mem_add.mpr (Or.inl (Multiset.mem_singleton_self _))
          exact hk.not_passed_of_held (hk.held hget owned) hp
        | _ => simp [givenUp, hget] at hgiven
    | _ => simp [givenUp] at hgiven
  | _ => simp [givenUp] at hgiven

theorem Kept.outstanding_note (hk : Kept ws l) :
    (l.note ws s).outstanding = l.left ws s ++ (givenUp ws s).toList := by
  have old : l.given.filter (· ∉ l.passed ++ (passedOn ws s).toList) = l.left ws s := by
    rw [Ledger.left, Ledger.outstanding, List.filter_filter]
    refine List.filter_congr fun h _ => ?_
    simp [Bool.and_comm]
  have new : (givenUp ws s).toList.filter (· ∉ l.passed ++ (passedOn ws s).toList) =
      (givenUp ws s).toList := by
    rw [List.filter_eq_self]
    intro h hh
    obtain ⟨hp, hnone⟩ := hk.not_passed (Option.mem_toList.mp hh)
    simp [hp, hnone]
  rw [Ledger.outstanding, Ledger.note, List.filter_append, old, new]

/-- A step keeps the accounts of a workspace in order. -/
theorem Kept.after_step (hk : Kept ws l) (fuel : Nat) (s : Step) :
    Kept (step installation fuel s ws).2 (l.note ws s) := by
  have hat := step_at hk fuel s
  have fit := hat.fit
  have spent := hat.spent
  have accounts := hat.accounts
  rw [Stage.after_given] at fit
  rw [Stage.after_spent] at spent
  rw [Stage.after_besides, stage, add_left_comm, add_comm (ownsAll _), ← ownsAll_append,
    ← hk.outstanding_note] at accounts
  exact ⟨hat.sorted, fit, accounts, spent⟩

/-- A step that does not pass a handle on twice misuses nothing. -/
theorem Kept.misuse_step (hk : Kept ws l) (fuel : Nat)
    (hfair : ∀ h, passedOn ws s = some h → h ∉ l.passed) :
    (step installation fuel s ws).2.world.lib.misuse = ws.world.lib.misuse := by
  have misuse := (step_at hk fuel s).misuse
  rw [Stage.after_fair, Stage.after_before] at misuse
  exact misuse hfair

theorem Kept.after_play (hk : Kept ws l) (fuel : Nat) (steps : List Step) :
    Kept (play installation fuel steps ws) (ledger installation fuel steps ws l) := by
  induction steps generalizing ws l with
  | nil => exact hk
  | cons s rest ih => exact ih (hk.after_step fuel s)

/-- Handles stay passed on. -/
theorem passed_grows {σ : Type} (I : Installation σ) (fuel : Nat) (steps : List Step)
    (ws : Workspace σ) (l : Ledger) : l.passed <+: (ledger I fuel steps ws l).passed := by
  induction steps generalizing ws l with
  | nil => exact List.prefix_refl _
  | cons s rest ih =>
    exact (List.prefix_append _ _).trans (ih (step I fuel s ws).2 (l.note ws s))

theorem Kept.misuse_play (hk : Kept ws l) (fuel : Nat) (steps : List Step)
    (hfair : (ledger installation fuel steps ws l).passed.Nodup) :
    (play installation fuel steps ws).world.lib.misuse = ws.world.lib.misuse := by
  induction steps generalizing ws l with
  | nil => rfl
  | cons s rest ih =>
    have hpre : (l.note ws s).passed.Nodup :=
      hfair.sublist (passed_grows installation fuel rest _ _).sublist
    -- what this step passes on is in the ledger once, so not among the earlier ones
    refine (ih (hk.after_step fuel s) hfair).trans (hk.misuse_step fuel fun h hp hmem => ?_)
    rw [Ledger.note, hp, List.nodup_append] at hpre
    exact hpre.2.2 h hmem h (List.mem_singleton_self h) rfl

/-- The replies of a server do not change. -/
theorem Kept.replyTo_play (hk : Kept ws l) (fuel : Nat) (steps : List Step) (sql : String) :
    (play installation fuel steps ws).world.lib.replyTo sql = ws.world.lib.replyTo sql := by
  induction steps generalizing ws l with
  | nil => rfl
  | cons s rest ih =>
    have script := (hk.step_frame fuel s).script
    refine (ih (hk.after_step fuel s)).trans ?_
    rw [Server.State.replyTo, Server.State.replyTo, script]

/-! ## The end -/

/-- Ending all objects leaves the raw handles not yet passed on. -/
theorem dropAll_keeps {H : Holdings} (slots : Slots) (hs : slots.Sorted)
    (world : World Server.State) (ha : Accounts world (slots.total + H)) :
    let ended := (dropAll installation slots ⟨world, slots⟩).2
    Accounts ended.world H ∧ ended.slots = [] ∧
      ended.world.lib.misuse = world.lib.misuse := by
  -- each object is dropped with the later ones, and `H`, as the rest that is spared
  induction slots generalizing world with
  | nil => exact ⟨zero_add H ▸ ha, rfl, rfl⟩
  | cons e rest ih =>
    obtain ⟨name, o⟩ := e
    have hrest : Slots.Sorted rest := (List.pairwise_cons.mp hs).2
    have herase : Slots.erase ((name, o) :: rest) name = rest := Slots.erase_cons hs
    have htotal : Slots.total ((name, o) :: rest) = o.holdings + Slots.total rest := rfl
    rw [htotal, add_assoc] at ha
    obtain ⟨hend, hspares⟩ := o.keeps_drop world _ ha
    rw [zero_add] at hend
    have run : (dropAll installation ((name, o) :: rest) ⟨world, (name, o) :: rest⟩).2 =
        (dropAll installation rest ⟨(o.drop library world).2, rest⟩).2 := by
      show (dropAll installation rest
        ⟨(o.drop library world).2, Slots.erase ((name, o) :: rest) name⟩).2 = _
      rw [herase]
    obtain ⟨h₁, h₂, h₃⟩ := ih hrest _ hend
    rw [run]
    exact ⟨h₁, h₂, h₃.trans hspares.misuse⟩

/-- The accounts of a server without objects are in order as a program starts. -/
theorem kept_start {server : Server.State} (hobj : server.objects = []) :
    Kept (start server) ⟨[], []⟩ := by
  have hget (n : Nat) : (start server).world.lib.objects.get? n = none := by
    show server.objects.get? n = none
    rw [hobj]
    rfl
  refine ⟨List.Pairwise.nil, by simp [start, Slots.get?], ⟨?_, fun n _ => hget n, ?_, ?_, ?_, ?_,
    ?_⟩, by simp⟩
  · show (server.objects.map (·.1)).Nodup
    rw [hobj]
    exact List.nodup_nil
  · intro h
    rw [Server.State.holds, hget]
    rfl
  · intro h
    rw [Server.State.connected, hget]
    simp [start, World.start, World.line]
  · intro id id' h hl
    simp [start, World.start, World.line] at hl
  · exact fun id => rfl
  · intro id hl
    simp [start, World.start, World.line] at hl

/-- **Each handle has one owner.** On one server, after any steps of which none passes
on a raw handle that was passed on before: nothing was misused; the handles that
live, connections left out, are those of the objects in their slots and the raw
handles not yet passed on, each once; and when all objects have ended, by steps or
at the end, just those raw handles live, and no connection is open. -/
theorem handles_owned (replies : List (String × Server.Reply)) (connectFailure : Option Code)
    (rowCapacity : Int32) (fuel : Nat) (steps : List Step)
    (hpass : (ledger installation fuel steps
      (start (.scripted replies connectFailure rowCapacity)) ⟨[], []⟩).passed.Nodup) :
    let begin := start (.scripted replies connectFailure rowCapacity)
    let ws := play installation fuel steps begin
    let raw := (ledger installation fuel steps begin ⟨[], []⟩).outstanding
    let ended := (finish installation ws).2
    ws.world.lib.misuse = [] ∧
    (ws.world.lib.handles : Multiset Handle) = ws.slots.total.1 + raw ∧
    ws.world.lib.handles.Nodup ∧
    (ws.slots.total = 0 →
      ws.world.lib.live = raw.length ∧ ws.world.lib.openConnections = 0) ∧
    ended.slots = [] ∧ ended.world.lib.misuse = [] ∧
    ended.world.lib.live = raw.length ∧ ended.world.lib.openConnections = 0 := by
  intro begin ws raw ended
  obtain ⟨hobj, hmis⟩ := Server.State.scripted_fresh replies connectFailure rowCapacity
  have hk := (kept_start hobj).after_play fuel steps
  have hmisuse : ws.world.lib.misuse = [] :=
    ((kept_start hobj).misuse_play fuel steps hpass).trans hmis
  have left (w : World Server.State) (ha : Accounts w (ownsAll raw)) :
      w.lib.live = raw.length ∧ w.lib.openConnections = 0 := by
    refine ⟨?_, ha.openConnections_eq_zero rfl⟩
    rw [Server.State.live_eq, ← Multiset.coe_card, ha.handles_eq]
    rfl
  obtain ⟨hend, hslots, hcalm⟩ := dropAll_keeps ws.slots hk.sorted ws.world hk.accounts
  exact ⟨hmisuse, hk.accounts.handles_eq, hk.accounts.handles_nodup,
    fun hnone => left ws.world (zero_add (ownsAll raw) ▸ hnone ▸ hk.accounts),
    hslots, hcalm.trans hmisuse, left ended.world hend⟩

/-- A result gives up its handle, which is then released, while a batch copied from it
and a second result are still held. -/
theorem handles_owned_raw_released :
    let begin := start (.scripted [("q", .cursor [[[.bool true]]])] none 8192)
    let steps : List Step := [.procedure 1 "p", .ask "p" (.execute "q" [] .dict "r"),
      .ask "r" (.row "b"), .ask "r" (.intoRaw "h"), .ask "h" (.release .cursor true),
      .ask "p" (.execute "q" [] .dict "s")]
    (ledger installation 9 steps begin ⟨[], []⟩).passed = [⟨1⟩] ∧
      (play installation 9 steps begin).world.lib.misuse = [] ∧
      (finish installation (play installation 9 steps begin)).2.world.lib.live = 0 := by
  refine ⟨rfl, ?_⟩
  have owned := handles_owned [("q", .cursor [[[.bool true]]])] none 8192 9
    [.procedure 1 "p", .ask "p" (.execute "q" [] .dict "r"), .ask "r" (.row "b"),
      .ask "r" (.intoRaw "h"), .ask "h" (.release .cursor true),
      .ask "p" (.execute "q" [] .dict "s")] (List.nodup_singleton _)
  exact ⟨owned.1, owned.2.2.2.2.2.2.1⟩

end Querent.Workspace
