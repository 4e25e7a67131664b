import Querent.Proofs.Workspace.Closing
import Querent.Proofs.Workspace.Stakes

/-!
# Shared connections

Any number of objects share a connection, and it may be closed through some of them at
any moment. Over every library it is closed once, when that is first asked or else when
the last of the objects ends, by then with all of its results released.
-/

namespace Querent.Workspace

variable {σ : Type}

/-! ## What is done to sessions on purpose -/

/-- The session that is asked to be closed. -/
def closing (ws : Workspace σ) : Step → Option SessionId
  | .ask slot .close => (ws.slots.get? slot).bind Object.closes?
  | _ => none

/-- The handle that a result of a session gives up. -/
def surrender (ws : Workspace σ) : Step → Option (SessionId × Handle)
  | .ask slot (.intoRaw _) =>
    match ws.slots.get? slot with
    | some (.result r) => r.session.map fun id => (id, r.handle)
    | _ => none
  | _ => none

/-- The past after a step. -/
def after (p : Past) (ws : Workspace σ) (s : Step) : Past :=
  { p with
    closed := p.closed ++ (closing ws s).toList
    given := p.given ++ (surrender ws s).toList }

theorem after_of_none {p : Past} {ws : Workspace σ} {s : Step} (hc : closing ws s = none)
    (hg : surrender ws s = none) : after p ws s = p := by
  simp [after, hc, hg]

section Past

variable (I : Installation σ) (fuel : Nat)

/-- The past after a run. -/
def past : List Step → Workspace σ → Past → Past
  | [], _, p => p
  | s :: rest, ws, p => past rest (step I fuel s ws).2 (after p ws s)

theorem past_calls (steps : List Step) (ws : Workspace σ) (p : Past) :
    (past I fuel steps ws p).calls = p.calls := by
  induction steps generalizing ws p with
  | nil => rfl
  | cons s rest ih => exact ih _ _

/-- The drop of an object. -/
def dropping (name : String) : Step := .ask name .drop

/-- Drops go unnoted. -/
theorem past_dropping (names : List String) (ws : Workspace σ) (p : Past) :
    past I fuel (names.map dropping) ws p = p := by
  induction names generalizing ws with
  | nil => rfl
  | cons name rest ih =>
    have same : after p ws (dropping name) = p := after_of_none rfl rfl
    rw [List.map_cons, past, same]
    exact ih _

end Past

variable {p : Past} {I : Installation σ} {ws : Workspace (σ × List Call)} {name : String}
  {o : Object}

/-! ## One step -/

/-- An object that can be asked to close has a stake in the session. -/
theorem Object.closes_stakes {id : SessionId} (h : o.closes? = some id) :
    0 < sharesOf id o.stakes := by
  cases o with
  | connection c | dbConnection c =>
    obtain rfl := Option.some.inj h
    exact sharesOf_pos.mpr ⟨none, Multiset.mem_singleton_self _⟩
  | result | batch | cursor | dbCursor | procedure | rowBuilder | raw => cases h

/-- A close, through whatever object, closes the session. -/
theorem askObject_close {τ : Type} {I : Installation τ} {id : SessionId} (fuel : Nat)
    (name : String) (ws : Workspace τ) (h : o.closes? = some id) :
    ∃ told : Except Error Unit → Answer, told (.ok ()) = .done ∧
      askObject I fuel name o .close ws = (told (Session.close I.library id ws.world).1,
        ⟨(Session.close I.library id ws.world).2, ws.slots⟩) := by
  cases o with
  | connection c =>
    obtain rfl := Option.some.inj h
    exact ⟨answer fun _ => .done, rfl, rfl⟩
  | dbConnection c =>
    obtain rfl := Option.some.inj h
    exact ⟨fun x => answerDb (fun _ => .done) (x.mapError .failure), rfl, rfl⟩
  | result | batch | cursor | dbCursor | procedure | rowBuilder | raw => cases h

theorem step_ask {τ : Type} {I : Installation τ} {ws : Workspace τ} (fuel : Nat)
    (hget : ws.slots.get? name = some o) (q : Question) :
    step I fuel (.ask name q) ws = askObject I fuel name o q ws := by
  rw [step, bind_apply, find?_apply, hget]

namespace Booked

variable (fuel : Nat)

/-- A question that neither closes a session nor makes a result give up its handle. -/
theorem askObject (h : Booked p 0 ws) (hget : ws.slots.get? name = some o) {q : Question}
    (hc : q = .close → o.closes? = none) (hg : ∀ into r, q = .intoRaw into → o ≠ .result r) :
    Booked p 0 (Workspace.askObject I.recorded fuel name o q ws).2 := by
  by_cases hq : q = .drop
  · subst hq
    exact ((h.take hget).run o.enters_drop).conv (zero_add 0).symm
  · rw [askObject_of_ne name o hq]
    cases o with
    | connection c => exact askConnection_booked fuel h hget fun hq => by cases hc hq
    | result r => exact askResult_booked h hget fun into hq => hg into r hq rfl
    | batch b => exact askBatch_booked h q
    | cursor c => exact askCursor_booked fuel h hget q
    | dbConnection c => exact askDbConnection_booked fuel h hget fun hq => by cases hc hq
    | dbCursor c => exact askDbCursor_booked fuel h hget q
    | procedure => exact askProcedure_booked h q
    | rowBuilder b => exact askRowBuilder_booked h hget q
    | raw i => exact askRaw_booked h hget q

/-- An object is asked to close. -/
theorem close {id : SessionId} (h : Booked p 0 ws) (hget : ws.slots.get? name = some o)
    (hcloses : o.closes? = some id) :
    Booked (p.close id) 0 (Workspace.askObject I.recorded fuel name o .close ws).2 := by
  obtain ⟨told, -, run⟩ := askObject_close (I := I.recorded) fuel name ws hcloses
  have held : 0 < sharesOf id (0 + ws.slots.stakes) := by
    rw [Slots.stakes_erase h.sorted hget, zero_add, sharesOf_add]
    exact Nat.lt_of_lt_of_le (Object.closes_stakes hcloses) (Nat.le_add_right _ _)
  rw [run]
  exact ⟨h.sorted, h.register.close held⟩

/-- A result is asked to give up its handle. -/
theorem intoRaw {r : QueryResult} (h : Booked p 0 ws)
    (hget : ws.slots.get? name = some (.result r)) (into : String) :
    Booked (r.given p) 0 (askResult I.recorded name r (.intoRaw into) ws).2 := by
  have taken := h.take hget
  have left : Booked (r.given p) 0
      (Workspace.run (r.intoRaw I.library.recorded) (forget name ws).2).2 := by
    refine ⟨taken.sorted, ?_⟩
    rw [zero_add]
    exact r.enter_intoRaw (add_zero r.stakes ▸ taken.register)
  exact (left.conv (zero_add 0)).store (o := .raw _) into

/-- **What a question does to the register.** A close and a handle that is given up go
down in the past. -/
theorem ask (h : Booked p 0 ws) (hget : ws.slots.get? name = some o) (q : Question) :
    Booked (after p ws (.ask name q)) 0
      (Workspace.askObject I.recorded fuel name o q ws).2 := by
  have plain (hc : closing ws (.ask name q) = none)
      (hg : surrender ws (.ask name q) = none)
      (hraw : ∀ into r, q = .intoRaw into → o ≠ .result r) :
      Booked (after p ws (.ask name q)) 0
        (Workspace.askObject I.recorded fuel name o q ws).2 := by
    rw [after_of_none hc hg]
    refine h.askObject fuel hget ?_ hraw
    rintro rfl
    simpa [closing, hget] using hc
  cases q with
  | close =>
    cases hcloses : o.closes? with
    | none => exact plain (by simp [closing, hget, hcloses]) rfl (by simp)
    | some id =>
      have noted : after p ws (.ask name .close) = p.close id := by
        simp [after, closing, surrender, hget, hcloses, Past.close]
      rw [noted]
      exact h.close fuel hget hcloses
  | intoRaw into =>
    cases o with
    | result r =>
      have noted : after p ws (.ask name (.intoRaw into)) = r.given p := by
        unfold QueryResult.given
        cases hs : r.session <;> simp [after, closing, surrender, hget, hs, Past.give]
      rw [noted]
      exact h.intoRaw hget into
    | _ => exact plain rfl (by simp [surrender, hget]) (by simp)
  | _ => exact plain rfl rfl (by simp)

/-- **What one step does to the register.** -/
theorem step (h : Booked p 0 ws) (s : Step) :
    Booked (after p ws s) 0 (Workspace.step I.recorded fuel s ws).2 := by
  have ready : Booked p (0 + 0) ws := h.conv (zero_add 0)
  cases s with
  | connect config into =>
    rw [after_of_none rfl rfl, Workspace.step]
    split
    · refine Booked.answer (ifOk Connection.stakes) (ready.run (Connection.enters_connect config))
        fun made ws' connected => ?_
      cases made with
      | error e => exact connected.conv (zero_add 0).symm
      | ok c => exact (connected.store (o := .connection c) into).quiet c.quiet_peer
    · exact h
  | dbConnect config into =>
    rw [after_of_none rfl rfl, Workspace.step]
    split
    · exact Booked.storeNewDb into (ready.run (DbApi.Connection.enters_connect config)) fun _ => rfl
    · exact h
  | dbConnectDefault config =>
    rw [after_of_none rfl rfl]
    exact h
  | procedure db into =>
    rw [after_of_none rfl rfl, Workspace.step]
    cases Procedure.ofDatabase db with
    | error e => exact h
    | ok procedure =>
      dsimp only
      split
      · exact ready.store (o := .procedure procedure) into
      · exact h
  | load =>
    rw [after_of_none rfl rfl]
    exact h
  | explain code =>
    rw [after_of_none rfl rfl, Workspace.step]
    split
    · exact h.quiet (Connection.quiet_explain code)
    · exact h
  | ask name q =>
    rw [Workspace.step, bind_apply, find?_apply]
    cases hget : ws.slots.get? name with
    | some o => exact h.ask fuel hget q
    | none =>
      rw [after_of_none]
      · exact h
      · cases q <;> simp [closing, hget]
      · cases q <;> simp [surrender, hget]

/-- **What a run does to the register.** -/
theorem play (h : Booked p 0 ws) (steps : List Step) :
    Booked (past I.recorded fuel steps ws p) 0 (Workspace.play I.recorded fuel steps ws) := by
  induction steps generalizing ws p with
  | nil => exact h
  | cons s rest ih => exact ih (h.step fuel s)

/-- What was on record stays on record. -/
theorem log_play (h : Booked p 0 ws) (steps : List Step) :
    ws.world.log <+: (Workspace.play I.recorded fuel steps ws).world.log := by
  have now : Booked { p with calls := ws.world.log } 0 ws := ⟨h.sorted, h.register.remember⟩
  have kept := (now.play (I := I) fuel steps).register.kept
  rw [past_calls] at kept
  exact kept

/-- A program that has not connected yet. -/
theorem start (lib : σ) : Booked ⟨[], [], []⟩ 0 (Workspace.start (lib, [])) :=
  ⟨List.Pairwise.nil, .initial lib⟩

end Booked

/-! ## The end -/

/-- To end all objects is to drop them one after the other, and leaves none. -/
theorem dropAll_eq_play {τ : Type} (I : Installation τ) (fuel : Nat) (slots : Slots)
    (hs : slots.Sorted) (world : World τ) :
    (dropAll I slots ⟨world, slots⟩).2 =
        play I fuel ((slots.map (·.1)).map dropping) ⟨world, slots⟩ ∧
      (dropAll I slots ⟨world, slots⟩).2.slots = [] := by
  induction slots generalizing world with
  | nil => exact ⟨rfl, rfl⟩
  | cons e rest ih =>
    obtain ⟨name, o⟩ := e
    have here : Slots.get? ((name, o) :: rest) name = some o := by rw [Slots.get?_cons, if_pos rfl]
    have erased : Slots.erase ((name, o) :: rest) name = rest := Slots.erase_cons hs
    have dropped : (step I fuel (dropping name) ⟨world, (name, o) :: rest⟩).2 =
        ⟨(o.drop I.library world).2, rest⟩ := by
      rw [dropping, step_ask fuel here]
      exact congrArg (Workspace.mk _) erased
    have run : (dropAll I ((name, o) :: rest) ⟨world, (name, o) :: rest⟩).2 =
        (dropAll I rest ⟨(o.drop I.library world).2, rest⟩).2 := by
      show (dropAll I rest
        ⟨(o.drop I.library world).2, Slots.erase ((name, o) :: rest) name⟩).2 = _
      rw [erased]
    rw [run, List.map_cons, List.map_cons, play, dropped]
    exact ih (List.pairwise_cons.mp hs).2 _

/-- The register at the end. -/
theorem Booked.finish (h : Booked p 0 ws) (fuel : Nat) :
    Booked p 0 (Workspace.finish I.recorded ws).2 ∧
      ws.world.log <+: (Workspace.finish I.recorded ws).2.world.log ∧
      (Workspace.finish I.recorded ws).2.slots = [] := by
  obtain ⟨run, slots⟩ := dropAll_eq_play I.recorded fuel ws.slots h.sorted ws.world
  have ended := h.play (I := I) fuel ((ws.slots.map (·.1)).map dropping)
  have grown := h.log_play (I := I) fuel ((ws.slots.map (·.1)).map dropping)
  rw [past_dropping, ← run] at ended
  rw [← run] at grown
  exact ⟨ended, grown, slots⟩

/-! ## What the log tells -/

/-- Some object has a stake in the session. -/
def Shared (id : SessionId) (ws : Workspace σ) : Prop :=
  ∃ e ∈ ws.slots, 0 < sharesOf id e.2.stakes

theorem shared_iff (id : SessionId) (ws : Workspace σ) :
    Shared id ws ↔ 0 < sharesOf id ws.slots.stakes := by
  unfold Shared
  induction ws.slots with
  | nil => simp [Slots.stakes, sharesOf]
  | cons e s ih =>
    have split : Slots.stakes (e :: s) = e.2.stakes + Slots.stakes s := rfl
    rw [split, sharesOf_add, List.exists_mem_cons_iff, ih]
    omega

/-- What the log tells of a connection, by who shares the session and what was asked. -/
theorem Booked.told (h : Booked p 0 ws) {id : SessionId} {con : Handle}
    (hs : Sole id con ws.world.log) :
    (id ∉ p.closed → Shared id ws → endings con ws.world.log = []) ∧
    (id ∈ p.closed ∨ ¬Shared id ws → Ended con ws.world.log) ∧
    (id ∉ p.closed → ¬Shared id ws → ReleasedFirst id con p.given ws.world.log) := by
  have shares := h.register.shares id
  rw [zero_add] at shares
  rw [shared_iff, shares]
  cases h.register.standing id con hs with
  | running line untouched owed =>
    have unasked : id ∉ p.closed := by
      intro hc
      have closed := (h.register.shut id hc).2
      exact absurd (line.symm.trans closed) (by simp)
    have held : 0 < ws.world.holders id := h.register.held id (by rw [line]; rfl)
    exact ⟨fun _ _ => untouched, fun hx => absurd hx (by simp [unasked, held]),
      fun _ hx => absurd held hx⟩
  | closed line asked ended =>
    exact ⟨fun hx => absurd asked hx, fun _ => ended, fun hx => absurd asked hx⟩
  | lapsed line alone ended first =>
    exact ⟨fun _ hx => absurd alone (Nat.ne_of_gt hx), fun _ => ended, fun _ _ => first⟩

/-- A session that was closed can be asked to close again, and nothing is done. -/
theorem Booked.close_again (h : Booked p 0 ws) (fuel : Nat) {id : SessionId}
    (hc : id ∈ p.closed) (hget : ws.slots.get? name = some o) (hcloses : o.closes? = some id) :
    Workspace.step I.recorded fuel (.ask name .close) ws = (.done, ws) := by
  obtain ⟨told, done, run⟩ := askObject_close (I := I.recorded) fuel name ws hcloses
  rw [step_ask fuel hget, run, close_of_none _ (h.register.shut id hc).2, done]

/-- **A shared connection is closed once.** Over every library, whatever is done with the
objects that share a connection which was given out once: while one of them is left and
none was asked to close, nothing is done to end the connection. From the first close that
is asked, or when the last of them has ended, it has been closed once, and freed once if
that failed. If no close was asked, the results that were obtained over it had been
released by then, or given up. Another close that is asked succeeds and does nothing. So
it is in the end, when all objects have ended. -/
theorem closed_once (I : Installation σ) (lib : σ) (fuel : Nat) (before rest : List Step)
    (id : SessionId) (con : Handle)
    (hsole : Sole id con (finish I.recorded
      (play I.recorded fuel (before ++ rest) (start (lib, [])))).2.world.log) :
    let begin := start (lib, [])
    let now := play I.recorded fuel before begin
    let p := past I.recorded fuel before begin ⟨[], [], []⟩
    let ended := (finish I.recorded (play I.recorded fuel (before ++ rest) begin)).2
    let q := past I.recorded fuel (before ++ rest) begin ⟨[], [], []⟩
    (now.world.sessions.length ≤ id → endings con now.world.log = []) ∧
    (id < now.world.sessions.length →
      (id ∉ p.closed → Shared id now → endings con now.world.log = []) ∧
      (id ∈ p.closed ∨ ¬Shared id now → Ended con now.world.log) ∧
      (id ∉ p.closed → ¬Shared id now → ReleasedFirst id con p.given now.world.log)) ∧
    (id ∈ p.closed → ∀ name o, now.slots.get? name = some o → o.closes? = some id →
      step I.recorded fuel (.ask name .close) now = (.done, now)) ∧
    ended.slots = [] ∧ Ended con ended.world.log ∧
    (id ∉ q.closed → ReleasedFirst id con q.given ended.world.log) := by
  intro begin now p ended q
  have hnow : Booked p 0 now := (Booked.start lib).play fuel before
  have hlater : Booked q 0 (play I.recorded fuel (before ++ rest) begin) :=
    (Booked.start lib).play fuel (before ++ rest)
  obtain ⟨hended, hfinish, hslots⟩ := hlater.finish (I := I) fuel
  have grown : now.world.log <+: ended.world.log := by
    have later := hnow.log_play (I := I) fuel rest
    rw [← play_append] at later
    exact later.trans hfinish
  have alone : ¬Shared id ended := by
    rintro ⟨e, he, -⟩
    rw [show ended.slots = [] from hslots] at he
    cases he
  have born := hnow.register.born
  obtain ⟨-, once, first⟩ := hended.told hsole
  refine ⟨fun hle => ?_, fun hlt => ?_, fun hc name o hget hcloses => ?_, hslots,
    once (Or.inr alone), fun hq => first hq alone⟩
  · exact (hnow.register.strange con (hsole.not_mem grown (born ▸ hle))).1
  · exact hnow.told (hsole.of_prefix grown (born ▸ hlt))
  · exact hnow.close_again fuel hc hget hcloses

/-- Where each close fails, a result outlasts the connection that it was asked through, the
connection of the DB-API that lent that one, and a clone of it. -/
theorem closed_once_by_last :
    let client := { Server.library.client with close := fun _ => pure Code.Client.noConnection }
    let I := { Server.installation with library := { Server.library with client } }
    let begin := start (Server.State.scripted [("q", .status)] none 8192, [])
    let before : List Step := [.dbConnect {} "a", .ask "a" (.cloneInner "c"),
      .ask "a" (.cloneDb "d"), .ask "c" (.execute "q" [] .dict "r"), dropping "a", dropping "c",
      dropping "d"]
    let now := play I.recorded 9 before begin
    let ended := (finish I.recorded (play I.recorded 9 (before ++ [dropping "r"]) begin)).2
    Shared 0 now ∧ endings ⟨1⟩ now.world.log = [] ∧
      (endings ⟨1⟩ ended.world.log).length = 2 ∧ Ended ⟨1⟩ ended.world.log ∧
      ReleasedFirst 0 ⟨1⟩ [] ended.world.log := by
  intro client I begin before now ended
  obtain ⟨-, meanwhile, -, -, once, first⟩ := closed_once I
    (Server.State.scripted [("q", .status)] none 8192) 9 before [dropping "r"] 0 ⟨1⟩
    (Sole.only (by decide +kernel))
  have shared : Shared 0 now := (shared_iff 0 now).mpr (by decide +kernel)
  have untouched : endings ⟨1⟩ now.world.log = [] :=
    (meanwhile (by decide +kernel)).1 (by decide +kernel) shared
  have given : (past I.recorded 9 (before ++ [dropping "r"]) begin ⟨[], [], []⟩).given = [] := by
    decide +kernel
  simp only [begin] at given
  rw [given] at first
  simp only [ended, begin]
  exact ⟨shared, untouched, by decide +kernel, once, first (by decide +kernel)⟩

end Querent.Workspace
