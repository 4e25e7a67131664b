import Mathlib.Data.List.Infix
import Querent.Proofs.Server.Execution
import Querent.Proofs.Workspace.Ownership
import Querent.Proofs.Workspace.Standing

/-!
# Results do not disturb each other

All results of a server share one table of handles. Still, what a program learns from
one result it learns from nothing but that result: the steps on all other objects
may come in any order in between.
-/

namespace Querent.Workspace

open Server (Accounts Frame Holdings ownsAll Item Rows Reading Reply State Stands Talks Executor
  installation library)

/-! ## What is learnt from one result -/

/-- A question without the name for what it makes. -/
def Question.unnamed : Question → Question
  | .row _ => .row ""
  | .intoCursor _ => .intoCursor ""
  | .intoRaw _ => .intoRaw ""
  | q => q

/-- A question, its answer, and the rows of the batch that was copied for it. -/
structure Exchange where
  question : Question
  answer : Answer
  copied : Option Rows

/-- What a step asks of the result or the batch under the handle `h`. -/
def concerning (h : Handle) (ws : Workspace State) : Step → Option Question
  | .ask slot q => if (ws.slots.get? slot).bind Object.subject? = some h then some q else none
  | _ => none

/-- The rows of a batch that was copied by a question, as it is now in its slot. -/
def copied (ws : Workspace State) : Question → Answer → Option Rows
  | .row into, .done =>
    match ws.slots.get? into with
    | some (.batch b) =>
      match ws.world.lib.objects.get? b.handle.number with
      | some (.batch rows _) => some rows
      | _ => none
    | _ => none
  | _, _ => none

variable (fuel : Nat)

/-- All that is asked of the result or the batch under the handle `h` in a run, in
order. -/
def exchanges (h : Handle) : List Step → Workspace State → List Exchange
  | [], _ => []
  | s :: rest, ws =>
    let (a, ws') := step installation fuel s ws
    match concerning h ws s with
    | some q => ⟨q.unnamed, a, copied ws' q a⟩ :: exchanges h rest ws'
    | none => exchanges h rest ws'

/-- The session stays open in the course of a run. -/
def StaysOpen (id : Option SessionId) (steps : List Step) (ws : Workspace State) : Prop :=
  ∀ done, done <+: steps → ∀ i, id = some i →
    ((play installation fuel done ws).world.line i).isSome

/-- What is asked of an object that stands like this, without a server. -/
def Standing.exchanges : Standing → List Question → List Exchange
  | _, [] => []
  | st, q :: qs => ⟨q, (st.ask fuel q).answer, (st.ask fuel q).copied⟩ ::
      exchanges (st.ask fuel q).left qs

variable {fuel}

/-- The name does not matter. -/
theorem Standing.ask_unnamed (st : Standing) (q : Question) :
    st.ask fuel q.unnamed = st.ask fuel q := by
  cases q with
  | row | intoCursor | intoRaw => cases st <;> rfl
  | _ => rfl

theorem Standing.ask_of_ne (st : Standing) {q : Question} (hq : q ≠ .drop) :
    st.ask fuel q = match st with
      | .result i => resultReaction i q
      | .cursor rd => cursorReaction fuel rd q
      | .batch rows pos => batchReaction rows pos q
      | .gone => ⟨.noSlot, none, .gone⟩ := by
  cases q with
  | drop => exact absurd rfl hq
  | _ => cases st <;> rfl

/-! ## The place of a result among the others -/

variable {ws ws' : Workspace State} {l l' : Ledger} {h : Handle} {id : Option SessionId}
  {st : Standing} {name : String} {o : Object} {s : Step}

/-- No object has the handle, and none will: it was given up, or nothing lives under
it any more. -/
def Gone (ws : Workspace State) (l : Ledger) (h : Handle) : Prop :=
  h ∈ l.given ∨ h.number ≤ ws.world.lib.last ∧ ws.world.lib.holds h = false

/-- A result stands like this, under whatever name, or it is gone. -/
def Tracked (ws : Workspace State) (l : Ledger) (h : Handle) (id : Option SessionId)
    (st : Standing) : Prop :=
  (∃ name, Seen ws name h id st) ∨ Gone ws l h

namespace Kept

/-- One object has the handle, under one name. -/
theorem sole (hk : Kept ws l) (hget : ws.slots.get? name = some o) (hh : h ∈ o.holdings.1)
    {name' : String} {o' : Object} (hget' : ws.slots.get? name' = some o')
    (hh' : h ∈ o'.holdings.1) : name' = name := by
  by_contra hne
  have hnodup : ws.slots.total.1.Nodup := (Multiset.nodup_add.mp hk.accounts.nodup).1
  rw [Slots.total_erase hk.sorted hget, Prod.fst_add, Multiset.nodup_add] at hnodup
  have hrest : (ws.slots.erase name).get? name' = some o' :=
    (Slots.get?_erase_of_ne hne).trans hget'
  have other := Slots.mem_total (hk.sorted.erase name) hrest hh'
  exact Multiset.disjoint_left.mp hnodup.2.2 hh other

/-- Nothing that is gone is in a slot. -/
theorem absent (hk : Kept ws l) (hg : Gone ws l h) (hget : ws.slots.get? name = some o) :
    h ∉ o.holdings.1 := by
  intro hh
  have hheld := hk.held hget hh
  rcases hg with hgiven | ⟨-, hdead⟩
  · -- it would be held twice, by the object and as a raw handle
    have hp := hk.not_passed_of_held hheld
    have out : h ∈ (ownsAll l.outstanding).1 :=
      Multiset.mem_coe.mpr (by simp [Ledger.outstanding, hgiven, hp])
    have hnodup := hk.accounts.nodup
    rw [Prod.fst_add, Multiset.nodup_add] at hnodup
    exact Multiset.disjoint_left.mp hnodup.2.2 (Slots.mem_total hk.sorted hget hh) out
  · have holds := hk.accounts.holds_of_mem hheld
    rw [hdead] at holds
    exact absurd holds (by simp)

theorem not_concerning (hk : Kept ws l) (hg : Gone ws l h) (s : Step) :
    concerning h ws s = none := by
  cases s with
  | ask slot q =>
    refine if_neg fun hsub => ?_
    obtain ⟨o, hget, ho⟩ := Option.bind_eq_some_iff.mp hsub
    exact hk.absent hg hget (Object.subject_mem ho)
  | connect | dbConnect | dbConnectDefault | procedure | load | explain => rfl

end Kept

theorem Gone.after_step (hg : Gone ws l h) (hk : Kept ws l) (fuel : Nat) (s : Step) :
    Gone (step installation fuel s ws).2 (l.note ws s) h := by
  rcases hg with hgiven | ⟨hle, hdead⟩
  · exact Or.inl (List.mem_append_left _ hgiven)
  · have frame := hk.step_frame fuel s
    exact Or.inr ⟨hle.trans frame.last, frame.gone h hle hdead⟩

/-- An object that was left as it was stands as before, and one that has ended is
gone. -/
theorem Tracked.of_untouched {before : World State} (hk' : Kept ws' l')
    (hsub : o.subject? = some h) (hfits : o.Fits before st)
    (hu : Untouched before ws'.world ws'.slots name o) :
    Tracked ws' l' h o.session? st := by
  rcases hu with ⟨hget, hitems⟩ | hgone
  · -- what an object shows depends on the items under its handles only
    exact Or.inl ⟨name, o, hget, hsub, rfl, hfits.of_items hk'.accounts.bounded hitems⟩
  · exact Or.inr (Or.inr (hgone h (Object.subject_mem hsub)))

/-! ## One step -/

/-- **A step that does not concern a result** leaves it as it was, or ends it. -/
theorem Tracked.other_step (ht : Tracked ws l h id st) (hk : Kept ws l) (fuel : Nat)
    (hs : concerning h ws s = none) :
    Tracked (step installation fuel s ws).2 (l.note ws s) h id st := by
  rcases ht with ⟨name, o, hget, hsub, rfl, hfits⟩ | hg
  · have hasked : asked s ≠ some name := by
      intro heq
      cases s with
      | ask slot q =>
        obtain rfl : slot = name := Option.some.inj heq
        have hsub' : (ws.slots.get? slot).bind Object.subject? = some h := by
          rw [hget]
          exact hsub
        exact absurd hs (by simp [concerning, hsub'])
      | connect | dbConnect | dbConnectDefault | procedure | load | explain =>
        exact absurd heq (by simp [asked])
    exact Tracked.of_untouched (hk.after_step fuel s) hsub hfits
      (hk.step_others fuel s hasked hget)
  · exact Or.inr (hg.after_step hk fuel s)

theorem step_ask_eq (hget : ws.slots.get? name = some o) (fuel : Nat) (q : Question) :
    step installation fuel (.ask name q) ws = askObject installation fuel name o q ws := by
  rw [step, bind_apply, find?_apply, hget]

theorem copied_eq_none {q : Question} (hq : ∀ into, q ≠ .row into) (a : Answer) :
    copied ws q a = none := by
  cases q with
  | row into => exact absurd rfl (hq into)
  | _ => rfl

/-- A question has the answer that is told without a server, and the object stands
afterwards as is told, or it is gone. -/
structure Reacts (l : Ledger) (h : Handle) (id : Option SessionId) (q : Question)
    (out : Answer × Workspace State) (re : Reaction) : Prop where
  answer : out.1 = re.answer
  copied : copied out.2 q out.1 = re.copied
  left : Tracked out.2 l h id re.left

theorem drop_reacts (hk : Kept ws l) (hget : ws.slots.get? name = some o)
    (hsub : o.subject? = some h) (id : Option SessionId) :
    Reacts (l.note ws (.ask name .drop)) h id .drop
      (step installation fuel (.ask name .drop) ws) ⟨.done, none, .gone⟩ := by
  have run : step installation fuel (.ask name .drop) ws =
      (.done, ⟨(o.drop library ws.world).2, ws.slots.erase name⟩) := step_ask_eq hget fuel .drop
  have ha := ((hk.stage_at_zero (s := .ask name .drop) rfl).lend hget rfl).1.accounts
  rw [add_zero] at ha
  obtain ⟨hend, hspares⟩ := o.keeps_drop ws.world _ ha
  rw [zero_add] at hend
  have hh := Object.subject_mem hsub
  have hle : h.number ≤ (o.drop library ws.world).2.lib.last :=
    (ha.le_last (Multiset.mem_add.mpr (Or.inl hh))).trans hspares.last
  rw [run]
  exact ⟨rfl, rfl, Or.inr (Or.inr ⟨hle, ha.ended hend hh⟩)⟩

section Results

variable {r r' : QueryResult} {i : Item} {rows : Rows} {into : String} {b : Batch}
  {world : World State}

/-- What has become of a copied batch that is stored: it is in its slot and as it was,
and the result that it was copied from is as it was, or has ended. -/
structure Stored (world : World State) (name : String) (r : QueryResult) (into : String)
    (b : Batch) (out : Answer × Workspace State) : Prop where
  answer : out.1 = .done
  there : out.2.slots.get? into = some (.batch b)
  item : out.2.world.lib.objects.get? b.handle.number = world.lib.objects.get? b.handle.number
  others : Untouched world out.2.world out.2.slots name (.result r)

theorem step_row_eq (hget : ws.slots.get? name = some (.result r)) (fuel : Nat)
    (into : String) : step installation fuel (.ask name (.row into)) ws =
      storeNew installation into .batch (r.row library ws.world).1.1
        ⟨(r.row library ws.world).2, ws.slots.set name (.result (r.row library ws.world).1.2)⟩ :=
  step_ask_eq hget fuel (.row into)

theorem row_stored (fuel : Nat) (hk : Kept ws l) (hget : ws.slots.get? name = some (.result r))
    (hrow : r.row library ws.world = ((.ok b, r'), world)) (into : String) :
    Stored world name r' into b (step installation fuel (.ask name (.row into)) ws) := by
  let mid : Workspace State := ⟨world, ws.slots.set name (.result r')⟩
  have run : step installation fuel (.ask name (.row into)) ws =
      (.done, (store installation into (.batch b) mid).2) := by
    rw [step_row_eq hget, hrow]
    rfl
  obtain ⟨hat, hl⟩ := (hk.stage_at_zero (s := .ask name (.row into)) rfl).lend hget rfl
  have made := hat.run r.keeps_row
  rw [hrow, add_comm (Server.ifMade _ _), add_assoc] at made
  have hmid := made.put (p := .result r') hl trivial
  rw [run]
  refine ⟨rfl, Stage.At.store_there into _ _ _, ?_, ?_⟩
  · exact hmid.store_kept (o := .batch b) into (Multiset.mem_singleton_self b.handle)
  · exact hmid.store_others (o := .batch b) into trivial Slots.get?_set_self

theorem Stored.copied_eq {out : Answer × Workspace State} {pos : Nat}
    (hst : Stored world name r into b out)
    (hitem : world.lib.objects.get? b.handle.number = some (.batch rows pos)) :
    copied out.2 (.row into) .done = some rows := by
  simp only [copied, hst.there, hst.item, hitem]

/-- A copy of rows is on its own from then on. -/
theorem row_copies (hk : Kept ws l) (hget : ws.slots.get? name = some (.result r))
    (hs : Stands ws.world r i) (hcopy : i.copy = .ok rows) (into : String) :
    Reacts (l.note ws (.ask name (.row into))) r.handle r.session (.row into)
      (step installation fuel (.ask name (.row into)) ws) ⟨.done, some rows, .result i⟩ := by
  have row := hs.row_eq
  rw [hcopy] at row
  have hst := row_stored fuel hk hget row into
  have fresh := (hs.copying_get? rows (ws.world.lib.last + 1)).trans (if_pos rfl)
  have hk' := hk.after_step fuel (.ask name (.row into))
  have fits : (Object.result (r.learned i)).Fits (Server.copying ws.world rows) (.result i) :=
    hs.learned.copied rows
  have left := Tracked.of_untouched hk' rfl fits hst.others
  refine ⟨hst.answer, ?_, left⟩
  rw [hst.answer]
  exact hst.copied_eq fresh

/-- Where there are no rows to copy, an error is the answer. -/
theorem row_fails (hget : ws.slots.get? name = some (.result r)) (hs : Stands ws.world r i)
    {e : Error} (hcopy : i.copy = .error e) (into : String) :
    Reacts l r.handle r.session (.row into) (step installation fuel (.ask name (.row into)) ws)
      ⟨.error e, none, .result i⟩ := by
  have row := hs.row_eq
  rw [hcopy] at row
  have run : step installation fuel (.ask name (.row into)) ws =
      (.error e, ⟨ws.world, ws.slots.set name (.result (r.learned i))⟩) := by
    rw [step_row_eq hget, row]
    rfl
  rw [run]
  exact ⟨rfl, rfl, Or.inl
    ⟨name, .result (r.learned i), Slots.get?_set_self, rfl, rfl, hs.learned⟩⟩

/-- A cursor takes over a result as it is. -/
theorem intoCursor_reacts (hk : Kept ws l) (hget : ws.slots.get? name = some (.result r))
    (hs : Stands ws.world r i) (into : String) :
    Reacts (l.note ws (.ask name (.intoCursor into))) r.handle r.session (.intoCursor into)
      (step installation fuel (.ask name (.intoCursor into)) ws)
      ⟨.done, none, .cursor (.ofItem i)⟩ := by
  let c : Cursor := .ofResult r
  let mid : Workspace State := ⟨ws.world, ws.slots.erase name⟩
  have run : step installation fuel (.ask name (.intoCursor into)) ws =
      (.done, (store installation into (.cursor c) mid).2) := step_ask_eq hget fuel _
  obtain ⟨hat, -⟩ := (hk.stage_at_zero (s := .ask name (.intoCursor into)) rfl).lend hget rfl
  have hmid : (stage ws l (.ask name (.intoCursor into))).At
      ((Object.cursor c).holdings + 0) mid.world mid.slots :=
    hat.conv (congrArg (· + 0) (Cursor.holdings_of_none rfl))
  have stored : (store installation into (.cursor c) mid).2.slots.get? into =
      some (.cursor c) := Stage.At.store_there into _ _ _
  have fits : (Object.cursor c).Fits ws.world (.cursor (.ofItem i)) := ⟨hs, trivial, rfl, rfl⟩
  have hk' := hk.after_step fuel (.ask name (.intoCursor into))
  rw [run] at hk' ⊢
  have fits' := fits.of_items hk'.accounts.bounded fun h hh => hmid.store_kept into hh
  exact ⟨rfl, rfl, Or.inl ⟨into, .cursor c, stored, rfl, rfl, fits'⟩⟩

theorem intoRaw_reacts (hget : ws.slots.get? name = some (.result r)) (into : String) :
    Reacts (l.note ws (.ask name (.intoRaw into))) r.handle r.session (.intoRaw into)
      (step installation fuel (.ask name (.intoRaw into)) ws) ⟨.done, none, .gone⟩ := by
  have given : r.handle ∈ (l.note ws (.ask name (.intoRaw into))).given := by
    refine List.mem_append_right _ ?_
    rw [givenUp, hget]
    exact List.mem_singleton_self _
  have run : (step installation fuel (.ask name (.intoRaw into)) ws).1 = .done := by
    rw [step_ask_eq hget]
    rfl
  exact ⟨run, rfl, Or.inr (Or.inl given)⟩

theorem result_reacts (hk : Kept ws l) (hget : ws.slots.get? name = some (.result r))
    (hs : Stands ws.world r i) (ht : Talks ws.world r) {q : Question} (hq : q ≠ .drop) :
    Reacts (l.note ws (.ask name q)) r.handle r.session q
      (step installation fuel (.ask name q) ws) (resultReaction i q) := by
  by_cases hrow : ∃ into, q = .row into
  · obtain ⟨into, rfl⟩ := hrow
    unfold resultReaction
    cases hcopy : i.copy with
    | ok rows => exact row_copies hk hget hs hcopy into
    | error e => exact row_fails hget hs hcopy into
  by_cases hcursor : ∃ into, q = .intoCursor into
  · obtain ⟨into, rfl⟩ := hcursor
    exact intoCursor_reacts hk hget hs into
  by_cases hraw : ∃ into, q = .intoRaw into
  · obtain ⟨into, rfl⟩ := hraw
    exact intoRaw_reacts hget into
  · have hrow : ∀ into, q ≠ .row into := fun into heq => hrow ⟨into, heq⟩
    obtain ⟨answers, seen⟩ := askResult_reacts hget hs ht hrow
      (fun into heq => hcursor ⟨into, heq⟩) fun into heq => hraw ⟨into, heq⟩
    have nothing : (resultReaction i q).copied = none := by
      cases q with
      | row into => exact absurd rfl (hrow into)
      | _ => rfl
    rw [step_ask_eq hget, askObject_of_ne name _ hq]
    exact ⟨answers, (copied_eq_none hrow _).trans nothing.symm, Or.inl ⟨name, seen⟩⟩

end Results

/-- Batches and cursors have nothing copied. -/
theorem Reacts.of_seen {q : Question} {out : Answer × Workspace State} {re : Reaction}
    (answers : out.1 = re.answer) (seen : Seen out.2 name h id re.left)
    (hnone : re.copied = none) (hrow : ∀ into, q = .row into → re.answer = .noStep) :
    Reacts l h id q out re := by
  refine ⟨answers, ?_, Or.inl ⟨name, seen⟩⟩
  rw [answers, hnone]
  by_cases hq : ∃ into, q = .row into
  · obtain ⟨into, rfl⟩ := hq
    rw [hrow into rfl]
    rfl
  · exact copied_eq_none (fun into heq => hq ⟨into, heq⟩) _

/-- **A step that concerns a result.** Its answer is told without the server. -/
theorem own_step (fuel : Nat) (hk : Kept ws l) (hget : ws.slots.get? name = some o)
    (hsub : o.subject? = some h) (hfits : o.Fits ws.world st)
    (hopen : ∀ i, o.session? = some i → (ws.world.line i).isSome) (q : Question) :
    Reacts (l.note ws (.ask name q)) h o.session? q
      (step installation fuel (.ask name q) ws) (st.ask fuel q) := by
  by_cases hq : q = .drop
  · subst hq
    exact drop_reacts hk hget hsub o.session?
  rw [st.ask_of_ne hq]
  cases o with
  | result r =>
    obtain rfl := Option.some.inj hsub
    cases st with
    | result i => exact result_reacts hk hget hfits hopen hq
    | cursor | batch | gone => exact hfits.elim
  | cursor c =>
    obtain rfl := Option.some.inj hsub
    cases st with
    | cursor rd =>
      obtain ⟨answers, seen⟩ := askCursor_reacts fuel hget hfits hopen q
      rw [step_ask_eq hget, askObject_of_ne name _ hq]
      refine Reacts.of_seen answers seen ?_ ?_
      · cases q <;> rfl
      · rintro into rfl
        rfl
    | result | batch | gone => exact hfits.elim
  | batch b =>
    obtain rfl := Option.some.inj hsub
    cases st with
    | batch rows pos =>
      obtain ⟨answers, seen⟩ := askBatch_reacts hget hfits q
      rw [step_ask_eq hget, askObject_of_ne name _ hq]
      refine Reacts.of_seen answers seen ?_ ?_
      · cases q <;> rfl
      · rintro into rfl
        rfl
    | result | cursor | gone => exact hfits.elim
  | connection | dbConnection | dbCursor | procedure | rowBuilder | raw => exact hfits.elim

/-! ## Runs -/

theorem StaysOpen.now {steps : List Step} (hopen : StaysOpen fuel id steps ws) {i : SessionId}
    (hi : id = some i) : (ws.world.line i).isSome :=
  hopen [] List.nil_prefix i hi

theorem StaysOpen.next {rest : List Step} (hopen : StaysOpen fuel id (s :: rest) ws) :
    StaysOpen fuel id rest (step installation fuel s ws).2 := by
  intro done hdone i hi
  exact hopen (s :: done) (List.cons_prefix_cons.mpr ⟨rfl, hdone⟩) i hi

theorem exchanges_other {rest : List Step} (hs : concerning h ws s = none) :
    exchanges fuel h (s :: rest) ws =
      exchanges fuel h rest (step installation fuel s ws).2 := by
  simp only [exchanges, hs]
  rfl

theorem exchanges_own {rest : List Step} {q : Question} (hs : concerning h ws s = some q) :
    exchanges fuel h (s :: rest) ws =
      ⟨q.unnamed, (step installation fuel s ws).1,
        copied (step installation fuel s ws).2 q (step installation fuel s ws).1⟩ ::
      exchanges fuel h rest (step installation fuel s ws).2 := by
  simp only [exchanges, hs]
  rfl

/-- **A run.** All that is learnt from a result is what its standing tells. -/
theorem Tracked.exchanges_eq (ht : Tracked ws l h id st) (hk : Kept ws l) (steps : List Step)
    (hopen : StaysOpen fuel id steps ws) :
    exchanges fuel h steps ws =
      st.exchanges fuel ((exchanges fuel h steps ws).map (·.question)) := by
  -- on the steps: a step of its own changes the standing, the others do not
  induction steps generalizing ws l st with
  | nil => rfl
  | cons s rest ih =>
    have hk' := hk.after_step fuel s
    cases hs : concerning h ws s with
    | none =>
      have same := ih (ht.other_step hk fuel hs) hk' hopen.next
      rw [exchanges_other hs]
      exact same
    | some q =>
      rcases ht with ⟨name, o, hget, hsub, rfl, hfits⟩ | hg
      · obtain rfl : s = .ask name q := by
          cases s with
          | ask slot q' =>
            have hif : (if (ws.slots.get? slot).bind Object.subject? = some h then some q'
              else none) = some q := hs
            by_cases hslot : (ws.slots.get? slot).bind Object.subject? = some h
            · rw [if_pos hslot] at hif
              obtain rfl := Option.some.inj hif
              obtain ⟨o', hget', hsub'⟩ := Option.bind_eq_some_iff.mp hslot
              rw [hk.sole hget (Object.subject_mem hsub) hget' (Object.subject_mem hsub')]
            · rw [if_neg hslot] at hif
              exact absurd hif (by simp)
          | connect | dbConnect | dbConnectDefault | procedure | load | explain =>
            exact absurd hs (by simp [concerning])
        have own := own_step fuel hk hget hsub hfits (fun i hi => hopen.now hi) q
        have later := ih own.left hk' hopen.next
        rw [exchanges_own hs, own.copied, own.answer, List.map_cons, Standing.exchanges,
          Standing.ask_unnamed]
        exact congrArg _ later
      · rw [hk.not_concerning hg s] at hs
        exact absurd hs (by simp)

/-! ## How results and batches begin -/

/-- The object that an executor is. -/
def Object.ofExecutor : Executor → Object
  | .connection c => .connection c
  | .procedure p => .procedure p

theorem keeps_execute (x : Executor) (sql : String) :
    Server.Keeps (x.execute sql) (Object.ofExecutor x).holdings
      fun made => Server.ifMade QueryResult.holdings made + (Object.ofExecutor x).holdings := by
  cases x with
  | connection c => exact c.keeps_execute sql
  | procedure p => exact (p.keeps_execute sql).conv rfl fun _ => add_zero _

/-- A result that was obtained stands as its reply says. -/
theorem executed_seen {x : Executor} {sql : String} {params : List Value}
    {format : DbApi.RowFormat} {into : String} (hk : Kept ws l)
    (hget : ws.slots.get? name = some (.ofExecutor x))
    (hdone : (step installation fuel (.ask name (.execute sql params format into)) ws).1 = .done) :
    ∃ r i, (ws.world.lib.replyTo sql).item = .ok i ∧
      (step installation fuel (.ask name (.execute sql params format into)) ws).2.slots.get? into =
        some (.result r) ∧
      Seen (step installation fuel (.ask name (.execute sql params format into)) ws).2 into
        r.handle r.session (.result i) := by
  have run : step installation fuel (.ask name (.execute sql params format into)) ws =
      storeNew installation into .result (x.execute sql ws.world).1
        ⟨(x.execute sql ws.world).2, ws.slots⟩ := by
    rw [step_ask_eq hget]
    cases x <;> rfl
  obtain ⟨hat, hl⟩ :=
    (hk.stage_at_zero (s := .ask name (.execute sql params format into)) rfl).lend hget rfl
  have made := hat.make hl (keeps_execute x sql)
  have hk' := hk.after_step fuel (.ask name (.execute sql params format into))
  rw [run] at hdone hk' ⊢
  rcases hx : x.execute sql ws.world with ⟨e | r, world⟩
  · rw [hx] at hdone
    cases hdone
  · obtain ⟨i, hitem, obtained⟩ := x.obtained hk.accounts hx
    rw [hx] at made hk'
    have stored : (storeNew installation into .result (.ok r) ⟨world, ws.slots⟩).2.slots.get?
        into = some (.result r) := Stage.At.store_there into _ _ _
    have fits : (Object.result r).Fits world (.result i) := obtained.stands
    have fits' := fits.of_items hk'.accounts.bounded fun h hh =>
      made.store_kept (o := .result r) into hh
    exact ⟨r, i, hitem, stored, .result r, stored, rfl, rfl, fits'⟩

/-- A batch that was copied is at the first of its rows. -/
theorem copied_seen {r : QueryResult} {into : String} (hk : Kept ws l)
    (hget : ws.slots.get? name = some (.result r))
    (hdone : (step installation fuel (.ask name (.row into)) ws).1 = .done) :
    ∃ b rows,
      (step installation fuel (.ask name (.row into)) ws).2.slots.get? into = some (.batch b) ∧
      copied (step installation fuel (.ask name (.row into)) ws).2 (.row into) .done =
        some rows ∧
      Seen (step installation fuel (.ask name (.row into)) ws).2 into b.handle none
        (.batch rows 0) := by
  have live : r.handle ∈ (ws.slots.total + ownsAll l.outstanding).1 :=
    hk.held hget (Object.subject_mem (o := .result r) rfl)
  obtain ⟨i, hitem, -⟩ := (ws.world.lib.holds_iff r.handle).mp (hk.accounts.holds_of_mem live)
  have gives (b : Batch) := QueryResult.row_gives_batch (b := b) hitem hk.accounts.fresh
  rcases hrow : r.row library ws.world with ⟨⟨e | b, r'⟩, world⟩
  · have run : (step installation fuel (.ask name (.row into)) ws).1 = .error e := by
      rw [step_row_eq hget, hrow]
      rfl
    rw [run] at hdone
    exact absurd hdone (by simp)
  · rw [hrow] at gives
    obtain ⟨rows, hrows⟩ := gives b rfl
    have hst := row_stored fuel hk hget hrow into
    exact ⟨b, rows, hst.there, hst.copied_eq hrows, .batch b, hst.there, rfl, rfl,
      hst.item.trans hrows⟩

/-- What is asked of the result of a reply, without a server. -/
def ofReply (fuel : Nat) (reply : Reply) (qs : List Question) : List Exchange :=
  match reply.item with
  | .ok i => Standing.exchanges fuel (.result i) qs
  | .error _ => []

theorem ofReply_eq (fuel : Nat) {reply : Reply} {i : Item} (h : reply.item = .ok i)
    (qs : List Question) : ofReply fuel reply qs = Standing.exchanges fuel (.result i) qs := by
  rw [ofReply, h]

/-- **Results are isolated from each other.** Whatever a program has done on its server
before, and whatever else it does in between: while the session of a result stays open,
all that is learnt from the result is one function of the reply that it was made from
and of the questions asked of it, or of the cursor that took it over. So two runs that
ask a result the same learn the same, in one of which it may be alone. And all that is
learnt from a batch is one function of the rows that were copied and of the questions
asked of the batch, even when its result has gone on or has ended. -/
theorem results_isolated (fuel : Nat) :
    ∃ (ofReply : Reply → List Question → List Exchange)
      (ofRows : Rows → List Question → List Exchange),
    ∀ (replies : List (String × Reply)) (connectFailure : Option Code) (rowCapacity : Int32)
      (before : List Step),
    let server := State.scripted replies connectFailure rowCapacity
    let ws := play installation fuel before (start server)
    (∀ slot x sql params format into, ws.slots.get? slot = some (Object.ofExecutor x) →
      let out := step installation fuel (.ask slot (.execute sql params format into)) ws
      out.1 = .done → ∃ r, out.2.slots.get? into = some (.result r) ∧
        ∀ steps, StaysOpen fuel r.session steps out.2 →
          let seen := exchanges fuel r.handle steps out.2
          seen = ofReply (server.replyTo sql) (seen.map (·.question))) ∧
    (∀ slot r into, ws.slots.get? slot = some (.result r) →
      let out := step installation fuel (.ask slot (.row into)) ws
      out.1 = .done → ∃ b rows, out.2.slots.get? into = some (.batch b) ∧
        copied out.2 (.row into) .done = some rows ∧
        ∀ steps,
          let seen := exchanges fuel b.handle steps out.2
          seen = ofRows rows (seen.map (·.question))) := by
  refine ⟨ofReply fuel, fun rows qs => Standing.exchanges fuel (.batch rows 0) qs, ?_⟩
  intro replies connectFailure rowCapacity before server ws
  obtain ⟨hobj, -⟩ := Server.State.scripted_fresh replies connectFailure rowCapacity
  have hk := (kept_start hobj).after_play fuel before
  constructor
  · intro slot x sql params format into hget out hdone
    obtain ⟨r, i, hitem, stored, seen⟩ := executed_seen hk hget hdone
    have reply : ws.world.lib.replyTo sql = server.replyTo sql :=
      (kept_start hobj).replyTo_play fuel before sql
    have hk' := hk.after_step fuel (.ask slot (.execute sql params format into))
    refine ⟨r, stored, fun steps hopen => ?_⟩
    intro told
    rw [ofReply_eq fuel (reply ▸ hitem)]
    exact Tracked.exchanges_eq (Or.inl ⟨into, seen⟩) hk' steps hopen
  · intro slot r into hget out hdone
    obtain ⟨b, rows, stored, hcopied, seen⟩ := copied_seen hk hget hdone
    have hk' := hk.after_step fuel (.ask slot (.row into))
    refine ⟨b, rows, stored, hcopied, fun steps => ?_⟩
    refine Tracked.exchanges_eq (Or.inl ⟨into, seen⟩) hk' steps ?_
    -- a batch has no session, so nothing has to stay open
    intro done _ i hi
    exact absurd hi (by simp)

/-- A result that is used alone, and one among others over a connection, tell the same
when they are asked the same; and so do the batches that are copied from them, of
which one has outlived its result. -/
theorem results_isolated_interleaved :
    let replies : List (String × Reply) :=
      [("q", .cursor [[[.bool true]], [[.bool false]]]), ("s", .row [.null])]
    let alone := play installation 9 [.procedure 1 "p", .ask "p" (.execute "q" [] .dict "r")]
      (start (.scripted replies none 8192))
    let among := play installation 9 [.connect {} "k", .ask "k" (.execute "s" [] .dict "x"),
      .ask "k" (.execute "q" [] .dict "y")] (start (.scripted replies none 8192))
    let steps : List Step := [.ask "k" (.execute "q" [] .dict "z"), .ask "y" .fetch,
      .ask "z" (.intoCursor "d"), .ask "y" (.intoCursor "c"), .ask "d" .next, .ask "x" .drop,
      .ask "c" .next]
    exchanges 9 ⟨1⟩ [.ask "r" .fetch, .ask "r" (.intoCursor "c"), .ask "c" .next] alone =
      exchanges 9 ⟨3⟩ steps among ∧
    exchanges 9 ⟨2⟩ [.ask "b" .toRow] (step installation 9 (.ask "r" (.row "b")) alone).2 =
      exchanges 9 ⟨4⟩ [.ask "y" .fetch, .ask "y" .drop, .ask "b" .toRow]
        (step installation 9 (.ask "y" (.row "b")) among).2 := by
  intro replies alone among steps
  obtain ⟨ofReply, ofRows, told⟩ := results_isolated 9
  constructor
  · obtain ⟨r, hr, one⟩ := (told replies none 8192 [.procedure 1 "p"]).1 "p"
      (.procedure ⟨⟨1⟩⟩) "q" [] .dict "r" rfl rfl
    obtain ⟨y, hy, other⟩ := (told replies none 8192 [.connect {} "k",
      .ask "k" (.execute "s" [] .dict "x")]).1 "k" (.connection ⟨0⟩) "q" [] .dict "y" rfl rfl
    obtain rfl : ⟨⟨1⟩, none, none⟩ = r := Object.result.inj (Option.some.inj hr)
    obtain rfl : ⟨⟨3⟩, none, some 0⟩ = y := Object.result.inj (Option.some.inj hy)
    have stays : ∀ done ∈ steps.inits,
        ((play installation 9 done among).world.line 0).isSome := by decide +kernel
    have first := one [.ask "r" .fetch, .ask "r" (.intoCursor "c"), .ask "c" .next]
      fun _ _ i hi => absurd hi (by simp)
    have second := other steps fun done hdone i hi => by
      obtain rfl : 0 = i := Option.some.inj hi
      exact stays done ((List.mem_inits done steps).mpr hdone)
    have same : (exchanges 9 ⟨1⟩ [.ask "r" .fetch, .ask "r" (.intoCursor "c"), .ask "c" .next]
        alone).map (·.question) = (exchanges 9 ⟨3⟩ steps among).map (·.question) := by
      decide +kernel
    exact first.trans ((congrArg (ofReply _) same).trans second.symm)
  · obtain ⟨b, rows, hb, hrows, one⟩ := (told replies none 8192 [.procedure 1 "p",
      .ask "p" (.execute "q" [] .dict "r")]).2 "r" ⟨⟨1⟩, none, none⟩ "b" rfl rfl
    obtain ⟨b', rows', hb', hrows', other⟩ := (told replies none 8192 [.connect {} "k",
      .ask "k" (.execute "s" [] .dict "x"), .ask "k" (.execute "q" [] .dict "y")]).2 "y"
      ⟨⟨3⟩, none, some 0⟩ "b" (by decide +kernel) (by decide +kernel)
    let copy := (step installation 9 (.ask "r" (.row "b")) alone).2
    let copy' := (step installation 9 (.ask "y" (.row "b")) among).2
    have there : copy.slots.get? "b" = some (.batch ⟨⟨2⟩⟩) := by decide +kernel
    have there' : copy'.slots.get? "b" = some (.batch ⟨⟨4⟩⟩) := by decide +kernel
    have taken : copied copy (.row "b") .done = some [[.bool true]] := by decide +kernel
    have taken' : copied copy' (.row "b") .done = some [[.bool true]] := by decide +kernel
    obtain rfl : ⟨⟨2⟩⟩ = b := Object.batch.inj (Option.some.inj (there.symm.trans hb))
    obtain rfl : ⟨⟨4⟩⟩ = b' := Object.batch.inj (Option.some.inj (there'.symm.trans hb'))
    obtain rfl : [[.bool true]] = rows := Option.some.inj (taken.symm.trans hrows)
    obtain rfl : [[.bool true]] = rows' := Option.some.inj (taken'.symm.trans hrows')
    have first := one [.ask "b" .toRow]
    have second := other [.ask "y" .fetch, .ask "y" .drop, .ask "b" .toRow]
    have same : (exchanges 9 ⟨2⟩ [.ask "b" .toRow]
        (step installation 9 (.ask "r" (.row "b")) alone).2).map (·.question) =
        (exchanges 9 ⟨4⟩ [.ask "y" .fetch, .ask "y" .drop, .ask "b" .toRow]
          (step installation 9 (.ask "y" (.row "b")) among).2).map (·.question) := by
      decide +kernel
    exact first.trans ((congrArg (ofRows _) same).trans second.symm)

end Querent.Workspace
