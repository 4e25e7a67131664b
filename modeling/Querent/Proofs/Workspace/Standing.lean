import Querent.Proofs.Server.Reading
import Querent.Proofs.Workspace.Holdings

/-!
# How a result stands

A program sees a result through the questions that it asks: of the result itself, of
the cursor that has taken it over, of a batch that was copied from it. How such an object
reacts to a question, and how it stands then, is told here without a server; it
is how the object in a slot reacts as long as what it holds is as it should be.
-/

namespace Querent.Workspace

open Server (Item Reading Rows State Stands Talks Shows installation library)

/-! ## Objects without a server -/

/-- How a program finds a result: as it is, taken over by a cursor, as a batch of copied
rows, or not any more. -/
inductive Standing where
  | result (i : Item)
  | cursor (rd : Reading)
  | batch (rows : Rows) (pos : Nat)
  | gone

/-- What came of a question: the answer, the rows of a batch that was copied, and how
the object stands then. -/
structure Reaction where
  answer : Answer
  copied : Option Rows
  left : Standing

/-- The rows of a row result that were ended. -/
def builtRows : Item → Rows
  | .built _ rows _ => rows
  | _ => []

def resultReaction (i : Item) : Question → Reaction
  | .info => ⟨.info i.info, none, .result i⟩
  | .check => ⟨answer (fun _ => .done) i.check, none, .result i⟩
  | .error => ⟨.error i.error, none, .result i⟩
  | .report => ⟨answer .report i.reported, none, .result i⟩
  | .openRows => ⟨answer .fetched i.opened, none, .result i⟩
  | .fetch => ⟨answer .fetched i.fetched, none, .result i.afterFetch⟩
  | .row _ =>
    match i.copy with
    | .ok rows => ⟨.done, some rows, .result i⟩
    | .error e => ⟨.error e, none, .result i⟩
  | .intoCursor _ => ⟨.done, none, .cursor (.ofItem i)⟩
  | .intoRaw _ => ⟨.done, none, .gone⟩
  | .builtRows => ⟨.rows (builtRows i), none, .result i⟩
  | _ => ⟨.noStep, none, .result i⟩

def batchReaction (rows : Rows) (pos : Nat) : Question → Reaction
  | .nextRow => ⟨.truth (decide (pos + 1 < rows.length)), none, .batch rows (pos + 1)⟩
  | .count => ⟨.number (Server.rowAt rows pos).length, none, .batch rows pos⟩
  | .field n => ⟨.value ((Server.rowAt rows pos)[n]?.getD .null), none, .batch rows pos⟩
  | .toRow => ⟨.row (Server.rowAt rows pos), none, .batch rows pos⟩
  | _ => ⟨.noStep, none, .batch rows pos⟩

def yielded : Yield → Answer
  | .row r => .row r
  | .error e => .error e
  | .finished => .finished

def collected : Option (List Row × Option Error) → Answer
  | some (rows, e) => .items rows e
  | none => .unfinished

variable (fuel : Nat)

def cursorReaction (rd : Reading) : Question → Reaction
  | .next => ⟨yielded rd.next.1, none, .cursor rd.next.2⟩
  | .all => ⟨collected (rd.collect fuel).1, none, .cursor (rd.collect fuel).2⟩
  | .status => ⟨.cursorStatus rd.rows (decide (rd.phase = .done)) rd.item.info, none, .cursor rd⟩
  | _ => ⟨.noStep, none, .cursor rd⟩

/-- How an object that stands like this reacts to a question. -/
def Standing.ask (st : Standing) (q : Question) : Reaction :=
  match q with
  | .drop => ⟨.done, none, .gone⟩
  | q =>
    match st with
    | .result i => resultReaction i q
    | .cursor rd => cursorReaction fuel rd q
    | .batch rows pos => batchReaction rows pos q
    | .gone => ⟨.noSlot, none, .gone⟩

/-! ## Objects in their slots -/

namespace Object

/-- The handle of the result or the batch that an object is about. -/
def subject? : Object → Option Handle
  | result r => some r.handle
  | cursor c => some c.result.handle
  | batch b => some b.handle
  | _ => none

/-- The session that a result has to talk to. -/
def session? : Object → Option SessionId
  | result r => r.session
  | cursor c => c.result.session
  | _ => none

/-- What the object holds in the world is as the standing says. -/
def Fits (w : World State) : Object → Standing → Prop
  | result r, .result i => Stands w r i
  | cursor c, .cursor rd => Shows w c rd
  | batch b, .batch rows pos =>
    w.lib.objects.get? b.handle.number = some (.batch rows pos)
  | _, _ => False

theorem subject_mem {o : Object} {h : Handle} (hsub : o.subject? = some h) :
    h ∈ o.holdings.1 := by
  have own (r : QueryResult) : r.handle ∈ r.holdings.1 :=
    Multiset.mem_add.mpr (Or.inl (Multiset.mem_singleton_self _))
  cases o with
  | result r =>
    obtain rfl := Option.some.inj hsub
    exact own r
  | cursor c =>
    obtain rfl := Option.some.inj hsub
    exact Multiset.mem_add.mpr (Or.inr (own c.result))
  | batch b =>
    obtain rfl := Option.some.inj hsub
    exact Multiset.mem_singleton_self _
  | connection | dbConnection | dbCursor | procedure | rowBuilder | raw =>
    exact absurd hsub (by simp [subject?])

/-- An object stands as before where all that it holds is as before. -/
theorem Fits.of_items {o : Object} {w w' : World State} {st : Standing} (hfits : o.Fits w st)
    (hbound : ∀ n, w'.lib.last < n → w'.lib.objects.get? n = none)
    (hitems : ∀ h ∈ o.holdings.1, w'.lib.objects.get? h.number = w.lib.objects.get? h.number) :
    o.Fits w' st := by
  cases o with
  | result r =>
    cases st with
    | result i =>
      have hs : Stands w r i := hfits
      have there := hitems r.handle (subject_mem (o := .result r) rfl)
      exact ⟨hbound, there.trans hs.there, hs.plain, hs.known⟩
    | cursor | batch | gone => exact hfits.elim
  | cursor c =>
    cases st with
    | cursor rd =>
      have hs : Shows w c rd := hfits
      have there := hitems c.result.handle (subject_mem (o := .cursor c) rfl)
      refine ⟨⟨hbound, there.trans hs.stands.there, hs.stands.plain, hs.stands.known⟩, ?_,
        hs.phase, hs.rows⟩
      cases hb : c.batch with
      | none =>
        rw [hs.batch_none hb]
        trivial
      | some b =>
        obtain ⟨rows, pos, hrd, hget, hne⟩ := hs.batch_some hb
        have held : b.handle ∈ (Object.cursor c).holdings.1 := by
          refine Multiset.mem_add.mpr (Or.inl ?_)
          rw [hb]
          exact Multiset.mem_singleton_self _
        rw [hrd]
        exact ⟨(hitems b.handle held).trans hget, hne⟩
    | result | batch | gone => exact hfits.elim
  | batch b =>
    cases st with
    | batch rows pos => exact (hitems b.handle (Multiset.mem_singleton_self _)).trans hfits
    | result | cursor | gone => exact hfits.elim
  | connection | dbConnection | dbCursor | procedure | rowBuilder | raw => exact hfits.elim

end Object

/-- The object under a name is about the handle `h`, talks to the session `id`, and stands
like this. -/
def Seen (ws : Workspace State) (name : String) (h : Handle) (id : Option SessionId)
    (st : Standing) : Prop :=
  ∃ o, ws.slots.get? name = some o ∧ o.subject? = some h ∧ o.session? = id ∧
    o.Fits ws.world st

/-! ## Questions that store nothing -/

variable {world world' : World State} {slots : Slots} {name : String}

/-- An answer that leaves the slots as they are. -/
theorem asking_eq {β : Type} {act : Action State β} {b : β} (h : act world = (b, world'))
    (f : β → Answer) : (Workspace.run act >>= fun b => pure (f b) : Act State Answer)
      ⟨world, slots⟩ = (f b, ⟨world', slots⟩) := by
  show (f (act world).1, (⟨(act world).2, slots⟩ : Workspace State)) = _
  rw [h]

/-- An answer of an object that is written back. -/
theorem changing_eq {β γ : Type} {act : Action State (β × γ)} {b : β} {c : γ}
    (h : act world = ((b, c), world')) (f : β → Answer) (mk : γ → Object) :
    (Workspace.run act >>= fun x => put name (mk x.2) >>= fun _ => pure (f x.1) :
      Act State Answer) ⟨world, slots⟩ = (f b, ⟨world', slots.set name (mk c)⟩) := by
  show (f (act world).1.1,
    (⟨(act world).2, slots.set name (mk (act world).1.2)⟩ : Workspace State)) = _
  rw [h]

theorem askResult_reacts {r : QueryResult} {i : Item}
    (hget : slots.get? name = some (.result r)) (hs : Stands world r i) (ht : Talks world r)
    {q : Question} (hrow : ∀ into, q ≠ .row into) (hcursor : ∀ into, q ≠ .intoCursor into)
    (hraw : ∀ into, q ≠ .intoRaw into) :
    let out := askResult installation name r q ⟨world, slots⟩
    out.1 = (resultReaction i q).answer ∧
      Seen out.2 name r.handle r.session (resultReaction i q).left := by
  have same : Seen ⟨world, slots⟩ name r.handle r.session (.result i) :=
    ⟨.result r, hget, rfl, rfl, hs⟩
  have changed {w : World State} {i' : Item} (hs' : Stands w (r.learned i) i') :
      Seen ⟨w, slots.set name (.result (r.learned i))⟩ name r.handle r.session (.result i') :=
    ⟨.result (r.learned i), Slots.get?_set_self, rfl, rfl, hs'⟩
  cases q with
  | info =>
    have run : askResult installation name r .info ⟨world, slots⟩ =
        (.info i.info, ⟨world, slots.set name (.result (r.learned i))⟩) :=
      changing_eq hs.info_eq .info .result
    rw [run]
    exact ⟨rfl, changed hs.learned⟩
  | check =>
    have run : askResult installation name r .check ⟨world, slots⟩ =
        (answer (fun _ => .done) i.check, ⟨world, slots⟩) := asking_eq hs.check_eq _
    rw [run]
    exact ⟨rfl, same⟩
  | error =>
    have run : askResult installation name r .error ⟨world, slots⟩ =
        (.error i.error, ⟨world, slots⟩) := asking_eq hs.error_eq _
    rw [run]
    exact ⟨rfl, same⟩
  | report =>
    have run : askResult installation name r .report ⟨world, slots⟩ =
        (answer .report i.reported, ⟨world, slots.set name (.result (r.learned i))⟩) :=
      changing_eq hs.report_eq (answer .report) .result
    rw [run]
    exact ⟨rfl, changed hs.learned⟩
  | openRows =>
    have run : askResult installation name r .openRows ⟨world, slots⟩ =
        (answer .fetched i.opened, ⟨world, slots.set name (.result (r.learned i))⟩) :=
      changing_eq (hs.openRows_eq ht) (answer .fetched) .result
    rw [run]
    exact ⟨rfl, changed hs.learned⟩
  | fetch =>
    have run : askResult installation name r .fetch ⟨world, slots⟩ =
        (answer .fetched i.fetched, ⟨Server.refetched world r.handle i,
          slots.set name (.result (r.learned i))⟩) :=
      changing_eq (hs.fetch_eq ht) (answer .fetched) .result
    rw [run]
    exact ⟨rfl, changed hs.learned.refetched⟩
  | builtRows =>
    have look : (call (fun s => (s.builtRows r.handle, s)) : Action State Rows) world =
        (builtRows i, world) := by
      rw [call_apply, State.builtRows, hs.there]
      cases i <;> rfl
    have run : askResult installation name r .builtRows ⟨world, slots⟩ =
        (.rows (builtRows i), ⟨world, slots⟩) := asking_eq look _
    rw [run]
    exact ⟨rfl, same⟩
  | row into => exact absurd rfl (hrow into)
  | intoCursor into => exact absurd rfl (hcursor into)
  | intoRaw into => exact absurd rfl (hraw into)
  | _ => exact ⟨rfl, same⟩

theorem askBatch_reacts {b : Batch} {rows : Rows} {pos : Nat}
    (hslot : slots.get? name = some (.batch b))
    (hget : world.lib.objects.get? b.handle.number = some (.batch rows pos)) (q : Question) :
    let out := askBatch installation b q ⟨world, slots⟩
    out.1 = (batchReaction rows pos q).answer ∧
      Seen out.2 name b.handle none (batchReaction rows pos q).left := by
  have seen {w : World State} {p : Nat}
      (h : w.lib.objects.get? b.handle.number = some (.batch rows p)) :
      Seen ⟨w, slots⟩ name b.handle none (.batch rows p) := ⟨.batch b, hslot, rfl, rfl, h⟩
  cases q with
  | nextRow =>
    have run : askBatch installation b .nextRow ⟨world, slots⟩ =
        (.truth (decide (pos + 1 < rows.length)),
          ⟨Server.turned world b.handle rows (pos + 1), slots⟩) :=
      asking_eq (Server.batch_next_eq hget) _
    rw [run]
    exact ⟨rfl, seen ((Server.turned_get? hget _ _).trans (if_pos rfl))⟩
  | count =>
    have run : askBatch installation b .count ⟨world, slots⟩ =
        (.number (Server.rowAt rows pos).length, ⟨world, slots⟩) :=
      asking_eq (Server.batch_count_eq hget) fun n : Nat => .number n
    rw [run]
    exact ⟨rfl, seen hget⟩
  | field n =>
    have run : askBatch installation b (.field n) ⟨world, slots⟩ =
        (.value ((Server.rowAt rows pos)[n]?.getD .null), ⟨world, slots⟩) :=
      asking_eq (Server.batch_field_eq hget n) _
    rw [run]
    exact ⟨rfl, seen hget⟩
  | toRow =>
    have run : askBatch installation b .toRow ⟨world, slots⟩ =
        (.row (Server.rowAt rows pos), ⟨world, slots⟩) :=
      asking_eq (Server.batch_row_eq hget) _
    rw [run]
    exact ⟨rfl, seen hget⟩
  | _ => exact ⟨rfl, seen hget⟩

theorem askCursor_reacts {c : Cursor} {rd : Reading}
    (hslot : slots.get? name = some (.cursor c)) (hs : Shows world c rd)
    (ht : Talks world c.result) (q : Question) :
    let out := askCursor installation fuel name c q ⟨world, slots⟩
    out.1 = (cursorReaction fuel rd q).answer ∧
      Seen out.2 name c.result.handle c.result.session (cursorReaction fuel rd q).left := by
  have changed {w : World State} {c' : Cursor} {rd' : Reading}
      (h : Server.Becomes world c rd w c' rd') :
      Seen ⟨w, slots.set name (.cursor c')⟩ name c.result.handle c.result.session
        (.cursor rd') :=
    ⟨.cursor c', Slots.get?_set_self, congrArg some h.same.1, h.same.2, h.shows⟩
  cases q with
  | next =>
    obtain ⟨yields, became⟩ := hs.next ht
    have run : askCursor installation fuel name c .next ⟨world, slots⟩ =
        (yielded (c.next library world).1.1, ⟨(c.next library world).2,
          slots.set name (.cursor (c.next library world).1.2)⟩) := rfl
    rw [run]
    exact ⟨congrArg yielded yields, changed became⟩
  | all =>
    obtain ⟨yields, became⟩ := hs.collect fuel ht
    have run : askCursor installation fuel name c .all ⟨world, slots⟩ =
        (collected (c.collect library fuel world).1.1, ⟨(c.collect library fuel world).2,
          slots.set name (.cursor (c.collect library fuel world).1.2)⟩) := rfl
    rw [run]
    exact ⟨congrArg collected yields, changed became⟩
  | status =>
    have run : askCursor installation fuel name c .status ⟨world, slots⟩ =
        (.cursorStatus c.rows c.isDone rd.item.info, ⟨world,
          slots.set name (.cursor { c with result := c.result.learned rd.item })⟩) :=
      changing_eq hs.stands.info_eq (.cursorStatus c.rows c.isDone)
        fun result => .cursor { c with result }
    have told : Answer.cursorStatus c.rows c.isDone rd.item.info =
        .cursorStatus rd.rows (decide (rd.phase = .done)) rd.item.info := by
      rw [Cursor.isDone, hs.rows, hs.phase]
    rw [run]
    exact ⟨told, changed hs.learned⟩
  | _ => exact ⟨rfl, .cursor c, hslot, rfl, rfl, hs⟩

end Querent.Workspace
