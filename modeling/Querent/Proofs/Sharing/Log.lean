import Querent.Proofs.Result.Along
import Querent.Proofs.Result.Discipline
import Querent.Proofs.Sessions

/-!
# Connections on record

What a log says of one connection: that it was given out, how it ended, which results
statements gave over it. Most calls say nothing of any connection; whatever is asked of
results, batches and cursors is made of such calls, up to the end of a result.
-/

namespace Querent

namespace Call

/-- The connection that a connect call gave out. -/
def dialled? : Call → Option Handle
  | connect _ (.ok con) => some con
  | _ => none

/-- The call closes the connection, or frees it. -/
def ends (con : Handle) : Call → Bool
  | close h _ | destroy h => h = con
  | _ => false

/-- The result that a statement gave over the connection. -/
def resultOf? (con : Handle) : Call → Option Handle
  | execute c _ (.ok h) => if c = con then some h else none
  | _ => none

/-- The call gives out no connection, ends none, and gives no result of one. -/
def Plain (c : Call) : Prop :=
  c.dialled? = none ∧ ∀ con, c.ends con = false ∧ c.resultOf? con = none

/-- The call asks a result or its rows for something, but not for a batch. -/
def Inquiry : Call → Prop
  | kind _ | isOk _ | code _ | details _ | report _ | atEnd _ | release .. | copyBatch ..
  | copyRow .. | nextRow _ | fieldCount _ | field .. => True
  | _ => False

theorem Inquiry.plain {c : Call} (h : c.Inquiry) : c.Plain := by
  cases c with
  | openCursor | fetch | explain | connect | close | destroy | execute => exact h.elim
  | _ => exact ⟨rfl, fun _ => ⟨rfl, rfl⟩⟩

/-- A call that failed gives nothing. -/
theorem plain_failed (code : Code) :
    (∀ request, (connect request (.error code)).Plain) ∧
      ∀ con statement, (execute con statement (.error code)).Plain :=
  ⟨fun _ => ⟨rfl, fun _ => ⟨rfl, rfl⟩⟩, fun _ _ => ⟨rfl, fun _ => ⟨rfl, rfl⟩⟩⟩

end Call

section Reading

variable (con : Handle) (log calls : List Call)

/-- The connections that were given out, in order. -/
def dialled : List Handle := log.filterMap Call.dialled?

/-- The calls that closed or freed a connection. -/
def endings : List Call := log.filter (Call.ends con)

/-- The results that statements gave over a connection. -/
def resultsOf : List Handle := log.filterMap (Call.resultOf? con)

@[simp] theorem dialled_append : dialled (log ++ calls) = dialled log ++ dialled calls :=
  List.filterMap_append

@[simp] theorem endings_append :
    endings con (log ++ calls) = endings con log ++ endings con calls :=
  List.filter_append ..

@[simp] theorem resultsOf_append :
    resultsOf con (log ++ calls) = resultsOf con log ++ resultsOf con calls :=
  List.filterMap_append

@[simp] theorem released_append : released (log ++ calls) = released log ++ released calls :=
  List.filterMap_append

variable {calls} (hp : ∀ c ∈ calls, c.Plain)

include hp

theorem dialled_plain : dialled calls = [] :=
  List.filterMap_eq_nil_iff.mpr fun c hc => (hp c hc).1

theorem endings_plain : endings con calls = [] :=
  List.filter_eq_nil_iff.mpr fun c hc => by simp [((hp c hc).2 con).1]

theorem resultsOf_plain : resultsOf con calls = [] :=
  List.filterMap_eq_nil_iff.mpr fun c hc => ((hp c hc).2 con).2

end Reading

/-- The session `id` is the only one whose connect call gave out `con`. -/
def Sole (id : SessionId) (con : Handle) (log : List Call) : Prop :=
  ∀ i, (dialled log)[i]? = some con ↔ i = id

/-- A log with one connection. -/
theorem Sole.only {con : Handle} {log : List Call} (h : dialled log = [con]) :
    Sole 0 con log := by
  intro i
  rw [h]
  cases i <;> simp

theorem Sole.of_prefix {id : SessionId} {con : Handle} {log log' : List Call}
    (hs : Sole id con log') (hpre : log <+: log') (hlt : id < (dialled log).length) :
    Sole id con log := by
  obtain ⟨calls, rfl⟩ := hpre
  have there {i : Nat} (hi : i < (dialled log).length) :
      (dialled (log ++ calls))[i]? = (dialled log)[i]? := by
    rw [dialled_append, List.getElem?_append_left hi]
  intro i
  constructor
  · intro hi
    rw [← there (List.getElem?_eq_some_iff.mp hi).1] at hi
    exact (hs i).mp hi
  · rintro rfl
    rw [← there hlt]
    exact (hs i).mpr rfl

/-- A connection was not given out before its session began. -/
theorem Sole.not_mem {id : SessionId} {con : Handle} {log log' : List Call}
    (hs : Sole id con log') (hpre : log <+: log') (hle : (dialled log).length ≤ id) :
    con ∉ dialled log := by
  obtain ⟨calls, rfl⟩ := hpre
  intro hm
  obtain ⟨i, hi⟩ := List.mem_iff_getElem?.mp hm
  have hlt : i < (dialled log).length := (List.getElem?_eq_some_iff.mp hi).1
  have same : i = id := (hs i).mp (by rw [dialled_append, List.getElem?_append_left hlt, hi])
  exact absurd (same ▸ hlt) (Nat.not_lt.mpr hle)

/-- The connection was closed once and, if that failed, freed once; nothing else was done
to end it. -/
def Ended (con : Handle) (log : List Call) : Prop :=
  ∃ code, endings con log =
    .close con code :: if code = Code.Client.ok then [] else [.destroy con]

/-- Each result that was obtained over a connection, which is that of the session `id`,
was released before the connection was closed, or given up. -/
def ReleasedFirst (id : SessionId) (con : Handle) (given : List (SessionId × Handle))
    (log : List Call) : Prop :=
  ∃ pre code post, log = pre ++ .close con code :: post ∧
    ∀ h, (resultsOf con log).count h ≤ (released pre).count h + given.count (id, h)

/-! ## Hanging up -/

/-- The calls that end a connection, by what its close answers. -/
def hangUpCalls (con : Handle) (code : Code) : List Call :=
  .close con code :: if code = Code.Client.ok then [] else [.destroy con, .explain code]

section HangUp

variable (con : Handle) (code : Code)

@[simp] theorem dialled_hangUp : dialled (hangUpCalls con code) = [] := by
  unfold hangUpCalls
  split <;> rfl

@[simp] theorem resultsOf_hangUp (con' : Handle) : resultsOf con' (hangUpCalls con code) = [] := by
  unfold hangUpCalls
  split <;> rfl

@[simp] theorem released_hangUp : released (hangUpCalls con code) = [] := by
  unfold hangUpCalls
  split <;> rfl

theorem endings_hangUp : endings con (hangUpCalls con code) =
    .close con code :: if code = Code.Client.ok then [] else [.destroy con] := by
  unfold hangUpCalls
  split <;> simp [endings, Call.ends]

theorem endings_hangUp_of_ne {con con' : Handle} (h : con ≠ con') :
    endings con' (hangUpCalls con code) = [] := by
  unfold hangUpCalls
  split <;> simp [endings, Call.ends, h]

end HangUp

variable {σ : Type} {L : Library σ}

/-- The log of hanging up, by what the library answers to the close. -/
theorem log_hangUp_answered (L : Library σ) (con : Handle) (w : World (σ × List Call)) :
    (Session.hangUp L.recorded con w).2.log =
      w.log ++ hangUpCalls con (L.client.close con w.lib.1).1 := by
  rw [Session.hangUp, bind_apply, hangUpCalls]
  show (ite ((L.client.close con w.lib.1).1 = Code.Client.ok) _ _ : Action _ _) _ |>.2.log = _
  split
  · rfl
  · show ((w.log ++ [_]) ++ [_]) ++ [.explain (L.client.close con w.lib.1).1] = _
    rw [List.append_assoc, List.append_assoc]
    rfl

theorem log_hangUp (L : Library σ) (con : Handle) (w : World (σ × List Call)) :
    ∃ code, (Session.hangUp L.recorded con w).2.log = w.log ++ hangUpCalls con code :=
  ⟨_, log_hangUp_answered L con w⟩

/-! ## Actions that concern no connection -/

/-- A recorded library is calm along a relation if all inquiries are. -/
theorem Calm.of_inquiries {R : World (σ × List Call) → World (σ × List Call) → Prop}
    (h : ∀ {α : Type} (f : α → Call) (act : StateM σ α), (∀ a, (f a).Inquiry) →
      Along R (call (record f act))) : Calm L.recorded R where
  kind i := h (fun _ => .kind i) _ fun _ => trivial
  isOk i := h (fun _ => .isOk i) _ fun _ => trivial
  code i := h (fun _ => .code i) _ fun _ => trivial
  details i := h (fun _ => .details i) _ fun _ => trivial
  report i := h (fun _ => .report i) _ fun _ => trivial
  atEnd i := h (fun _ => .atEnd i) _ fun _ => trivial
  release i kind := h (fun _ => .release i kind) _ fun _ => trivial
  copyBatch i := h (.copyBatch i) _ fun _ => trivial
  copyRow i := h (.copyRow i) _ fun _ => trivial
  nextRow i := h (fun _ => .nextRow i) _ fun _ => trivial
  fieldCount i := h (fun _ => .fieldCount i) _ fun _ => trivial
  field i n := h (fun _ => .field i n) _ fun _ => trivial

/-- Only plain calls were made, and the sessions are as they were. -/
def Quiet (w w' : World (σ × List Call)) : Prop :=
  w'.sessions = w.sessions ∧ ∃ calls, w'.log = w.log ++ calls ∧ ∀ c ∈ calls, c.Plain

namespace Quiet

instance : IsPreorder (World (σ × List Call)) Quiet where
  refl w := ⟨rfl, [], (List.append_nil _).symm, by simp⟩
  trans := by
    rintro w w' w'' ⟨hs, calls, hlog, hp⟩ ⟨hs', calls', hlog', hp'⟩
    refine ⟨hs'.trans hs, calls ++ calls', ?_, ?_⟩
    · rw [hlog', hlog, List.append_assoc]
    · intro c hc
      exact (List.mem_append.mp hc).elim (hp c) (hp' c)

variable {α : Type}

/-- A call that is recorded, and is plain. -/
theorem called {act : StateM (σ × List Call) α}
    (h : ∀ s, ∃ c : Call, (act s).2.2 = s.2 ++ [c] ∧ c.Plain) : Along Quiet (call act) := by
  intro w
  obtain ⟨c, hlog, hp⟩ := h w.lib
  exact ⟨rfl, [c], hlog, by simpa using hp⟩

/-- An action that leaves the log and the sessions alone. -/
theorem of_rfl {act : Action (σ × List Call) α}
    (h : ∀ w, (act w).2.log = w.log ∧ (act w).2.sessions = w.sessions) : Along Quiet act :=
  fun w => ⟨(h w).2, [], (h w).1.trans (List.append_nil _).symm, by simp⟩

/-- A call that is not recorded. -/
theorem unrecorded (act : StateM σ α) : Along Quiet (call (Querent.unrecorded act)) :=
  of_rfl fun _ => ⟨rfl, rfl⟩

theorem calm : Calm L.recorded Quiet :=
  .of_inquiries fun f act hf => called fun s => ⟨f (act s.1).1, rfl, (hf _).plain⟩

theorem handle? (id : SessionId) :
    Along Quiet (Session.handle? id : Action (σ × List Call) (Option Handle)) :=
  of_rfl fun _ => ⟨rfl, rfl⟩

theorem canTalk (r : QueryResult) : Along Quiet (r.canTalk : Action (σ × List Call) Bool) := by
  unfold QueryResult.canTalk
  split
  · exact .pure _
  · exact (handle? _).bind fun _ => .pure _

theorem requests (id : Option SessionId) : Requests L.recorded Quiet id := by
  intro r _ what
  refine (canTalk r).bind fun talks => ?_
  split
  · cases what with
    | opening | fetching =>
      exact Along.bind (called fun _ => ⟨_, rfl, rfl, fun _ => ⟨rfl, rfl⟩⟩) fun code =>
        r.along_classify calm code _
  · exact .pure _

end Quiet

end Querent
