import Querent.Proofs.Action

/-!
# Recording the calls of a library

Any library can be made to keep a log of the calls on its results and of the
calls of its client side. The log is part of the library's own state, where the
program cannot see it. Facts about all logs are proved from what single calls
add to them.
-/

namespace Querent

/-- A call that a library received. Where a call hands out a handle or the code
that decides what happens next, its answer is part of the record. -/
inductive Call where
  | kind (h : Handle)
  | isOk (h : Handle)
  | code (h : Handle)
  | details (h : Handle)
  | report (h : Handle)
  | atEnd (h : Handle)
  | release (h : Handle) (kind : ResultKind)
  | openCursor (h : Handle) (answer : Code)
  | fetch (h : Handle) (answer : Code)
  | copyBatch (h : Handle) (answer : Option Handle)
  | copyRow (h : Handle) (answer : Option Handle)
  | nextRow (h : Handle)
  | fieldCount (h : Handle)
  | field (h : Handle) (i : Nat)
  | explain (code : Code)
  | connect (request : ConnectRequest) (answer : Except Code Handle)
  | close (h : Handle) (answer : Code)
  | destroy (h : Handle)
  | execute (h : Handle) (statement : String) (answer : Except Code Handle)

variable {σ α β : Type}

/-- Makes a call and puts it on record. -/
def record (f : α → Call) (act : StateM σ α) : StateM (σ × List Call) α := fun s =>
  ((act s.1).1, (act s.1).2, s.2 ++ [f (act s.1).1])

/-- Makes a call that is not recorded. -/
def unrecorded (act : StateM σ α) : StateM (σ × List Call) α := fun s =>
  ((act s.1).1, (act s.1).2, s.2)

/-- The library that behaves as `L` does and keeps a log. Calls of procedures
are not recorded. -/
def Library.recorded (L : Library σ) : Library (σ × List Call) where
  results := {
    kind := fun h => record (fun _ => .kind h) (L.results.kind h)
    isOk := fun h => record (fun _ => .isOk h) (L.results.isOk h)
    code := fun h => record (fun _ => .code h) (L.results.code h)
    details := fun h => record (fun _ => .details h) (L.results.details h)
    report := fun h => record (fun _ => .report h) (L.results.report h)
    atEnd := fun h => record (fun _ => .atEnd h) (L.results.atEnd h)
    release := fun h kind => record (fun _ => .release h kind) (L.results.release h kind)
    openCursor := fun h => record (.openCursor h) (L.results.openCursor h)
    fetch := fun h => record (.fetch h) (L.results.fetch h)
    copyBatch := fun h => record (.copyBatch h) (L.results.copyBatch h)
    copyRow := fun h => record (.copyRow h) (L.results.copyRow h)
    nextRow := fun h => record (fun _ => .nextRow h) (L.results.nextRow h)
    fieldCount := fun h => record (fun _ => .fieldCount h) (L.results.fieldCount h)
    field := fun h i => record (fun _ => .field h i) (L.results.field h i) }
  client := {
    explain := fun code => record (fun _ => .explain code) (L.client.explain code)
    connect := fun request => record (.connect request) (L.client.connect request)
    close := fun h => record (.close h) (L.client.close h)
    destroy := fun h => record (fun _ => .destroy h) (L.client.destroy h)
    execute := fun h statement =>
      record (.execute h statement) (L.client.execute h statement) }
  host := {
    execute := fun h statement => unrecorded (L.host.execute h statement)
    wrap := fun h => unrecorded (L.host.wrap h)
    makeSuccess := unrecorded L.host.makeSuccess
    makeError := fun code text => unrecorded (L.host.makeError code text)
    makeReport := fun r => unrecorded (L.host.makeReport r)
    makeRow := unrecorded L.host.makeRow
    capacity := fun h => unrecorded (L.host.capacity h)
    add := fun h v => unrecorded (L.host.add h v)
    closeRow := fun h => unrecorded (L.host.closeRow h) }

/-- The calls on record. -/
def World.log (w : World (σ × List Call)) : List Call := w.lib.2

/-! ## Recording changes nothing -/

/-- The world without the log. -/
def World.erase (w : World (σ × List Call)) : World σ := ⟨w.lib.1, w.sessions⟩

/-- The first action does what the second does, over a library with a log. -/
def Erases (act' : Action (σ × List Call) α) (act : Action σ α) : Prop :=
  ∀ w, (act' w).1 = (act w.erase).1 ∧ (act' w).2.erase = (act w.erase).2

namespace Erases

variable {act' : Action (σ × List Call) α} {act : Action σ α}

theorem pure (a : α) : Erases (Pure.pure a : Action (σ × List Call) α) (Pure.pure a) :=
  fun _ => ⟨rfl, rfl⟩

theorem bind {f' : α → Action (σ × List Call) β} {f : α → Action σ β} (ha : Erases act' act)
    (hf : ∀ a, Erases (f' a) (f a)) : Erases (act' >>= f') (act >>= f) := by
  intro w
  obtain ⟨h₁, h₂⟩ := ha w
  have h := hf (act w.erase).1 (act' w).2
  rw [h₂] at h
  simpa only [bind_apply, h₁] using h

theorem called {act' : StateM (σ × List Call) α} {act : StateM σ α}
    (h : ∀ s, (act' s).1 = (act s.1).1 ∧ (act' s).2.1 = (act s.1).2) :
    Erases (call act') (call act) := by
  intro w
  obtain ⟨h₁, h₂⟩ := h w.lib
  exact ⟨h₁, congrArg (World.mk · w.sessions) h₂⟩

theorem mapM {f' : β → Action (σ × List Call) α} {f : β → Action σ α}
    (hf : ∀ b, Erases (f' b) (f b)) (l : List β) : Erases (l.mapM f') (l.mapM f) := by
  induction l with
  | nil => exact pure _
  | cons b l ih =>
    rw [List.mapM_cons, List.mapM_cons]
    exact bind (hf b) fun _ => bind ih fun _ => pure _

end Erases

/-! ## Logs that follow an order -/

/-- The order `next` allows the calls that the action makes, from the state `p`
to the one that the answer gives. -/
def Follows {τ : Type} (next : τ → Call → Option τ) (act : Action (σ × List Call) α)
    (p : τ) (q : α → τ) : Prop :=
  ∀ w, ∃ calls, (act w).2.log = w.log ++ calls ∧ calls.foldlM next p = some (q (act w).1)

namespace Follows

variable {τ : Type} {next : τ → Call → Option τ} {act : Action (σ × List Call) α} {p : τ}
  {q : α → τ}

theorem pure {a : α} (h : q a = p) :
    Follows next (Pure.pure a : Action (σ × List Call) α) p q :=
  fun w => ⟨[], by simp, by simp [h]⟩

/-- What is known of the first answer in every world may be used of the second
action. -/
theorem bind {f : α → Action (σ × List Call) β} {φ : α → Prop} {r : β → τ}
    (ha : Follows next act p q) (hφ : Gives act φ) (hf : ∀ a, φ a → Follows next (f a) (q a) r) :
    Follows next (act >>= f) p r := by
  intro w
  obtain ⟨calls, hlog, hq⟩ := ha w
  obtain ⟨calls', hlog', hr⟩ := hf _ (hφ w) (act w).2
  refine ⟨calls ++ calls', ?_, ?_⟩
  · rw [bind_apply, hlog', hlog, List.append_assoc]
  · rw [List.foldlM_append, hq]
    exact hr

theorem bind_any {f : α → Action (σ × List Call) β} {r : β → τ}
    (ha : Follows next act p q) (hf : ∀ a, Follows next (f a) (q a) r) :
    Follows next (act >>= f) p r :=
  ha.bind Gives.any fun a _ => hf a

theorem record (f : α → Call) (act : StateM σ α) (h : ∀ a, next p (f a) = some (q a)) :
    Follows next (call (Querent.record f act)) p q :=
  fun w => ⟨[f (act w.lib.1).1], rfl, by rw [List.foldlM_cons, h]; rfl⟩

/-- An action that leaves the library alone. -/
theorem silent {act : Action (σ × List Call) α} (h : ∀ w, (act w).2.lib = w.lib) :
    Follows next act p fun _ => p :=
  fun w => ⟨[], by simp [World.log, h], by simp⟩

theorem mapM {f : β → Action (σ × List Call) α} (hf : ∀ b, Follows next (f b) p fun _ => p)
    (l : List β) : Follows next (l.mapM f) p fun _ => p := by
  induction l with
  | nil => exact Follows.pure rfl
  | cons b l ih =>
    rw [List.mapM_cons]
    exact (hf b).bind_any fun _ => ih.bind_any fun _ => Follows.pure rfl

end Follows

end Querent
