import Querent.Proofs.Server.Stranded
import Querent.Proofs.Workspace.Fetching

/-!
# Objects of a closed connection

A connection may be closed at any moment, through any of the objects that share it,
while the others are left in the middle of what they do. From then on nothing that is
asked of them reaches the server. What needs it is refused; what is at hand is still
delivered.
-/

namespace Querent

namespace Workspace

open Server (Course Item Lost Reply ShowsAs Silent State Stranded installation
  installation_library library)

/-! ## What the steps on objects lead to -/

/-- The relation between the worlds of two workspaces. -/
def InWorld {σ : Type} (R : World σ → World σ → Prop) (ws ws' : Workspace σ) : Prop :=
  R ws.world ws'.world

instance {σ : Type} (R : World σ → World σ → Prop) [IsPreorder (World σ) R] :
    IsPreorder (Workspace σ) (InWorld R) where
  refl ws := refl_of R ws.world
  trans _ _ _ := trans_of R

theorem along_run {σ α : Type} {R : World σ → World σ → Prop} {act : Action σ α}
    (h : Along R act) : Along (InWorld R) (run act) :=
  fun ws => h ws.world

/-- The session that an object closes when it is asked to close. -/
def Object.closes? : Object → Option SessionId
  | connection c => some c.session
  | dbConnection c => some c.inner.session
  | _ => none

variable {id : SessionId} {name : String} {o : Object}

/-- No drop is a statement or a fetch. -/
theorem Object.silent_drop (o : Object) : Along (Silent id) (o.drop library) := by
  cases o with
  | connection c => exact Silent.leave _
  | result r => exact r.silent_drop
  | batch b => exact Silent.calm.release b.handle .row
  | cursor c => exact c.silent_drop
  | dbConnection c => exact Silent.leave _
  | dbCursor c => exact c.silent_drop
  | rowBuilder b => exact b.result.silent_drop
  | procedure | raw => exact .pure _

/-- A step on the objects of the session `id` reaches the server only if the session is
open. -/
abbrev Unheard (id : SessionId) {α : Type} (act : Act State α) : Prop :=
  Along (InWorld (Silent id)) act

namespace Unheard

theorem of_slots {α : Type} {act : Act State α}
    (h : ∀ ws, (act ws).2.world = ws.world) : Unheard id act := by
  intro ws
  rw [InWorld, h]
  exact refl_of (Silent id) ws.world

theorem store (into : String) (o : Object) : Unheard id (Workspace.store installation into o) := by
  refine (of_slots fun _ => rfl : Unheard id (find? into)).bind fun old => ?_
  refine (of_slots fun _ => rfl : Unheard id (put into o)).bind fun _ => ?_
  cases old with
  | none => exact .pure _
  | some old => exact along_run old.silent_drop

section Storing

variable {α : Type} (into : String) (f : α → Object)

theorem storeNew (made : Except Error α) :
    Unheard id (Workspace.storeNew installation into f made) := by
  cases made with
  | ok a => exact (store into (f a)).bind fun _ => .pure _
  | error e => exact .pure _

theorem storeNewDb (made : Except DbApi.Error α) :
    Unheard id (Workspace.storeNewDb installation into f made) := by
  cases made with
  | ok a => exact (store into (f a)).bind fun _ => .pure _
  | error e => exact .pure _

end Storing

end Unheard

variable (fuel : Nat)

/-- What can be told of an answer because the session of the object is closed. -/
def Refused (w : World State) : Object → Question → Answer → Prop
  | .connection _, .execute sql _ _ _, a | .connection _, .rows sql, a =>
    ∃ e, a = .error e ∧ Unsendable sql e
  | .connection _, .useDatabase db, a => ∃ e, a = .error e ∧ Unsendable ("use " ++ db) e
  | .result r, .openRows, a | .result r, .fetch, a =>
    (r.kind library w).1.1 = .cursor → a = .error .connectionClosed
  | .dbConnection _, .cursor _, a | .dbConnection _, .execute .., a =>
    a = .dbError .noConnection
  | .dbCursor _, .execute .., a | .dbCursor _, .executeMany _ (_ :: _), a => ∃ e, a = .dbError e
  | _, _, _ => True

variable {ws : Workspace State} {l : Ledger}

/-- The answers to the calls of a run for the next row of the cursor under a name, until
it ends, is replaced, or is asked for all of its rows. -/
def nexts (name : String) : List Step → Workspace State → List Answer
  | [], _ => []
  | s :: rest, ws =>
    let out := step installation fuel s ws
    match ws.slots.get? name with
    | some (.cursor c) =>
      match askedOf name s with
      | some .next => out.1 :: nexts name rest out.2
      | some .all | some .drop => []
      | some _ => nexts name rest out.2
      | none =>
        if out.2.slots.get? name = some (.cursor c) then nexts name rest out.2 else []
    | _ => []

/-- The calls of a run for the next row are answered by these rows, this error if there is
one, and from then on only by the end. -/
def Delivers (name : String) (steps : List Step) (ws : Workspace State) (rows : List Row)
    (e : Option Error) : Prop :=
  let told := nexts fuel name steps ws
  told = ((⟨rows, e, 0⟩ : Course).yields told.length).map yielded

variable {fuel} {c : Cursor} {course : Course}

end Workspace

end Querent
