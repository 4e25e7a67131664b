import Querent.Error
import Querent.Library

/-!
# Sessions

A session is an open connection that several objects share: connections,
results that may have to fetch, cursors. It counts its holders. It is closed by
an explicit close, or when the last holder leaves.
-/

namespace Querent

structure Session where
  /-- the connection, while it is open -/
  handle : Option Handle
  /-- host and port -/
  peer : String
  /-- how many objects hold the session -/
  holders : Nat
  deriving DecidableEq, Repr

/-- A session by its place in the order of connecting. -/
abbrev SessionId := Nat

/-- The state of a program: that of the library, and all sessions so far. -/
structure World (σ : Type) where
  lib : σ
  sessions : List Session

/-- A step of a program over a library with states `σ`. -/
abbrev Action (σ : Type) := StateM (World σ)

variable {σ : Type} {α : Type}

/-- A program that has not connected yet. -/
def World.start (lib : σ) : World σ := ⟨lib, []⟩

/-- A step of the library alone. -/
def call (act : StateM σ α) : Action σ α := fun w =>
  let (a, lib) := act w.lib
  (a, { w with lib })

namespace Session

/-- A new session with one holder. -/
def start (handle : Handle) (peer : String) : Action σ SessionId := fun w =>
  (w.sessions.length, { w with sessions := w.sessions ++ [⟨some handle, peer, 1⟩] })

def get (id : SessionId) : Action σ (Option Session) := fun w => (w.sessions[id]?, w)

def update (id : SessionId) (f : Session → Session) : Action σ Unit := fun w =>
  ((), { w with sessions := w.sessions.modify id f })

/-- The connection, if the session is open. -/
def handle? (id : SessionId) : Action σ (Option Handle) := do
  return (← get id).bind (·.handle)

def peerOf (id : SessionId) : Action σ String := do
  return ((← get id).map (·.peer)).getD ""

/-- One more object holds the session. -/
def join (id : SessionId) : Action σ Unit :=
  update id fun s => { s with holders := s.holders + 1 }

/-- The session has no connection any more. -/
def clear (id : SessionId) : Action σ Unit :=
  update id fun s => { s with handle := none }

variable (L : Library σ)

/-- Closes a connection. It is freed in any case: by the close, or if that
fails, on its own. -/
def hangUp (con : Handle) : Action σ (Except Error Unit) := do
  let code ← call (L.client.close con)
  if code = Code.Client.ok then return .ok ()
  else
    call (L.client.destroy con)
    let text ← call (L.client.explain code)
    return .error (.client code text)

/-- Closes the session; nothing to do if it is closed. -/
def close (id : SessionId) : Action σ (Except Error Unit) := do
  match ← handle? id with
  | none => return .ok ()
  | some con =>
    clear id
    hangUp L con

/-- An object that held the session is gone. The last one closes it; a failure
to do so goes unheard. -/
def leave (id : SessionId) : Action σ Unit := do
  update id fun s => { s with holders := s.holders - 1 }
  match ← get id with
  | some ⟨some con, _, 0⟩ =>
    clear id
    let _ ← hangUp L con
  | _ => pure ()

/-- An object that may hold a session is gone. -/
def leave? : Option SessionId → Action σ Unit
  | some id => leave L id
  | none => pure ()

end Session

end Querent
