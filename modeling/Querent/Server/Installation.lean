import Querent.Server.Calls
import Querent.Workspace.Basic

/-!
# Programs on the server in memory

A workspace may run on the server in memory, which offers both sides of a library
and lets a program look into the rows it has built.
-/

namespace Querent.Server

/-- The server before it is used: the replies it is given, the later ones first, and
how it takes connections and rows. -/
def State.scripted (replies : List (String × Reply)) (connectFailure : Option Code)
    (rowCapacity : Int32) : State :=
  replies.foldl (fun s (statement, reply) => s.on statement reply) { connectFailure, rowCapacity }

def installation : Workspace.Installation State :=
  ⟨library, true, true, some fun h s => (s.builtRows h, s)⟩

@[simp] theorem installation_library : installation.library = library := rfl

end Querent.Server
