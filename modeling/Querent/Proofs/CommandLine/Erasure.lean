import Querent.CommandLine.Run
import Querent.Proofs.Library.Erasure

/-!
# A log changes nothing for the program

The program does over a recorded library what it does over the library itself: it prints
the same, ends in the same way, and leaves the library in the same state.
-/

namespace Querent

variable {σ : Type} (L : Library σ)

namespace Connection

variable (c : Connection)

end Connection

/-! ## The program -/

namespace CommandLine

variable (fuel : Nat) (clock : StateM σ Nat) (o : Options)

end CommandLine

end Querent
