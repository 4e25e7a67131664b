/-!
# Powers

The powers of the two bases that numbers are written in.
-/

namespace Querent

/-- Two to the power of `n`. -/
def twoTo (n : Nat) : Nat := Nat.pow 2 n

/-- Ten to the power of `n`. -/
def tenTo (n : Nat) : Nat := Nat.pow 10 n

end Querent
