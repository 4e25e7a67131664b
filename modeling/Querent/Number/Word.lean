/-!
# Fixed words

Integers that fit into a word, and words cut to narrower ones.
-/

namespace Querent

/-- `n` as a signed word of 64 bits, if it is one. -/
def int64? (n : Int) : Option Int64 :=
  if -0x8000000000000000 ≤ n ∧ n < 0x8000000000000000 then some (Int64.ofInt n) else none

/-- The sum of two signed words, if it is one. -/
def sum64? (a b : Int64) : Option Int64 := int64? (a.toInt + b.toInt)

/-- `n` as an unsigned word of 64 bits, if it is one. -/
def uint64? (n : Int) : Option UInt64 :=
  if 0 ≤ n ∧ n < 0x10000000000000000 then some (UInt64.ofNat n.toNat) else none

end Querent
