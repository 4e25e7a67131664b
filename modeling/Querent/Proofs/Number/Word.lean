import Mathlib.Tactic.SplitIfs
import Querent.Number.Word

/-!
# Words of 64 bits

An integer is a signed word of 64 bits exactly if it lies in their range, and the word is
that integer then. So is a sum, which has no word where it overflows.
-/

namespace Querent

theorem int64?_eq_some_iff {k : Int} {n : Int64} : int64? k = some n ↔ n.toInt = k := by
  have hlow := n.le_toInt
  have hhigh := n.toInt_lt
  unfold int64?
  constructor
  · intro h
    split_ifs at h with hk
    · rw [← Option.some.inj h, Int64.toInt_ofInt_of_le (by omega) (by omega)]
  · intro h
    rw [if_pos (by omega), ← h, Int64.ofInt_toInt]

theorem int64?_toInt (n : Int64) : int64? n.toInt = some n := int64?_eq_some_iff.mpr rfl

theorem int64?_eq_none_iff {k : Int} :
    int64? k = none ↔ k < -0x8000000000000000 ∨ 0x8000000000000000 ≤ k := by
  unfold int64?
  split_ifs with h
  · simp
    omega
  · simp
    omega

theorem sum64?_eq_some_iff {a b c : Int64} :
    sum64? a b = some c ↔ c.toInt = a.toInt + b.toInt := int64?_eq_some_iff

theorem sum64?_eq_none_iff {a b : Int64} :
    sum64? a b = none ↔
      a.toInt + b.toInt < -0x8000000000000000 ∨ 0x8000000000000000 ≤ a.toInt + b.toInt :=
  int64?_eq_none_iff

end Querent
