import Querent.Number.Binary64

/-!
# Shortest decimals

The shortest decimal that reads back as a given double: of the decimals in the
interval that rounds to the double, those with the fewest digits, and of these
the nearest.
-/

namespace Querent.Decimal

/-- A decimal `digits · 10 ^ exponent`. -/
structure Scaled where
  digits : Nat
  exponent : Int
  deriving DecidableEq, Repr

/-- Which of two equally near decimals is taken. -/
inductive Tie where
  | even
  | up
  deriving DecidableEq, Repr

/-- The reals that round to a double, all over one denominator: the double
itself, the two ends, and whether the ends belong to it. -/
structure Interval where
  value : Nat
  low : Nat
  high : Nat
  den : Nat
  closed : Bool
  deriving Repr

/-- The interval of `m · 2 ^ q`. The gap below a power of two is half as wide. -/
def Interval.around (m : Nat) (q : Int) : Interval :=
  let unit := twoTo q.toNat
  let narrow := m = Binary64.topBit ∧ q > -1074
  { value := 4 * m * unit
    low := (4 * m - if narrow then 1 else 2) * unit
    high := (4 * m + 2) * unit
    den := 4 * twoTo (-q).toNat
    closed := m % 2 = 0 }

/-- `n · 10 ^ k` lies in the interval. -/
def Interval.contains (I : Interval) (n : Nat) (k : Int) : Bool :=
  let x := n * tenTo k.toNat * I.den
  let scale := tenTo (-k).toNat
  if I.closed then I.low * scale ≤ x && x ≤ I.high * scale
  else I.low * scale < x && x < I.high * scale

/-- The nearer of the two multiples of `10 ^ k` around the value that lie in the
interval, if one does. -/
def Interval.onGrid? (I : Interval) (tie : Tie) (k : Int) : Option Nat :=
  let num := I.value * tenTo (-k).toNat
  let den := I.den * tenTo k.toNat
  let below := num / den
  let twice := 2 * (num % den)
  let nearest :=
    if twice < den then below
    else if twice > den then below + 1
    else match tie with
      | .up => below + 1
      | .even => if below % 2 = 0 then below else below + 1
  let other := if nearest = below then below + 1 else below
  if I.contains nearest k then some nearest
  else if I.contains other k then some other
  else none

/-- The first grid with a hit, from `10 ^ k` down to finer ones. -/
def Interval.search (I : Interval) (tie : Tie) : Nat → Int → Scaled
  | 0, k => ⟨I.value * tenTo (-k).toNat / (I.den * tenTo k.toNat), k⟩
  | fuel + 1, k =>
    match I.onGrid? tie k with
    | some n => ⟨n, k⟩
    | none => I.search tie fuel (k - 1)

/-- The shortest decimal for `m · 2 ^ q` with `m` not zero. Seventeen digits
always suffice; the search starts above the first digit, and a hit ends in no
zero, as it would lie on the grid before. -/
def shortest (tie : Tie) (m : Nat) (q : Int) : Scaled :=
  let I := Interval.around m q
  -- 1233/4096 is slightly below the logarithm of 2 to base 10
  let top : Int := ((m.log2 + q) * 1233) / 4096 + 2
  I.search tie 24 top

example : shortest .even Binary64.topBit (-52) = ⟨1, 0⟩ := by rfl
example : shortest .even 1 (-1074) = ⟨5, -324⟩ ∧
    shortest .up Binary64.topBit (-96) = ⟨5684341886080802, -29⟩ := by decide +kernel

end Querent.Decimal
