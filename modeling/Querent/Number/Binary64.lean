import Querent.Number.Power

/-!
# Double precision numbers

A double precision number as its 64 bits (IEEE 754 binary64). Arithmetic is
exact on integers and ratios and rounds once, to the nearest double, a tie to
the one with an even significand.
-/

namespace Querent

/-- A double precision number. Two are equal if their bits are. -/
structure Binary64 where
  bits : UInt64
  deriving DecidableEq, Repr, Inhabited

namespace Binary64

/-- What the bits stand for. A finite number is `m · 2 ^ q`, negated if `neg`. -/
inductive Parts where
  | nan
  | infinite (neg : Bool)
  | finite (neg : Bool) (m : Nat) (q : Int)
  deriving DecidableEq, Repr

/-- The weight of the sign among the bits. -/
def signBit : Nat := 0x8000000000000000

/-- The least significand of full length, `2 ^ 52`. Its top bit is not stored. -/
def topBit : Nat := 0x10000000000000

def parts (x : Binary64) : Parts :=
  let n := x.bits.toNat
  let neg := n / signBit == 1
  let e : Nat := n / topBit % 2048
  let f : Nat := n % topBit
  if e = 2047 then if f = 0 then .infinite neg else .nan
  else if e = 0 then .finite neg f (-1074)
  else .finite neg (topBit + f) (e - 1075)

def isFinite (x : Binary64) : Bool :=
  match x.parts with
  | .finite .. => true
  | _ => false

/-- Equal as numbers: the two zeros are, and NaN is equal to nothing. -/
def equals (x y : Binary64) : Bool :=
  match x.parts, y.parts with
  | .nan, _ | _, .nan => false
  | .finite _ 0 _, .finite _ 0 _ => true
  | _, _ => x == y

/-- The numerator of `m · 2 ^ q` over `scaleDen q`. -/
def scaleNum (m : Nat) (q : Int) : Nat := m * twoTo q.toNat

def scaleDen (q : Int) : Nat := twoTo (-q).toNat

/-- `num / den` rounded to the nearest integer, a tie to the even one. -/
def roundDiv (num den : Nat) : Nat :=
  let d := num / den
  let r := num % den
  if 2 * r < den then d
  else if 2 * r > den then d + 1
  else if d % 2 = 0 then d else d + 1

/-- The double with significand `m < 2 ^ 53` and exponent `q`, where `q` is
`-1074` if `m` is below the top bit; infinite if `q` is too large. -/
def pack (neg : Bool) (m : Nat) (q : Int) : Binary64 :=
  let sign := if neg then signBit else 0
  let magnitude :=
    if m < topBit then m
    else if q > 971 then 2047 * topBit
    else (q + 1075).toNat * topBit + (m - topBit)
  ⟨UInt64.ofNat (sign + magnitude)⟩

/-- The exponent at which `num / den` has a significand of 53 bits, or the
least exponent if it is too small for that. -/
def exponentFor (num den : Nat) : Int :=
  let guess : Int := (num.log2 : Int) - den.log2 - 52
  -- the logarithms are each less than one off
  let reaches := scaleNum (den * topBit) guess ≤ num * scaleDen guess
  max (-1074) (if reaches then guess else guess - 1)

/-- The double nearest to `num / den`. -/
def ofRatio (neg : Bool) (num den : Nat) : Binary64 :=
  if num = 0 then pack neg 0 (-1074)
  else
    let q := exponentFor num den
    let m := roundDiv (num * scaleDen q) (scaleNum den q)
    if m = 2 * topBit then pack neg topBit (q + 1) else pack neg m q

def ofInt (i : Int) : Binary64 := ofRatio (i < 0) i.natAbs 1

/-- The integer part of a number, cut toward zero; `none` for an infinity and NaN. -/
def truncate? (x : Binary64) : Option Int :=
  match x.parts with
  | .finite neg m q =>
    let n : Int := (scaleNum m q / scaleDen q : Nat)
    some (if neg then -n else n)
  | _ => none

/-- The integer part within the bounds of a signed word of 64 bits, the nearer
bound if it lies outside, zero for NaN. -/
def toInt64Clamp (x : Binary64) : Int64 :=
  match x.parts with
  | .nan => 0
  | .infinite neg => if neg then Int64.minValue else Int64.maxValue
  | .finite .. =>
    Int64.ofInt (max (-0x8000000000000000) (min 0x7FFFFFFFFFFFFFFF (x.truncate?.getD 0)))

/-- A finite number as floor and the rest above it, the rest as a ratio over
the second component. -/
def floorRest? (x : Binary64) : Option (Int × Nat × Nat) :=
  match x.parts with
  | .finite neg m q =>
    let den := scaleDen q
    let num : Int := if neg then -(scaleNum m q : Int) else scaleNum m q
    some (num / (den : Int), (num % (den : Int)).toNat, den)
  | _ => none

example : (ofInt 1).bits = 0x3FF0000000000000 := by rfl
example : (ofInt (-9007199254740993)).bits = 0xC340000000000000 := by rfl
example : (ofRatio false 1 10).bits = 0x3FB999999999999A := by rfl
example : (ofRatio false 1 (twoTo 1074)).bits = 1 := by decide +kernel

end Binary64

end Querent
