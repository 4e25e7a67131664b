import Querent.Number.Digits
import Querent.Number.Shortest

/-!
# Doubles in writing

Doubles in their shortest form under a style, and doubles with a fixed count of
places.
-/

namespace Querent.Decimal

/-- How a double is written. -/
structure Style where
  /-- which of two equally near decimals is taken -/
  tie : Tie
  /-- the decimal exponents of the first digit, from the first bound up to but
  without the second, that are written without an exponent; all if absent -/
  positional : Option (Int × Int)
  /-- a whole number in positional form ends in `.0` -/
  pointZero : Bool
  nan : String
  infinite : Bool → String

/-- `d` without an exponent. -/
def Scaled.positional (pointZero : Bool) (d : Scaled) : List Char :=
  let ds := Nat.toDigits 10 d.digits
  let point : Int := ds.length + d.exponent
  if d.exponent ≥ 0 then
    ds ++ List.replicate d.exponent.toNat '0' ++ if pointZero then ['.', '0'] else []
  else if point > 0 then ds.take point.toNat ++ '.' :: ds.drop point.toNat
  else '0' :: '.' :: List.replicate (-point).toNat '0' ++ ds

/-- `d` with one digit before the point and an exponent that has a sign. -/
def Scaled.scientific (d : Scaled) : List Char :=
  let ds := Nat.toDigits 10 d.digits
  let e : Int := ds.length + d.exponent - 1
  let mantissa := match ds with
    | c :: rest@(_ :: _) => c :: '.' :: rest
    | _ => ds
  let mark := if e < 0 then ['e', '-'] else ['e', '+']
  mantissa ++ mark ++ Nat.toDigits 10 e.natAbs

def Scaled.write (style : Style) (d : Scaled) : List Char :=
  let e : Int := (Nat.toDigits 10 d.digits).length + d.exponent - 1
  match style.positional with
  | none => d.positional style.pointZero
  | some (low, high) =>
    if low ≤ e ∧ e < high then d.positional style.pointZero else d.scientific

def signed (neg : Bool) (l : List Char) : String :=
  String.ofList (if neg then '-' :: l else l)

/-- A double in the style. Zero keeps its sign. -/
def Style.write (style : Style) (x : Binary64) : String :=
  match x.parts with
  | .nan => style.nan
  | .infinite neg => style.infinite neg
  | .finite neg m q =>
    if m = 0 then signed neg ((Scaled.mk 0 0).positional style.pointZero)
    else signed neg ((shortest style.tie m q).write style)

/-- The words for the infinities. -/
def infinityWord (neg : Bool) : String := if neg then "-inf" else "inf"

/-- The style of the display form: no exponents, and no point in whole numbers. -/
def plain : Style where
  tie := .up
  positional := none
  pointZero := false
  nan := "NaN"
  infinite := infinityWord

/-- A double with exactly `places` digits after the point, the nearest such
decimal, a tie to the one with an even last digit. -/
def withPlaces (places : Nat) (x : Binary64) : String :=
  match x.parts with
  | .nan => "NaN"
  | .infinite neg => infinityWord neg
  | .finite neg m q =>
    let n := Binary64.roundDiv (Binary64.scaleNum m q * tenTo places) (Binary64.scaleDen q)
    let whole := Nat.toDigits 10 (n / tenTo places)
    signed neg (if places = 0 then whole else whole ++ '.' :: lastDigits places n)

end Querent.Decimal
