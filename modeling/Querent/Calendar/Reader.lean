import Querent.Calendar.Instant
import Querent.Number.Digits
import Querent.Number.Power
import Querent.Text.Blank

/-!
# Reading dates and times

The written forms, read with some freedom: blanks may stand before a number,
digits may be fewer than the form has, a year may have a sign and then any
count of digits, second 60 is a leap second, and digits of the fraction after
the ninth are dropped.
-/

namespace Querent.Calendar

open Text

/-- One digit or more at the front of `l`. -/
def anyDigits? (l : List Char) : Option (Nat × List Char) :=
  let ds := l.takeWhile Char.isDigit
  if ds.isEmpty then none else some (Decimal.value ds, l.drop ds.length)

/-- One digit or more at the front of `l`, and `width` at most. -/
def digitsUpTo? (width : Nat) (l : List Char) : Option (Nat × List Char) :=
  let ds := (l.take width).takeWhile Char.isDigit
  if ds.isEmpty then none else some (Decimal.value ds, l.drop ds.length)

/-- Blanks and a number of at most `width` digits. -/
def number? (width : Nat) (l : List Char) : Option (Nat × List Char) :=
  digitsUpTo? width (trimStart l)

/-- Blanks and a year: four digits at most, or any count after a sign. -/
def year? (l : List Char) : Option (Int × List Char) :=
  match trimStart l with
  | '-' :: rest => (anyDigits? rest).map fun (n, rest) => (-(n : Int), rest)
  | '+' :: rest => (anyDigits? rest).map fun (n, rest) => ((n : Int), rest)
  | rest => (digitsUpTo? 4 rest).map fun (n, rest) => ((n : Int), rest)

/-- What follows the character `c` at the front. -/
def after? (c : Char) : List Char → Option (List Char)
  | [] => none
  | d :: rest => if d = c then some rest else none

/-- A date that exists, and what follows it. -/
def date? (l : List Char) : Option (Date × List Char) := do
  let (year, l) ← year? l
  let l ← after? '-' l
  let (month, l) ← number? 2 l
  let l ← after? '-' l
  let (day, l) ← number? 2 l
  let d : Date := ⟨year, month, day⟩
  if d.isValid then some (d, l) else none

/-- A point and digits, as nanoseconds; nothing is zero. -/
def fraction? : List Char → Option (Nat × List Char)
  | '.' :: rest => do
    let (n, after) ← digitsUpTo? 9 rest
    some (n * tenTo (9 - (rest.length - after.length)), after.dropWhile Char.isDigit)
  | l => some (0, l)

/-- A time of day, and what follows it. -/
def clock? (l : List Char) : Option (Clock × List Char) := do
  let (hour, l) ← number? 2 l
  let l ← after? ':' l
  let (minute, l) ← number? 2 l
  let l ← after? ':' l
  let (second, l) ← number? 2 l
  let (nanos, l) ← fraction? l
  if hour < 24 ∧ minute < 60 ∧ second ≤ 60 then
    some (if second = 60 then ⟨hour, minute, 59, 1000000000 + nanos⟩
      else ⟨hour, minute, second, nanos⟩, l)
  else none

/-- The instant at which the date that `s` writes begins. -/
def readDate? (s : String) : Option Int :=
  match date? s.toList with
  | some (d, []) => some (instant d midnight)
  | _ => none

/-- The instant that `s` writes as date and time. -/
def readDateTime? (s : String) : Option Int := do
  let (d, l) ← date? s.toList
  let l ← after? 'T' l
  match ← clock? l with
  | (c, []) => some (instant d c)
  | _ => none

end Querent.Calendar
