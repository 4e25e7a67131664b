/-!
# The Gregorian calendar

Dates of the Gregorian calendar extended over all years, and their count in
days from 1 January of the year 1, which is day 0.
-/

namespace Querent.Calendar

structure Date where
  year : Int
  month : Nat
  day : Nat
  deriving DecidableEq, Repr

def isLeap (year : Int) : Bool := year % 4 = 0 && (year % 100 ≠ 0 || year % 400 = 0)

def daysInMonth (year : Int) (month : Nat) : Nat :=
  match month with
  | 2 => if isLeap year then 29 else 28
  | 4 | 6 | 9 | 11 => 30
  | _ => 31

/-- The date exists. -/
def Date.isValid (d : Date) : Bool :=
  1 ≤ d.month && d.month ≤ 12 && 1 ≤ d.day && d.day ≤ daysInMonth d.year d.month

/-- Days of the year before its month `month`. -/
def daysBeforeMonth (year : Int) : (month : Nat) → Nat
  | 0 => 0
  | 1 => 0
  | m + 2 => daysBeforeMonth year (m + 1) + daysInMonth year (m + 1)

/-- Days before the first of January of `year`. -/
def daysBeforeYear (year : Int) : Int :=
  let y := year - 1
  365 * y + y / 4 - y / 100 + y / 400

def Date.dayNumber (d : Date) : Int :=
  daysBeforeYear d.year + daysBeforeMonth d.year d.month + d.day - 1

/-- The greatest month up to `month` that starts by day `n` of the year. -/
def monthAt (year : Int) (n : Nat) : (month : Nat) → Nat
  | 0 => 1
  | m + 1 => if daysBeforeMonth year (m + 1) ≤ n then m + 1 else monthAt year n m

/-- Day `n` of a year, counted from zero, as a date. -/
def Date.ofDayOfYear (year : Int) (n : Nat) : Date :=
  let month := monthAt year n 12
  ⟨year, month, n - daysBeforeMonth year month + 1⟩

/-- The year that day `n` lies in, and its place in the year. The calendar
repeats every 400 years; in these, all centuries but the last lack a day, all
groups of four years but a century's last have a leap year at the end. -/
def yearAt (n : Int) : Int × Nat :=
  let cycle := n / 146097
  let r := (n % 146097).toNat
  let century := min (r / 36524) 3
  let r := r - century * 36524
  let group := r / 1461
  let r := r % 1461
  let one := min (r / 365) 3
  (400 * cycle + 100 * century + 4 * group + one + 1, r - one * 365)

def Date.ofDayNumber (n : Int) : Date :=
  let (year, day) := yearAt n
  .ofDayOfYear year day

example : (Date.mk 1970 1 1).dayNumber = 719162 := by decide
example : Date.ofDayNumber 719162 = ⟨1970, 1, 1⟩ := by decide
example : Date.ofDayNumber ((Date.mk 2000 2 29).dayNumber) = ⟨2000, 2, 29⟩ := by decide
example : Date.ofDayNumber (-1) = ⟨0, 12, 31⟩ := by decide

end Querent.Calendar
