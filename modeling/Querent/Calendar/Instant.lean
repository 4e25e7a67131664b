import Querent.Calendar.Date

/-!
# Instants

An instant is a count of nanoseconds from the start of 1970. A day has 86400
seconds; a leap second is read as the second before it with more than a second
of nanoseconds.
-/

namespace Querent.Calendar

/-- The first and the last year of a date. -/
def firstYear : Int := -262143

def lastYear : Int := 262142

def nanosPerSecond : Int := 1000000000

def nanosPerDay : Int := 86400 * nanosPerSecond

/-- The day number of 1 January 1970. -/
def epochDay : Int := 719162

/-- Hour, minute, second and nanoseconds of a day. -/
structure Clock where
  hour : Nat
  minute : Nat
  second : Nat
  nanos : Nat
  deriving DecidableEq, Repr

def midnight : Clock := ⟨0, 0, 0, 0⟩

/-- A time of day without a leap second. -/
def Clock.isValid (c : Clock) : Bool := c.hour < 24 && c.minute < 60 && c.second < 60

def Clock.seconds (c : Clock) : Nat := (c.hour * 60 + c.minute) * 60 + c.second

/-- Nanoseconds from the epoch to a time of a date. -/
def instant (d : Date) (c : Clock) : Int :=
  (d.dayNumber - epochDay) * nanosPerDay + c.seconds * nanosPerSecond + c.nanos

/-- The whole seconds up to an instant and the nanoseconds above them. -/
def secondsAndRest (n : Int) : Int × Nat :=
  (n / nanosPerSecond, (n % nanosPerSecond).toNat)

/-- The date of an instant. -/
def dateAt (n : Int) : Date := .ofDayNumber (n / nanosPerDay + epochDay)

/-- The whole seconds and the rest of an instant that has a date. -/
def moment? (n : Int) : Option (Int × Nat) :=
  let year := (dateAt n).year
  if firstYear ≤ year ∧ year ≤ lastYear then some (secondsAndRest n) else none

/-- The time of day of an instant. -/
def clockAt (n : Int) : Clock :=
  let rest := (n % nanosPerDay).toNat
  let seconds := rest / 1000000000
  ⟨seconds / 3600, seconds / 60 % 60, seconds % 60, rest % 1000000000⟩

example : instant ⟨2018, 6, 1⟩ ⟨12, 30, 0, 0⟩ = 1527856200 * nanosPerSecond := by decide
example : dateAt (-1) = ⟨1969, 12, 31⟩ ∧ clockAt (-1) = ⟨23, 59, 59, 999999999⟩ := by decide

end Querent.Calendar
