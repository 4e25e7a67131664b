import Querent.Calendar.Instant
import Querent.Number.Digits

/-!
# Dates and times in writing

A date is `2019-02-28`, a time `2018-06-01T12:30:00`, with a fraction of 3, 6
or 9 digits if it is not zero: the fewest that lose nothing.
-/

namespace Querent.Calendar

open Decimal

/-- The form of dates, in the letters of format strings. -/
def dateFormat : String := "%Y-%m-%d"

/-- The form of times. `%.f` is a fraction of as many digits as needed. -/
def timeFormat : String := dateFormat ++ "T%H:%M:%S%.f"

/-- A year has four digits at least, and a sign beyond these. -/
def yearChars (y : Int) : List Char :=
  if y < 0 then '-' :: padded 4 y.natAbs
  else if y > 9999 then '+' :: padded 4 y.natAbs
  else padded 4 y.natAbs

def Date.chars (d : Date) : List Char :=
  yearChars d.year ++ '-' :: padded 2 d.month ++ '-' :: padded 2 d.day

/-- The fraction of a second. -/
def fractionChars (nanos : Nat) : List Char :=
  if nanos = 0 then []
  else if nanos % 1000000 = 0 then '.' :: lastDigits 3 (nanos / 1000000)
  else if nanos % 1000 = 0 then '.' :: lastDigits 6 (nanos / 1000)
  else '.' :: lastDigits 9 nanos

def Clock.chars (c : Clock) : List Char :=
  padded 2 c.hour ++ ':' :: padded 2 c.minute ++ ':' :: padded 2 c.second ++ fractionChars c.nanos

/-- The date of an instant. -/
def dateText (n : Int) : String := String.ofList (dateAt n).chars

/-- The date and time of an instant. -/
def timeText (n : Int) : String :=
  String.ofList ((dateAt n).chars ++ 'T' :: (clockAt n).chars)

end Querent.Calendar
