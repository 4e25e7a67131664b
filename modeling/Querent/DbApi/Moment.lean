import Querent.DbApi.Error
import Querent.Value.Basic

/-!
# Constructors for dates and times

Dates and times out of their parts or out of the seconds since 1970. The result
must be an instant that 64 bits of nanoseconds can count.
-/

namespace Querent.DbApi

open Calendar

/-- A date. -/
def date (year : Int) (month day : Nat) : Except Error Value :=
  let d : Date := ⟨year, month, day⟩
  match if d.isValid then Value.dateAt? (instant d midnight) else none with
  | some v => .ok v
  | none => .error (.invalidDate year month day)

/-- A time of a date, to the second. -/
def timestamp (year : Int) (month day hour minute second : Nat) : Except Error Value :=
  let d : Date := ⟨year, month, day⟩
  let c : Clock := ⟨hour, minute, second, 0⟩
  match if d.isValid && c.isValid then Value.timeAt? (instant d c) else none with
  | some v => .ok v
  | none => .error (.invalidTimestamp year month day hour minute second)

/-- The whole seconds up to `ticks` and the nanoseconds above them, each step
rounded as doubles are. A whole second of nanoseconds can arise; it stands only
at the end of a minute, as a leap second. -/
def splitTicks? (ticks : Binary64) : Option (Int × Nat) := do
  let (seconds, num, den) ← ticks.floorRest?
  let rest := Binary64.ofRatio false num den
  let nanos ← match rest.parts with
    | .finite _ m q =>
      (Binary64.ofRatio false (Binary64.scaleNum m q * 1000000000) (Binary64.scaleDen q)).truncate?
    | _ => none
  if nanos < 1000000000 ∨ seconds % 60 = 59 then some (seconds, nanos.toNat) else none

/-- The date of a count of seconds since 1970. -/
def dateFromTicks (ticks : Binary64) : Except Error Value :=
  match splitTicks? ticks with
  | some (seconds, _) =>
    match Value.dateAt? (seconds / 86400 * nanosPerDay) with
    | some v => .ok v
    | none => .error (.ticksOutOfRange ticks)
  | none => .error (.ticksOutOfRange ticks)

/-- The time of a count of seconds since 1970. -/
def timestampFromTicks (ticks : Binary64) : Except Error Value :=
  match splitTicks? ticks with
  | some (seconds, nanos) =>
    match Value.timeAt? (seconds * nanosPerSecond + nanos) with
    | some v => .ok v
    | none => .error (.ticksOutOfRange ticks)
  | none => .error (.ticksOutOfRange ticks)

end Querent.DbApi
