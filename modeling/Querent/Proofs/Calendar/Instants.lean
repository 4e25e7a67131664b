import Querent.Proofs.Calendar.Days

/-!
# Instants, dates and times of day

An instant is the time of day that it has, on its date; a date begins at the last midnight
that is not after any of its instants. Instants that 64 bits can count lie in the years
from 1677 to 2262.
-/

namespace Querent.Calendar

variable {n : Int} {d e : Date} {c : Clock}

/-! ## Taking instants apart -/

theorem isValid_dateAt (n : Int) : (dateAt n).isValid := Date.isValid_ofDayNumber _

theorem dayNumber_dateAt (n : Int) : (dateAt n).dayNumber = n / nanosPerDay + epochDay :=
  Date.dayNumber_ofDayNumber _

theorem Clock.isValid_iff : c.isValid ↔ c.hour < 24 ∧ c.minute < 60 ∧ c.second < 60 := by
  simp [isValid, and_assoc]

theorem clockAt_spec (n : Int) :
    (clockAt n).isValid ∧ (clockAt n).nanos < 1000000000 ∧
      (clockAt n).seconds * 1000000000 + (clockAt n).nanos = (n % nanosPerDay).toNat := by
  rw [Clock.isValid_iff]
  unfold clockAt Clock.seconds nanosPerDay nanosPerSecond
  dsimp only
  omega

theorem instant_dateAt_clockAt (n : Int) : instant (dateAt n) (clockAt n) = n := by
  have hclock := (clockAt_spec n).2.2
  unfold instant
  rw [dayNumber_dateAt]
  unfold nanosPerDay nanosPerSecond at *
  omega

theorem instant_dateAt_midnight (n : Int) :
    instant (dateAt n) midnight = n / nanosPerDay * nanosPerDay := by
  unfold instant
  rw [dayNumber_dateAt]
  unfold nanosPerDay nanosPerSecond
  dsimp only [midnight, Clock.seconds]
  omega

/-! ## Putting instants together -/

/-- A time of day is less than a day. -/
theorem clock_lt (hc : c.isValid) (hn : c.nanos < 1000000000) :
    c.seconds * nanosPerSecond + c.nanos < nanosPerDay := by
  obtain ⟨hhour, hminute, hsecond⟩ := Clock.isValid_iff.mp hc
  unfold Clock.seconds nanosPerDay nanosPerSecond
  omega

theorem instant_div (hc : c.isValid) (hn : c.nanos < 1000000000) :
    instant d c / nanosPerDay = d.dayNumber - epochDay := by
  have hlt := clock_lt hc hn
  unfold instant nanosPerDay nanosPerSecond at *
  omega

theorem dateAt_instant (hd : d.isValid) (hc : c.isValid) (hn : c.nanos < 1000000000) :
    dateAt (instant d c) = d := by
  unfold dateAt
  rw [instant_div hc hn, Int.sub_add_cancel, Date.ofDayNumber_dayNumber hd]

theorem instant_of_daysFromEpoch {k : Int} (h : DaysFromEpoch d k) :
    instant d c = k * nanosPerDay + c.seconds * nanosPerSecond + c.nanos := by
  unfold instant
  rw [(daysFromEpoch_iff.mp h).2, Int.add_comm epochDay, Int.add_sub_cancel]

/-- A time of an earlier date is earlier, whatever the times of day. -/
theorem instant_lt {c' : Clock} (hd : d.isValid) (he : e.isValid) (hc : c.isValid)
    (hn : c.nanos < 1000000000) (h : d.parts < e.parts) : instant d c < instant e c' := by
  have hdays := Date.dayNumber_lt hd he h
  have hclock := clock_lt hc hn
  unfold instant nanosPerDay nanosPerSecond at *
  omega

/-! ## The years of 64 bits -/

theorem daysFromEpoch_dateAt (n : Int) : DaysFromEpoch (dateAt n) (n / nanosPerDay) := by
  rw [daysFromEpoch_iff]
  exact ⟨isValid_dateAt n, by rw [dayNumber_dateAt, Int.add_comm]⟩

theorem year_dateAt_toInt (n : Int64) :
    1677 ≤ (dateAt n.toInt).year ∧ (dateAt n.toInt).year ≤ 2262 := by
  have hlow := n.le_toInt
  have hhigh := n.toInt_lt
  have hdays := dayNumber_dateAt n.toInt
  obtain ⟨hge, hlt⟩ := Date.dayNumber_in_year (isValid_dateAt n.toInt)
  generalize dateAt n.toInt = d at *
  unfold daysBeforeYear nanosPerDay nanosPerSecond epochDay at *
  dsimp only at *
  omega

/-- Every instant that 64 bits can count has a date. -/
theorem moment?_toInt (n : Int64) : moment? n.toInt = some (secondsAndRest n.toInt) := by
  have hyear := year_dateAt_toInt n
  unfold moment? firstYear lastYear
  exact if_pos (by omega)

end Querent.Calendar
