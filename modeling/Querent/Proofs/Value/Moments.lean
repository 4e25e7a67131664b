import Mathlib.Order.Bounds.Defs
import Querent.Proofs.Calendar.Writing
import Querent.Proofs.Number.Word
import Querent.Value.Text

/-!
# Dates and times of values

A time is a count of nanoseconds in 64 bits. It is told apart into seconds and a rest,
written with its date in the calendar, and read back, all without loss. A date is written
as the day that it lies in, so that the first instant of that day is read back; of the
first day that 64 bits reach into there is no such instant.
-/

namespace Querent

open Calendar Decimal

namespace Value

/-! ## Written forms -/

/-- The text writes the date that is `days` after the epoch, as `yyyy-mm-dd`. -/
def WritesDate (days : Int) (text : String) : Prop :=
  ∃ d : Date, DaysFromEpoch d days ∧ 1677 ≤ d.year ∧ d.year ≤ 2262 ∧
    text = String.ofList (plainDate d)

/-- The text writes the date and the time of day that are so many seconds and nanoseconds
after the epoch, as `yyyy-mm-ddThh:mm:ss` and a fraction. -/
def WritesTime (seconds : Int) (nanos : Nat) (text : String) : Prop :=
  ∃ (d : Date) (hour minute second : Nat) (ds : List Char),
    DaysFromEpoch d (seconds / 86400) ∧ 1677 ≤ d.year ∧ d.year ≤ 2262 ∧
    hour < 24 ∧ minute < 60 ∧ second < 60 ∧
    ((hour * 60 + minute) * 60 + second : Nat) = seconds % 86400 ∧ Fraction nanos ds ∧
    text = String.ofList
      (plainDate d ++ 'T' :: (plainClock hour minute second ++ fractionOf ds))

theorem instantText_toInt (write : Int → String) (n : Int64) :
    instantText write n.toInt = write n.toInt := by
  unfold instantText
  rw [moment?_toInt]

theorem display_date (n : Int64) : (date n).display = dateText n.toInt := instantText_toInt _ n

theorem display_time (n : Int64) : (time n).display = timeText n.toInt := instantText_toInt _ n

theorem chars_dateAt (n : Int64) : (dateAt n.toInt).chars = plainDate (dateAt n.toInt) := by
  obtain ⟨hlow, hhigh⟩ := year_dateAt_toInt n
  exact Date.chars_plain (isValid_dateAt _) (by omega) (by omega)

theorem display_writesDate (n : Int64) :
    WritesDate (n.toInt / nanosPerDay) (date n).display := by
  obtain ⟨hlow, hhigh⟩ := year_dateAt_toInt n
  refine ⟨_, daysFromEpoch_dateAt n.toInt, hlow, hhigh, ?_⟩
  rw [display_date, dateText, chars_dateAt]

theorem display_writesTime (n : Int64) :
    WritesTime (n.toInt / 1000000000) (n.toInt % 1000000000).toNat (time n).display := by
  obtain ⟨hlow, hhigh⟩ := year_dateAt_toInt n
  obtain ⟨hvalid, hnanos, hclock⟩ := clockAt_spec n.toInt
  obtain ⟨hhour, hminute, hsecond⟩ := Clock.isValid_iff.mp hvalid
  obtain ⟨ds, hchars, hds⟩ := fractionChars_spec hnanos
  have hday : n.toInt / nanosPerDay = n.toInt / 1000000000 / 86400 := by
    unfold nanosPerDay nanosPerSecond
    omega
  unfold Clock.seconds nanosPerDay nanosPerSecond at hclock
  have hrest : (clockAt n.toInt).nanos = (n.toInt % 1000000000).toNat := by omega
  refine ⟨_, _, _, _, ds, hday ▸ daysFromEpoch_dateAt n.toInt, hlow, hhigh, hhour, hminute,
    hsecond, ?_, hrest ▸ hds, ?_⟩
  · omega
  · rw [display_time, timeText, chars_dateAt, Clock.chars_plain hvalid, hchars]

/-! ## Reading back -/

theorem readTime?_display_time (n : Int64) : readTime? (time n).display = some (time n) := by
  unfold readTime?
  rw [display_time, readDateTime?_timeText]
  exact congrArg (Option.map time) (int64?_toInt n)

theorem readDate?_display_date (n : Int64) :
    readDate? (date n).display = dateAt? (n.toInt / nanosPerDay * nanosPerDay) := by
  unfold readDate?
  rw [display_date, Calendar.readDate?_dateText]
  rfl

theorem readTime?_display_date (n : Int64) :
    readTime? (date n).display = timeAt? (n.toInt / nanosPerDay * nanosPerDay) := by
  unfold readTime?
  rw [display_date, readDateTime?_dateText, Calendar.readDate?_dateText]
  rfl

/-- **Times are read back as written.** Every count of nanoseconds has its seconds and the
rest, and comes back from them; and the written form, in the calendar and with a fraction
of three, six, nine or no digits, is read as the same count. -/
theorem time_read_back (n : Int64) :
    (∃ (s : Int) (f : Nat), (time n).asInstant? = some (s, f) ∧
      s * 1000000000 + f = n.toInt ∧ f < 1000000000 ∧
      timeAt? (s * 1000000000 + f) = some (time n) ∧ WritesTime s f (time n).display) ∧
    readTime? (time n).display = some (time n) := by
  have hsum : n.toInt / 1000000000 * 1000000000 + (n.toInt % 1000000000).toNat = n.toInt := by
    omega
  refine ⟨⟨_, _, moment?_toInt n, hsum, ?_, ?_, display_writesTime n⟩, readTime?_display_time n⟩
  · show (n.toInt % 1000000000).toNat < 1000000000
    omega
  · show timeAt? (n.toInt / 1000000000 * 1000000000 + (n.toInt % 1000000000).toNat) = _
    rw [hsum]
    exact congrArg (Option.map time) (int64?_toInt n)

/-- The last midnight up to an instant. -/
theorem isGreatest_midnight (k : Int) :
    IsGreatest {m | nanosPerDay ∣ m ∧ m ≤ k} (k / nanosPerDay * nanosPerDay) := by
  constructor
  · refine ⟨Int.dvd_mul_left _ _, ?_⟩
    unfold nanosPerDay nanosPerSecond
    omega
  · rintro m ⟨⟨q, rfl⟩, hle⟩
    unfold nanosPerDay nanosPerSecond at *
    omega

/-- A date whose midnight 64 bits can count is read as that. -/
theorem read_midnight {n k : Int64} (hk : k.toInt = n.toInt / nanosPerDay * nanosPerDay) :
    readDate? (date n).display = some (date k) ∧ readTime? (date n).display = some (time k) := by
  rw [readDate?_display_date, readTime?_display_date, ← hk]
  exact ⟨congrArg (Option.map date) (int64?_toInt k), congrArg (Option.map time) (int64?_toInt k)⟩

/-- **Dates are read back as the day they lie in.** With `d` the last midnight up to a date,
its written form is that of the day, and is read as `d` if 64 bits can count it; if not, the
date lies in the first day that they reach into, and nothing is read. -/
theorem date_read_back (n : Int64) :
    ∃ d : Int, IsGreatest {m | nanosPerDay ∣ m ∧ m ≤ n.toInt} d ∧
      WritesDate (d / nanosPerDay) (date n).display ∧
      ((∃ k : Int64, k.toInt = d ∧ readDate? (date n).display = some (date k) ∧
          readTime? (date n).display = some (time k)) ∨
        ((∀ k : Int64, k.toInt ≠ d) ∧ n.toInt < -106751 * nanosPerDay ∧
          readDate? (date n).display = none ∧ readTime? (date n).display = none)) ∧
      (nanosPerDay ∣ n.toInt → readDate? (date n).display = some (date n)) := by
  obtain ⟨d, hd⟩ : ∃ d, d = n.toInt / nanosPerDay * nanosPerDay := ⟨_, rfl⟩
  have hday : d / nanosPerDay = n.toInt / nanosPerDay := by
    rw [hd]
    exact Int.mul_ediv_cancel _ (by decide)
  refine ⟨d, hd ▸ isGreatest_midnight n.toInt, hday ▸ display_writesDate n, ?_, ?_⟩
  · cases hfits : int64? d with
    | some k =>
      have hk : k.toInt = d := int64?_eq_some_iff.mp hfits
      exact Or.inl ⟨k, hk, read_midnight (hk.trans hd)⟩
    | none =>
      refine Or.inr ⟨?_, ?_, ?_, ?_⟩
      · intro k hk
        rw [int64?_eq_some_iff.mpr hk] at hfits
        cases hfits
      · have hhigh := n.toInt_lt
        have hout := int64?_eq_none_iff.mp hfits
        unfold nanosPerDay nanosPerSecond at *
        omega
      · rw [readDate?_display_date, ← hd]
        exact congrArg (Option.map date) hfits
      · rw [readTime?_display_date, ← hd]
        exact congrArg (Option.map time) hfits
  · intro hdvd
    exact (read_midnight (Int.ediv_mul_cancel hdvd).symm).1

/-- The first day is only reached from its hour 0:12:43 on, and is not read back; the next
midnight is. -/
theorem date_read_back_first_days :
    readDate? (date Int64.minValue).display = none ∧
      nanosPerDay ∣ (Int64.ofInt (-106751 * nanosPerDay)).toInt ∧
      readDate? (date (Int64.ofInt (-106751 * nanosPerDay))).display =
        some (date (Int64.ofInt (-106751 * nanosPerDay))) := by
  obtain ⟨d, hd, -, hread, -⟩ := date_read_back Int64.minValue
  obtain ⟨-, -, -, -, hmidnight⟩ := date_read_back (Int64.ofInt (-106751 * nanosPerDay))
  have hdvd : nanosPerDay ∣ (Int64.ofInt (-106751 * nanosPerDay)).toInt := by decide
  refine ⟨?_, hdvd, hmidnight hdvd⟩
  rcases hread with ⟨k, hk, -⟩ | ⟨-, -, hnone, -⟩
  · -- the midnight before is out of reach
    have hlow := k.le_toInt
    obtain ⟨⟨q, hq⟩, hle⟩ := hd.1
    have hmin : Int64.minValue.toInt = -9223372036854775808 := rfl
    unfold nanosPerDay nanosPerSecond at hq
    omega
  · exact hnone

end Value

end Querent
