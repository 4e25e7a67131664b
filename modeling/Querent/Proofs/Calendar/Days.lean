import Mathlib.Data.Int.Init
import Mathlib.Order.Monotone.Basic
import Querent.Calendar.Instant

/-!
# Counting days

The count of days is the one that goes up by one from each date to the next, and every
count belongs to one date. Dates are found from their counts, and follow each other in the
order of year, month and day.
-/

namespace Querent.Calendar

variable {y : Int} {m n : Nat} {d e : Date}

/-! ## Months -/

theorem daysInMonth_bounds (y : Int) (m : Nat) : 28 ≤ daysInMonth y m ∧ daysInMonth y m ≤ 31 := by
  unfold daysInMonth
  split
  · split <;> decide
  all_goals decide

theorem daysBeforeMonth_succ (h : 1 ≤ m) :
    daysBeforeMonth y (m + 1) = daysBeforeMonth y m + daysInMonth y m := by
  cases m with
  | zero => cases h
  | succ m => rfl

theorem daysBeforeMonth_mono (y : Int) : Monotone (daysBeforeMonth y) := by
  refine monotone_nat_of_le_succ fun m => ?_
  cases m with
  | zero => exact Nat.le_refl 0
  | succ m => exact Nat.le_add_right _ _

/-- Days of a year. -/
theorem daysBeforeMonth_thirteen (y : Int) :
    daysBeforeMonth y 13 = if isLeap y then 366 else 365 := by
  simp only [daysBeforeMonth, daysInMonth]
  split <;> rfl

theorem monthAt_spec (h : n < daysBeforeMonth y (m + 1)) (hm : 1 ≤ m) :
    1 ≤ monthAt y n m ∧ monthAt y n m ≤ m ∧ daysBeforeMonth y (monthAt y n m) ≤ n ∧
      n < daysBeforeMonth y (monthAt y n m + 1) := by
  induction m with
  | zero => cases hm
  | succ m ih =>
    unfold monthAt
    split_ifs with hle
    · exact ⟨hm, Nat.le_refl _, hle, h⟩
    · have hm' : 1 ≤ m := by
        cases m with
        | zero => exact absurd (Nat.zero_le n) hle
        | succ m => exact Nat.succ_pos m
      obtain ⟨h1, h2, h3, h4⟩ := ih (Nat.lt_of_not_le hle) hm'
      exact ⟨h1, Nat.le_succ_of_le h2, h3, h4⟩

/-! ## Years -/

theorem daysBeforeYear_succ (y : Int) :
    daysBeforeYear (y + 1) = daysBeforeYear y + daysBeforeMonth y 13 := by
  rw [daysBeforeMonth_thirteen]
  unfold daysBeforeYear isLeap
  dsimp only
  split_ifs with h <;> simp at h <;> omega

theorem daysBeforeYear_mono {z : Int} (h : y ≤ z) : daysBeforeYear y ≤ daysBeforeYear z := by
  refine monotone_int_of_le_succ (fun y => ?_) h
  rw [daysBeforeYear_succ]
  exact Int.le_add_of_nonneg_right (Int.natCast_nonneg _)

/-! Years by cycles of 400, centuries, groups of four and the years in these. -/

section Cycles

variable {cycle : Int} {century group one : Nat}

theorem daysBeforeYear_of_cycle (hc : century ≤ 3) (hg : group ≤ 24) (ho : one ≤ 3) :
    daysBeforeYear (400 * cycle + 100 * century + 4 * group + one + 1) =
      146097 * cycle + 36524 * century + 1461 * group + 365 * one := by
  unfold daysBeforeYear
  dsimp only
  omega

theorem isLeap_of_cycle (hc : century ≤ 3) (hg : group ≤ 24) (ho : one ≤ 3) :
    isLeap (400 * cycle + 100 * century + 4 * group + one + 1) ↔
      one = 3 ∧ (group < 24 ∨ century = 3) := by
  simp only [isLeap, Bool.and_eq_true, Bool.or_eq_true, decide_eq_true_eq, ne_eq]
  omega

end Cycles

theorem yearAt_spec (k : Int) :
    daysBeforeYear (yearAt k).1 + (yearAt k).2 = k ∧
      (yearAt k).2 < daysBeforeMonth (yearAt k).1 13 := by
  unfold yearAt
  dsimp only
  obtain ⟨century, hcentury⟩ : ∃ x, x = min ((k % 146097).toNat / 36524) 3 := ⟨_, rfl⟩
  obtain ⟨group, hgroup⟩ :
    ∃ x, x = ((k % 146097).toNat - century * 36524) / 1461 := ⟨_, rfl⟩
  obtain ⟨one, hone⟩ :
    ∃ x, x = min (((k % 146097).toNat - century * 36524) % 1461 / 365) 3 := ⟨_, rfl⟩
  rw [← hcentury, ← hgroup, ← hone]
  have hc : century ≤ 3 := by omega
  have hg : group ≤ 24 := by omega
  have ho : one ≤ 3 := by omega
  rw [daysBeforeMonth_thirteen, daysBeforeYear_of_cycle hc hg ho]
  have hleap : isLeap (400 * (k / 146097) + 100 * century + 4 * group + one + 1) ↔ _ :=
    isLeap_of_cycle hc hg ho
  constructor
  · omega
  · split_ifs with h
    · omega
    · rw [hleap] at h
      omega

/-! ## Dates -/

namespace Date

theorem isValid_iff :
    d.isValid ↔ (1 ≤ d.month ∧ d.month ≤ 12) ∧ 1 ≤ d.day ∧ d.day ≤ daysInMonth d.year d.month := by
  simp [isValid, and_assoc]

theorem ofDayNumber_spec (k : Int) :
    (ofDayNumber k).isValid ∧ (ofDayNumber k).dayNumber = k := by
  obtain ⟨hyear, hday⟩ := yearAt_spec k
  obtain ⟨hm1, hm12, hle, hlt⟩ := monthAt_spec (m := 12) hday (by decide)
  rw [daysBeforeMonth_succ hm1] at hlt
  constructor
  · rw [isValid_iff]
    dsimp only [ofDayNumber, ofDayOfYear]
    omega
  · dsimp only [dayNumber, ofDayNumber, ofDayOfYear]
    omega

theorem isValid_ofDayNumber (k : Int) : (ofDayNumber k).isValid := (ofDayNumber_spec k).1

theorem dayNumber_ofDayNumber (k : Int) : (ofDayNumber k).dayNumber = k := (ofDayNumber_spec k).2

/-- Year, month and day, by which dates are ordered. -/
def parts (d : Date) : List Int := [d.year, d.month, d.day]

theorem parts_lt_iff :
    d.parts < e.parts ↔ d.year < e.year ∨ d.year = e.year ∧
      (d.month < e.month ∨ d.month = e.month ∧ d.day < e.day) := by
  simp only [parts, List.cons_lt_cons_iff, List.not_lt_nil, and_false, or_false, Int.ofNat_lt,
    Int.natCast_inj]

/-- A day lies in its month. -/
theorem dayNumber_in_month (h : d.isValid) :
    daysBeforeYear d.year + daysBeforeMonth d.year d.month ≤ d.dayNumber ∧
      d.dayNumber < daysBeforeYear d.year + daysBeforeMonth d.year (d.month + 1) := by
  obtain ⟨⟨hm, -⟩, hday⟩ := isValid_iff.mp h
  rw [daysBeforeMonth_succ hm]
  unfold dayNumber
  omega

/-- A day lies in its year. -/
theorem dayNumber_in_year (h : d.isValid) :
    daysBeforeYear d.year ≤ d.dayNumber ∧ d.dayNumber < daysBeforeYear (d.year + 1) := by
  obtain ⟨hge, hlt⟩ := dayNumber_in_month h
  obtain ⟨⟨-, hm⟩, -⟩ := isValid_iff.mp h
  have hmono : daysBeforeMonth d.year (d.month + 1) ≤ daysBeforeMonth d.year 13 :=
    daysBeforeMonth_mono d.year (Nat.succ_le_succ hm)
  rw [daysBeforeYear_succ]
  omega

/-- Later dates have greater counts. -/
theorem dayNumber_lt (hd : d.isValid) (he : e.isValid) (h : d.parts < e.parts) :
    d.dayNumber < e.dayNumber := by
  rcases parts_lt_iff.mp h with hyear | ⟨hyear, hmonth | ⟨hmonth, hday⟩⟩
  · calc d.dayNumber < daysBeforeYear (d.year + 1) := (dayNumber_in_year hd).2
      _ ≤ daysBeforeYear e.year := daysBeforeYear_mono hyear
      _ ≤ e.dayNumber := (dayNumber_in_year he).1
  · have hmono : daysBeforeMonth e.year (d.month + 1) ≤ daysBeforeMonth e.year e.month :=
      daysBeforeMonth_mono e.year hmonth
    have hdm := (dayNumber_in_month hd).2
    have hem := (dayNumber_in_month he).1
    rw [hyear] at hdm
    omega
  · unfold dayNumber
    rw [hyear, hmonth]
    omega

theorem dayNumber_injective (hd : d.isValid) (he : e.isValid) (h : d.dayNumber = e.dayNumber) :
    d = e := by
  have hde : ¬ d.parts < e.parts := fun hlt => (dayNumber_lt hd he hlt).ne h
  have hed : ¬ e.parts < d.parts := fun hlt => (dayNumber_lt he hd hlt).ne h.symm
  rw [parts_lt_iff] at hde hed
  obtain ⟨year, month, day⟩ := d
  obtain ⟨year', month', day'⟩ := e
  dsimp only at hde hed
  have : year = year' ∧ month = month' ∧ day = day' := by omega
  obtain ⟨rfl, rfl, rfl⟩ := this
  rfl

theorem ofDayNumber_dayNumber (h : d.isValid) : ofDayNumber d.dayNumber = d :=
  dayNumber_injective (isValid_ofDayNumber _) h (dayNumber_ofDayNumber _)

/-- The date of the day after. -/
def next (d : Date) : Date :=
  if d.day < daysInMonth d.year d.month then ⟨d.year, d.month, d.day + 1⟩
  else if d.month < 12 then ⟨d.year, d.month + 1, 1⟩
  else ⟨d.year + 1, 1, 1⟩

theorem next_spec (h : d.isValid) : d.next.isValid ∧ d.next.dayNumber = d.dayNumber + 1 := by
  obtain ⟨⟨hm1, hm12⟩, hd1, hd⟩ := isValid_iff.mp h
  rw [isValid_iff]
  unfold next dayNumber
  split_ifs with hday hmonth
  · dsimp only
    omega
  · have hlength := daysInMonth_bounds d.year (d.month + 1)
    have hmonths := daysBeforeMonth_succ (y := d.year) hm1
    dsimp only
    omega
  · obtain ⟨year, month, day⟩ := d
    obtain rfl : month = 12 := Nat.le_antisymm hm12 (Nat.le_of_not_lt hmonth)
    have hlength := daysInMonth_bounds (year + 1) 1
    have hyears := daysBeforeYear_succ year
    have hmonths : daysBeforeMonth year 13 = daysBeforeMonth year 12 + daysInMonth year 12 :=
      daysBeforeMonth_succ hm1
    have hfirst : daysBeforeMonth (year + 1) 1 = 0 := rfl
    dsimp only at hday hd hd1 ⊢
    omega

theorem next_ofDayNumber (k : Int) : (ofDayNumber k).next = ofDayNumber (k + 1) := by
  obtain ⟨hvalid, hnumber⟩ := next_spec (isValid_ofDayNumber k)
  refine dayNumber_injective hvalid (isValid_ofDayNumber _) ?_
  rw [hnumber, dayNumber_ofDayNumber, dayNumber_ofDayNumber]

end Date

/-! ## Days from the epoch -/

/-- The date is so many days after 1 January 1970, counted from one day to the next and
back again. -/
inductive DaysFromEpoch : Date → Int → Prop where
  | epoch : DaysFromEpoch ⟨1970, 1, 1⟩ 0
  | next {d k} : DaysFromEpoch d k → DaysFromEpoch d.next (k + 1)
  | back {d k} : d.isValid → DaysFromEpoch d.next (k + 1) → DaysFromEpoch d k

theorem daysFromEpoch_ofDayNumber (k : Int) :
    DaysFromEpoch (.ofDayNumber (epochDay + k)) k := by
  induction k using Int.induction_on with
  | zero => exact .epoch
  | succ k ih =>
    rw [← Int.add_assoc, ← Date.next_ofDayNumber]
    exact ih.next
  | pred k ih =>
    refine .back (Date.isValid_ofDayNumber _) ?_
    rw [Date.next_ofDayNumber, Int.add_assoc, Int.sub_add_cancel]
    exact ih

/-- Counting from day to day comes to every date, and to its day number. -/
theorem daysFromEpoch_iff {k : Int} :
    DaysFromEpoch d k ↔ d.isValid ∧ d.dayNumber = epochDay + k := by
  constructor
  · intro h
    induction h with
    | epoch => decide
    | next _ ih =>
      obtain ⟨hvalid, hnumber⟩ := Date.next_spec ih.1
      exact ⟨hvalid, by omega⟩
    | back hvalid _ ih =>
      have hnumber := (Date.next_spec hvalid).2
      exact ⟨hvalid, by omega⟩
  · rintro ⟨hvalid, hnumber⟩
    rw [← Date.ofDayNumber_dayNumber hvalid, hnumber]
    exact daysFromEpoch_ofDayNumber k

theorem daysFromEpoch_of_isValid (h : d.isValid) : DaysFromEpoch d (d.dayNumber - epochDay) :=
  daysFromEpoch_iff.mpr ⟨h, by omega⟩

end Querent.Calendar
