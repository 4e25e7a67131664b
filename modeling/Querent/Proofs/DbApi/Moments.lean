import Querent.DbApi.Moment
import Querent.Proofs.Value.Moments

/-!
# Constructors of dates and times

A date is made of its parts exactly if the calendar has it and 64 bits can count its
midnight; a time if the calendar has its date, the clock its time of day, and 64 bits can
count the instant. Both follow the order of the parts.
-/

namespace Querent.DbApi

open Calendar

variable {year year' : Int} {month month' day day' : Nat}
  {hour hour' minute minute' second second' : Nat} {v : Value} {n m : Int64}

/-! ## What is made -/

/-- `n` counts the nanoseconds from the epoch to the date. -/
def IsDate (year : Int) (month day : Nat) (n : Int64) : Prop :=
  ∃ k, DaysFromEpoch ⟨year, month, day⟩ k ∧ n.toInt = k * nanosPerDay

/-- `n` counts the nanoseconds from the epoch to the time of day on the date. -/
def IsTimestamp (year : Int) (month day hour minute second : Nat) (n : Int64) : Prop :=
  ∃ k, DaysFromEpoch ⟨year, month, day⟩ k ∧ hour < 24 ∧ minute < 60 ∧ second < 60 ∧
    n.toInt = k * nanosPerDay + ((hour * 60 + minute) * 60 + second : Nat) * 1000000000

theorem isDate_iff :
    IsDate year month day n ↔ (Date.mk year month day).isValid ∧
      n.toInt = instant ⟨year, month, day⟩ midnight := by
  constructor
  · rintro ⟨k, hk, hn⟩
    refine ⟨(daysFromEpoch_iff.mp hk).1, ?_⟩
    rw [instant_of_daysFromEpoch hk, hn]
    simp [midnight, Clock.seconds]
  · rintro ⟨hvalid, hn⟩
    have hk := daysFromEpoch_of_isValid hvalid
    refine ⟨_, hk, ?_⟩
    rw [hn, instant_of_daysFromEpoch hk]
    simp [midnight, Clock.seconds]

theorem isTimestamp_iff :
    IsTimestamp year month day hour minute second n ↔
      ((Date.mk year month day).isValid ∧ (Clock.mk hour minute second 0).isValid) ∧
        n.toInt = instant ⟨year, month, day⟩ ⟨hour, minute, second, 0⟩ := by
  rw [Clock.isValid_iff]
  constructor
  · rintro ⟨k, hk, hhour, hminute, hsecond, hn⟩
    refine ⟨⟨(daysFromEpoch_iff.mp hk).1, hhour, hminute, hsecond⟩, ?_⟩
    rw [instant_of_daysFromEpoch hk, hn]
    exact (Int.add_zero _).symm
  · rintro ⟨⟨hvalid, hhour, hminute, hsecond⟩, hn⟩
    have hk := daysFromEpoch_of_isValid hvalid
    refine ⟨_, hk, hhour, hminute, hsecond, ?_⟩
    rw [hn, instant_of_daysFromEpoch hk]
    exact Int.add_zero _

/-- What the constructors have in common: valid parts, and an instant that fits. -/
theorem made_ok_iff {valid : Bool} {k : Int} {make : Int64 → Value} {e : Error} :
    (match if valid then (int64? k).map make else none with
      | some v => Except.ok v
      | none => .error e) = .ok v ↔ valid ∧ ∃ n : Int64, n.toInt = k ∧ v = make n := by
  cases valid with
  | false => simp
  | true =>
    rw [if_pos rfl]
    cases hfits : int64? k with
    | none =>
      have hno : ∀ n : Int64, n.toInt ≠ k := by
        intro n hn
        rw [int64?_eq_some_iff.mpr hn] at hfits
        cases hfits
      simp [hno]
    | some n =>
      have hn : n.toInt = k := int64?_eq_some_iff.mp hfits
      constructor
      · rintro ⟨rfl⟩
        exact ⟨rfl, n, hn, rfl⟩
      · rintro ⟨-, n', hn', rfl⟩
        rw [Int64.toInt_inj.mp (hn'.trans hn.symm)]
        rfl

theorem date_ok_iff : date year month day = .ok v ↔ ∃ n, IsDate year month day n ∧ v = .date n := by
  refine made_ok_iff.trans ?_
  simp only [isDate_iff, and_assoc, exists_and_left]

theorem timestamp_ok_iff :
    timestamp year month day hour minute second = .ok v ↔
      ∃ n, IsTimestamp year month day hour minute second n ∧ v = .time n := by
  refine made_ok_iff.trans ?_
  simp only [isTimestamp_iff, and_assoc, exists_and_left, Bool.and_eq_true]

theorem isDate_of_ok (h : date year month day = .ok (.date n)) : IsDate year month day n := by
  obtain ⟨n', hn', heq⟩ := date_ok_iff.mp h
  cases heq
  exact hn'

theorem isTimestamp_of_ok (h : timestamp year month day hour minute second = .ok (.time n)) :
    IsTimestamp year month day hour minute second n := by
  obtain ⟨n', hn', heq⟩ := timestamp_ok_iff.mp h
  cases heq
  exact hn'

/-- Constructors fail for one reason only, and that is their data. -/
theorem made_error {x : Option Value} {e e' : Error} (he : e.cls = .data)
    (h : (match x with
      | some v => Except.ok v
      | none => .error e) = .error e') : e' = e ∧ e'.cls = .data := by
  cases x with
  | some v => cases h
  | none =>
    cases h
    exact ⟨rfl, he⟩

theorem date_error {e : Error} (h : date year month day = .error e) :
    e = .invalidDate year month day ∧ e.cls = .data := made_error rfl h

theorem timestamp_error {e : Error}
    (h : timestamp year month day hour minute second = .error e) :
    e = .invalidTimestamp year month day hour minute second ∧ e.cls = .data := made_error rfl h

/-! ## Order -/

theorem IsTimestamp.eq_add (hm : IsTimestamp year month day hour minute second m)
    (hn : IsDate year month day n) :
    m.toInt = n.toInt + ((hour * 60 + minute) * 60 + second : Nat) * 1000000000 := by
  obtain ⟨k, hk, -, -, -, hm⟩ := hm
  obtain ⟨k', hk', hn⟩ := hn
  have hnumber := (daysFromEpoch_iff.mp hk).2
  have hnumber' := (daysFromEpoch_iff.mp hk').2
  obtain rfl : k = k' := by omega
  rw [hm, hn]

theorem IsDate.lt (hn : IsDate year month day n) (hm : IsDate year' month' day' m)
    (h : ([year, month, day] : List Int) < [year', month', day']) : n.toInt < m.toInt := by
  obtain ⟨hvalid, hn⟩ := isDate_iff.mp hn
  obtain ⟨hvalid', hm⟩ := isDate_iff.mp hm
  rw [hn, hm]
  exact instant_lt hvalid hvalid' (by decide) (by decide) h

/-- A list of parts is below another one by its date, or by its time of day on the same
date. -/
theorem six_parts_lt_iff :
    ([year, month, day, hour, minute, second] : List Int) <
        [year', month', day', hour', minute', second'] ↔
      (Date.mk year month day).parts < (Date.mk year' month' day').parts ∨
        (year = year' ∧ month = month' ∧ day = day') ∧
          (hour < hour' ∨ hour = hour' ∧
            (minute < minute' ∨ minute = minute' ∧ second < second')) := by
  rw [Date.parts_lt_iff]
  simp only [List.cons_lt_cons_iff, List.not_lt_nil, and_false, or_false, Int.ofNat_lt,
    Int.natCast_inj]
  omega

theorem IsTimestamp.lt (hn : IsTimestamp year month day hour minute second n)
    (hm : IsTimestamp year' month' day' hour' minute' second' m)
    (h : ([year, month, day, hour, minute, second] : List Int) <
      [year', month', day', hour', minute', second']) : n.toInt < m.toInt := by
  obtain ⟨⟨hvalid, hclock⟩, hn⟩ := isTimestamp_iff.mp hn
  obtain ⟨⟨hvalid', hclock'⟩, hm⟩ := isTimestamp_iff.mp hm
  rw [hn, hm]
  rcases six_parts_lt_iff.mp h with hdate | ⟨⟨rfl, rfl, rfl⟩, htime⟩
  · exact instant_lt hvalid hvalid' hclock (Nat.zero_lt_succ _) hdate
  · rw [Clock.isValid_iff] at hclock hclock'
    unfold instant Clock.seconds nanosPerDay nanosPerSecond
    dsimp only at *
    omega

/-! ## Written form -/

theorem IsDate.dateAt_eq (hn : IsDate year month day n) :
    dateAt n.toInt = ⟨year, month, day⟩ := by
  obtain ⟨hvalid, hn⟩ := isDate_iff.mp hn
  rw [hn]
  exact dateAt_instant hvalid (by decide) (by decide)

theorem IsDate.display (hn : IsDate year month day n) :
    (1677 ≤ year ∧ year ≤ 2262) ∧
      (Value.date n).display = String.ofList (plainDate ⟨year, month, day⟩) := by
  have hyear := year_dateAt_toInt n
  rw [hn.dateAt_eq] at hyear
  refine ⟨hyear, ?_⟩
  rw [Value.display_date, dateText, Value.chars_dateAt, hn.dateAt_eq]

/-! ## The constructors -/

/-- **Dates and times out of their parts.** What is made is exactly what the calendar, the
clock and 64 bits have room for; a time is its date and the seconds of the day; both grow
with their parts, from the year on; a date is written in the digits of its parts; and only
data is ever at fault. -/
theorem moments_constructed (year : Int) (month day hour minute second : Nat) :
    (∀ v, date year month day = .ok v ↔ ∃ n, IsDate year month day n ∧ v = .date n) ∧
    (∀ v, timestamp year month day hour minute second = .ok v ↔
      ∃ n, IsTimestamp year month day hour minute second n ∧ v = .time n) ∧
    (∀ n m, date year month day = .ok (.date n) →
      timestamp year month day hour minute second = .ok (.time m) →
      m.toInt = n.toInt + ((hour * 60 + minute) * 60 + second : Nat) * 1000000000) ∧
    (∀ year' month' day' n m, date year month day = .ok (.date n) →
      date year' month' day' = .ok (.date m) →
      ([year, month, day] : List Int) < [year', (month' : Nat), (day' : Nat)] →
      n.toInt < m.toInt) ∧
    (∀ year' month' day' hour' minute' second' n m,
      timestamp year month day hour minute second = .ok (.time n) →
      timestamp year' month' day' hour' minute' second' = .ok (.time m) →
      ([year, month, day, hour, minute, second] : List Int) <
        [year', (month' : Nat), (day' : Nat), (hour' : Nat), (minute' : Nat), (second' : Nat)] →
      n.toInt < m.toInt) ∧
    (∀ v, date year month day = .ok v → (1677 ≤ year ∧ year ≤ 2262) ∧
      v.display = String.ofList (plainDate ⟨year, month, day⟩)) ∧
    (∀ e, date year month day = .error e → e = .invalidDate year month day ∧ e.cls = .data) ∧
    (∀ e, timestamp year month day hour minute second = .error e →
      e = .invalidTimestamp year month day hour minute second ∧ e.cls = .data) := by
  refine ⟨fun v => date_ok_iff, fun v => timestamp_ok_iff, ?_, ?_, ?_, ?_,
    fun e => date_error, fun e => timestamp_error⟩
  · intro n m hn hm
    exact (isTimestamp_of_ok hm).eq_add (isDate_of_ok hn)
  · intro year' month' day' n m hn hm hlt
    exact (isDate_of_ok hn).lt (isDate_of_ok hm) hlt
  · intro year' month' day' hour' minute' second' n m hn hm hlt
    exact (isTimestamp_of_ok hn).lt (isTimestamp_of_ok hm) hlt
  · intro v hv
    obtain ⟨n, hn, rfl⟩ := date_ok_iff.mp hv
    exact hn.display

/-- A leap day, its last seconds and the day after; and the ends of what 64 bits count,
which both lie within a day, so that the first day has times but no date. -/
theorem moments_constructed_leap_day :
    (Int64.toInt 1583020798000000000 = Int64.toInt 1582934400000000000 + 86398 * 1000000000 ∧
      Int64.toInt 1582934400000000000 < Int64.toInt 1583020800000000000 ∧
      Int64.toInt 1583020798000000000 < Int64.toInt 1583020799000000000 ∧
      (Value.date 1582934400000000000).display = "2020-02-29") ∧
    (∃ e, date 1677 9 21 = .error e ∧ e.cls = .data) ∧
    (∃ n, IsTimestamp 1677 9 21 0 12 44 n) ∧
    (∃ e, timestamp 2262 4 11 23 47 17 = .error e ∧ e.cls = .data) ∧
    (∃ n, IsDate 2262 4 11 n) := by
  obtain ⟨-, -, hadd, hdate, htime, htext, -, -⟩ := moments_constructed 2020 2 29 23 59 58
  obtain ⟨-, hfirst, -, -, -, -, herror, -⟩ := moments_constructed 1677 9 21 0 12 44
  obtain ⟨hlast, -, -, -, -, -, -, herror'⟩ := moments_constructed 2262 4 11 23 47 17
  have hleap : date 2020 2 29 = .ok (.date 1582934400000000000) := by decide +kernel
  have hmarch : date 2020 3 1 = .ok (.date 1583020800000000000) := by decide +kernel
  have hsecond : timestamp 2020 2 29 23 59 58 = .ok (.time 1583020798000000000) := by
    decide +kernel
  have hnext : timestamp 2020 2 29 23 59 59 = .ok (.time 1583020799000000000) := by
    decide +kernel
  have hlow : timestamp 1677 9 21 0 12 44 = .ok (.time (-9223372036000000000)) := by
    decide +kernel
  have hhigh : date 2262 4 11 = .ok (.date 9223286400000000000) := by decide +kernel
  have hnone : date 1677 9 21 = .error (.invalidDate 1677 9 21) := by decide +kernel
  have hnone' : timestamp 2262 4 11 23 47 17 = .error (.invalidTimestamp 2262 4 11 23 47 17) := by
    decide +kernel
  refine ⟨⟨hadd _ _ hleap hsecond, hdate 2020 3 1 _ _ hleap hmarch (by decide),
    htime 2020 2 29 23 59 59 _ _ hsecond hnext (by decide), ?_⟩,
    ⟨_, hnone, (herror _ hnone).2⟩, ?_, ⟨_, hnone', (herror' _ hnone').2⟩, ?_⟩
  · rw [(htext _ hleap).2]
    decide
  · obtain ⟨n, hn, -⟩ := (hfirst _).mp hlow
    exact ⟨n, hn⟩
  · obtain ⟨n, hn, -⟩ := (hlast _).mp hhigh
    exact ⟨n, hn⟩

end Querent.DbApi
