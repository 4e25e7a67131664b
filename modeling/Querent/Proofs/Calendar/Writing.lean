import Querent.Calendar.Printer
import Querent.Calendar.Reader
import Querent.Proofs.Calendar.Instants
import Querent.Proofs.Number.Digits

/-!
# Reading what is written

Dates and times are read back from their written forms, whatever the year. The written
forms are plain where the year has four digits: each number in as many digits as its place
has, and a fraction of three, six or nine digits or none.
-/

namespace Querent.Calendar

open Decimal Text

variable {ds rest l : List Char} {c : Char} {width n : Nat} {d : Date}

/-! ## Numbers -/

/-- No blanks are skipped in front of digits. -/
theorem trimStart_digits (hds : ∀ c ∈ ds, c.isDigit) (hne : ds ≠ []) (rest : List Char) :
    trimStart (ds ++ rest) = ds ++ rest := by
  cases ds with
  | nil => exact absurd rfl hne
  | cons c ds =>
    have hc : ¬ isBlank c := not_blank_of_isDigit (hds c List.mem_cons_self)
    exact List.dropWhile_cons_of_neg hc

theorem anyDigits?_append (hds : ∀ c ∈ ds, c.isDigit) (hne : ds ≠ [])
    (hrest : ∀ c ∈ rest.head?, ¬ c.isDigit) :
    anyDigits? (ds ++ rest) = some (value ds, rest) := by
  unfold anyDigits?
  rw [takeWhile_digits hds hrest]
  simp [hne]

/-- Digits are read if they are as many as the width, or fewer and all there are. -/
theorem digitsUpTo?_append (hds : ∀ c ∈ ds, c.isDigit) (hne : ds ≠ []) (hle : ds.length ≤ width)
    (hrest : ds.length = width ∨ rest = []) :
    digitsUpTo? width (ds ++ rest) = some (value ds, rest) := by
  have htake : (ds ++ rest).take width = ds := by
    rcases hrest with hlength | hnil
    · exact List.take_left' hlength
    · rw [hnil, List.append_nil, List.take_of_length_le hle]
  have hdigits : ds.takeWhile Char.isDigit = ds := by
    have hnone : ∀ c ∈ ([] : List Char).head?, ¬ c.isDigit := by simp
    simpa using takeWhile_digits hds hnone
  unfold digitsUpTo?
  rw [htake, hdigits]
  simp [hne]

/-- A number that is written in two digits is read. -/
theorem number?_padded (h : n < 100) (rest : List Char) :
    number? 2 (padded 2 n ++ rest) = some (n, rest) := by
  have hlength : (padded 2 n).length = 2 := by
    rw [padded_eq_lastDigits h, length_lastDigits]
  have hds : ∀ c ∈ padded 2 n, c.isDigit := fun c => isDigit_of_mem_padded
  unfold number?
  rw [trimStart_digits hds (padded_ne_nil 2 n),
    digitsUpTo?_append hds (padded_ne_nil 2 n) hlength.le (Or.inl hlength), value_padded]

theorem year?_minus (l : List Char) :
    year? ('-' :: l) = (anyDigits? l).map fun (n, rest) => (-(n : Int), rest) := rfl

theorem year?_plus (l : List Char) :
    year? ('+' :: l) = (anyDigits? l).map fun (n, rest) => ((n : Int), rest) := rfl

/-- A year without a sign has four digits at most. -/
theorem year?_digits (hds : ∀ c ∈ ds, c.isDigit) (hne : ds ≠ []) (rest : List Char) :
    year? (ds ++ rest) = (digitsUpTo? 4 (ds ++ rest)).map fun (n, rest) => ((n : Int), rest) := by
  have htrim := trimStart_digits hds hne rest
  cases ds with
  | nil => exact absurd rfl hne
  | cons c ds =>
    have hc := hds c List.mem_cons_self
    unfold year?
    rw [htrim, List.cons_append]
    split
    · next heq =>
      rw [(List.cons.inj heq).1] at hc
      cases hc
    · next heq =>
      rw [(List.cons.inj heq).1] at hc
      cases hc
    · rfl

theorem year?_yearChars (y : Int) (hrest : ∀ c ∈ rest.head?, ¬ c.isDigit) :
    year? (yearChars y ++ rest) = some (y, rest) := by
  have hds : ∀ c ∈ padded 4 y.natAbs, c.isDigit := fun c => isDigit_of_mem_padded
  have hne : padded 4 y.natAbs ≠ [] := padded_ne_nil 4 _
  have hany : anyDigits? (padded 4 y.natAbs ++ rest) = some (y.natAbs, rest) := by
    rw [anyDigits?_append hds hne hrest, value_padded]
  unfold yearChars
  split_ifs with hneg hbig
  · have hy : -(y.natAbs : Int) = y := by omega
    rw [List.cons_append, year?_minus, hany, Option.map_some]
    exact congrArg (fun y => some (y, rest)) hy
  · have hy : (y.natAbs : Int) = y := by omega
    rw [List.cons_append, year?_plus, hany, Option.map_some]
    exact congrArg (fun y => some (y, rest)) hy
  · have hy : (y.natAbs : Int) = y := by omega
    have hfits : y.natAbs < tenTo 4 := by
      show y.natAbs < 10000
      omega
    have hlength : (padded 4 y.natAbs).length = 4 := by
      rw [padded_eq_lastDigits hfits, length_lastDigits]
    rw [year?_digits hds hne, digitsUpTo?_append hds hne hlength.le (Or.inl hlength),
      value_padded, Option.map_some]
    exact congrArg (fun y => some (y, rest)) hy

/-! ## Dates -/

theorem Date.day_lt (h : d.isValid) : d.month < 100 ∧ d.day < 100 := by
  obtain ⟨⟨-, hmonth⟩, -, hday⟩ := Date.isValid_iff.mp h
  have := daysInMonth_bounds d.year d.month
  omega

theorem after?_cons (c : Char) (l : List Char) : after? c (c :: l) = some l := if_pos rfl

/-- A date is read back, and what follows it is left. -/
theorem date?_chars (h : d.isValid) (rest : List Char) :
    date? (d.chars ++ rest) = some (d, rest) := by
  obtain ⟨hmonth, hday⟩ := Date.day_lt h
  have hdash : ∀ l : List Char, ∀ c ∈ ('-' :: l).head?, ¬ c.isDigit := by
    rintro l c ⟨rfl⟩
    decide
  unfold date? Date.chars
  simp only [List.append_assoc, List.cons_append, Option.bind_eq_bind, Option.bind_some,
    year?_yearChars d.year (hdash _), after?_cons, number?_padded hmonth, number?_padded hday]
  exact if_pos h

/-! ## Times of day -/

/-- A fraction with these digits; none if there are no digits. -/
def fractionOf (ds : List Char) : List Char := if ds = [] then [] else '.' :: ds

/-- Digits that write the fraction of a second: three, six, nine or none. -/
structure Fraction (nanos : Nat) (ds : List Char) : Prop where
  length : ds.length ∈ [0, 3, 6, 9]
  digits : ∀ c ∈ ds, c.isDigit
  value : value ds * tenTo (9 - ds.length) = nanos

theorem fraction_lastDigits {nanos k : Nat} (hk : k ∈ [0, 3, 6, 9]) (hlt : nanos < 1000000000)
    (hmod : nanos % tenTo (9 - k) = 0) :
    Fraction nanos (lastDigits k (nanos / tenTo (9 - k))) := by
  have hle : k ≤ 9 := by
    simp only [List.mem_cons, List.not_mem_nil, or_false] at hk
    omega
  have htotal : tenTo (9 - k) * tenTo k = 1000000000 := by
    have hadd : tenTo (9 - k + k) = tenTo (9 - k) * tenTo k := Nat.pow_add 10 (9 - k) k
    rw [← hadd, Nat.sub_add_cancel hle]
    rfl
  have hfits : nanos / tenTo (9 - k) < tenTo k := Nat.div_lt_of_lt_mul (htotal.symm ▸ hlt)
  refine ⟨?_, fun c => isDigit_of_mem_lastDigits, ?_⟩
  · rw [length_lastDigits]
    exact hk
  · rw [length_lastDigits, value_lastDigits, Nat.mod_eq_of_lt hfits]
    exact Nat.div_mul_cancel (Nat.dvd_of_mod_eq_zero hmod)

theorem fractionOf_lastDigits {k : Nat} (hk : k ≠ 0) (n : Nat) :
    fractionOf (lastDigits k n) = '.' :: lastDigits k n := by
  have hne : lastDigits k n ≠ [] := by
    intro h
    have hlength := length_lastDigits k n
    rw [h] at hlength
    exact hk hlength.symm
  exact if_neg hne

/-- A fraction is written in three, six, nine or no digits. -/
theorem fractionChars_spec {nanos : Nat} (h : nanos < 1000000000) :
    ∃ ds, fractionChars nanos = fractionOf ds ∧ Fraction nanos ds := by
  unfold fractionChars
  split_ifs with hzero hmilli hmicro
  · rw [hzero]
    exact ⟨[], rfl, fraction_lastDigits (k := 0) (by decide) (by decide) (by decide)⟩
  · refine ⟨_, (fractionOf_lastDigits (by decide) _).symm, ?_⟩
    exact fraction_lastDigits (k := 3) (by decide) h hmilli
  · refine ⟨_, (fractionOf_lastDigits (by decide) _).symm, ?_⟩
    exact fraction_lastDigits (k := 6) (by decide) h hmicro
  · refine ⟨_, (fractionOf_lastDigits (by decide) _).symm, ?_⟩
    simpa [tenTo] using fraction_lastDigits (k := 9) (by decide) h (Nat.mod_one _)

theorem fraction?_fractionOf {nanos : Nat} (h : Fraction nanos ds) :
    fraction? (fractionOf ds) = some (nanos, []) := by
  obtain ⟨hlength, hds, hvalue⟩ := h
  by_cases hne : ds = []
  · subst hne
    rw [← hvalue]
    rfl
  · have hle : ds.length ≤ 9 := by
      simp only [List.mem_cons, List.not_mem_nil, or_false] at hlength
      omega
    have hread : digitsUpTo? 9 ds = some (value ds, []) := by
      simpa using digitsUpTo?_append hds hne hle (Or.inr rfl)
    rw [fractionOf, if_neg hne, fraction?]
    dsimp only
    rw [hread, ← hvalue]
    rfl

/-- A time of day is read back. -/
theorem clock?_chars {c : Clock} (hc : c.isValid) (hn : c.nanos < 1000000000) :
    clock? c.chars = some (c, []) := by
  obtain ⟨hhour, hminute, hsecond⟩ := Clock.isValid_iff.mp hc
  obtain ⟨ds, hchars, hds⟩ := fractionChars_spec hn
  have hfraction := fraction?_fractionOf hds
  have hnumber {n : Nat} (hn : n < 60) (rest : List Char) :
      number? 2 (padded 2 n ++ rest) = some (n, rest) := number?_padded (by omega) rest
  unfold clock? Clock.chars
  rw [hchars]
  simp only [List.append_assoc, List.cons_append, Option.bind_eq_bind, Option.bind_some,
    after?_cons, hnumber (Nat.lt_trans hhour (by decide)), hnumber hminute, hnumber hsecond,
    hfraction]
  rw [if_pos ⟨hhour, hminute, hsecond.le⟩, if_neg hsecond.ne]

/-! ## Plain forms -/

/-- A date in the digits `yyyy-mm-dd`. -/
def plainDate (d : Date) : List Char :=
  lastDigits 4 d.year.toNat ++ '-' :: lastDigits 2 d.month ++ '-' :: lastDigits 2 d.day

/-- A time of day in the digits `hh:mm:ss`. -/
def plainClock (hour minute second : Nat) : List Char :=
  lastDigits 2 hour ++ ':' :: lastDigits 2 minute ++ ':' :: lastDigits 2 second

/-- A year of four digits is written in these. -/
theorem Date.chars_plain (h : d.isValid) (hlow : 0 ≤ d.year) (hhigh : d.year ≤ 9999) :
    d.chars = plainDate d := by
  obtain ⟨hmonth, hday⟩ := Date.day_lt h
  have hyear : d.year.natAbs = d.year.toNat := by omega
  have hfits : d.year.toNat < tenTo 4 := by
    show d.year.toNat < 10000
    omega
  unfold Date.chars plainDate yearChars
  rw [if_neg (by omega), if_neg (by omega), hyear, padded_eq_lastDigits hfits,
    padded_eq_lastDigits hmonth, padded_eq_lastDigits hday]

theorem Clock.chars_plain {c : Clock} (h : c.isValid) :
    c.chars = plainClock c.hour c.minute c.second ++ fractionChars c.nanos := by
  obtain ⟨hhour, hminute, hsecond⟩ := Clock.isValid_iff.mp h
  have hlt : ∀ n < 60, n < tenTo 2 := fun n hn => Nat.lt_trans hn (by decide)
  unfold Clock.chars plainClock
  rw [padded_eq_lastDigits (hlt _ (by omega)), padded_eq_lastDigits (hlt _ hminute),
    padded_eq_lastDigits (hlt _ hsecond)]

/-! ## Instants -/

/-- A date is read as its first instant. -/
theorem readDate?_dateText (n : Int) :
    readDate? (dateText n) = some (n / nanosPerDay * nanosPerDay) := by
  have hread := date?_chars (isValid_dateAt n) []
  rw [List.append_nil] at hread
  unfold readDate? dateText
  rw [String.toList_ofList, hread]
  exact congrArg some (instant_dateAt_midnight n)

/-- A date alone is no date with a time. -/
theorem readDateTime?_dateText (n : Int) : readDateTime? (dateText n) = none := by
  have hread := date?_chars (isValid_dateAt n) []
  rw [List.append_nil] at hread
  unfold readDateTime? dateText
  rw [String.toList_ofList, hread]
  rfl

theorem readDateTime?_timeText (n : Int) : readDateTime? (timeText n) = some n := by
  obtain ⟨hvalid, hnanos, -⟩ := clockAt_spec n
  have hdate := date?_chars (isValid_dateAt n) ('T' :: (clockAt n).chars)
  have hclock := clock?_chars hvalid hnanos
  unfold readDateTime? timeText
  rw [String.toList_ofList, hdate]
  simp only [Option.bind_eq_bind, Option.bind_some, after?_cons, hclock]
  exact congrArg some (instant_dateAt_clockAt n)

end Querent.Calendar
