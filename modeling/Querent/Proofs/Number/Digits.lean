import Querent.Number.Digits
import Querent.Number.Power
import Querent.Text.Blank

/-!
# Decimal digits

Numbers that are written with leading zeros are written in decimal digits only, and these
stand for the number. A number that fits the width is written in exactly that many.
-/

namespace Querent.Decimal

variable {c : Char} {ds rest : List Char} {width n : Nat}

/-! ## One digit -/

theorem toNat_of_isDigit (h : c.isDigit) : 48 ≤ c.toNat ∧ c.toNat ≤ 57 := by
  simpa [Char.isDigit, UInt32.le_iff_toNat_le] using h

theorem not_blank_of_isDigit (h : c.isDigit) : ¬ Text.isBlank c := by
  intro hblank
  have := toNat_of_isDigit h
  simp only [Text.isBlank, Bool.or_eq_true, Bool.and_eq_true, decide_eq_true_eq,
    beq_iff_eq] at hblank
  omega

theorem digitChar_eq (d : Nat) : digitChar d = Nat.digitChar (d % 10) := by
  have hall : ∀ d < 10, Char.ofNat ('0'.toNat + d) = Nat.digitChar d := by decide
  exact hall (d % 10) (Nat.mod_lt d (by decide))

theorem isDigit_digitChar (d : Nat) : (digitChar d).isDigit := by
  rw [digitChar_eq, Nat.isDigit_digitChar]
  exact decide_eq_true (Nat.mod_lt d (by decide))

theorem toNat_digitChar (d : Nat) : (digitChar d).toNat - '0'.toNat = d % 10 := by
  rw [digitChar_eq]
  exact Nat.toNat_digitChar_sub_48_of_lt_ten (Nat.mod_lt d (by decide))

/-! ## The last digits -/

theorem length_lastDigits (width n : Nat) : (lastDigits width n).length = width := by
  induction width generalizing n with
  | zero => rfl
  | succ width ih => rw [lastDigits, List.length_append, ih, List.length_singleton]

theorem isDigit_of_mem_lastDigits (h : c ∈ lastDigits width n) : c.isDigit := by
  induction width generalizing n with
  | zero => cases h
  | succ width ih =>
    rw [lastDigits, List.mem_append, List.mem_singleton] at h
    rcases h with h | rfl
    · exact ih h
    · exact isDigit_digitChar n

theorem value_concat (ds : List Char) (c : Char) :
    value (ds ++ [c]) = value ds * 10 + (c.toNat - '0'.toNat) := by
  simp [value]

theorem value_lastDigits (width n : Nat) : value (lastDigits width n) = n % tenTo width := by
  induction width generalizing n with
  | zero => exact (Nat.mod_one n).symm
  | succ width ih =>
    have htenTo : tenTo (width + 1) = 10 * tenTo width := Nat.mul_comm _ _
    rw [lastDigits, value_concat, ih, toNat_digitChar, htenTo, Nat.mod_mul, Nat.add_comm,
      Nat.mul_comm]

/-! ## Numbers -/

/-- The digits in front of anything else are all the digits in front. -/
theorem takeWhile_digits (hds : ∀ c ∈ ds, c.isDigit) (hrest : ∀ c ∈ rest.head?, ¬ c.isDigit) :
    (ds ++ rest).takeWhile Char.isDigit = ds := by
  rw [List.takeWhile_append_of_pos hds]
  cases rest with
  | nil => exact List.append_nil ds
  | cons c rest => rw [List.takeWhile_cons_of_neg (hrest c rfl), List.append_nil]

theorem value_eq (ds : List Char) : value ds = Nat.ofDigitChars 10 ds 0 := by
  simp only [value, Nat.ofDigitChars_eq_foldl, Nat.mul_comm]

/-- Digits, and one at least, are what is read as a number. -/
theorem nat?_eq_some_iff :
    nat? ds = some n ↔ ds ≠ [] ∧ (∀ c ∈ ds, c.isDigit) ∧ Nat.ofDigitChars 10 ds 0 = n := by
  rw [nat?, ← value_eq, ← List.all_eq_true]
  cases ds <;> simp

/-! ## Leading zeros -/

theorem isDigit_of_mem_padded (h : c ∈ padded width n) : c.isDigit := by
  rcases List.mem_append.mp h with h | h
  · rw [List.eq_of_mem_replicate h]
    rfl
  · exact Nat.isDigit_of_mem_toDigits (by decide) (by decide) h

theorem padded_ne_nil (width n : Nat) : padded width n ≠ [] :=
  List.append_ne_nil_of_right_ne_nil _ Nat.toDigits_ne_nil

theorem value_padded (width n : Nat) : value (padded width n) = n := by
  rw [value_eq, padded, Nat.ofDigitChars_append, Nat.ofDigitChars_replicate_zero, Nat.mul_zero,
    Nat.ofDigitChars_ten_toDigits]

theorem padded_of_lt (h : n < 10) (width : Nat) :
    padded (width + 1) n = List.replicate width '0' ++ [digitChar n] := by
  rw [padded, Nat.toDigits_of_lt_base h, digitChar_eq, Nat.mod_eq_of_lt h]
  rfl

theorem padded_of_le (h : 10 ≤ n) (width : Nat) :
    padded (width + 1) n = padded width (n / 10) ++ [digitChar n] := by
  dsimp only [padded]
  rw [Nat.toDigits_of_base_le (by decide) h, digitChar_eq, List.length_append,
    List.length_singleton, Nat.add_sub_add_right, List.append_assoc]

theorem lastDigits_zero (width : Nat) : lastDigits width 0 = List.replicate width '0' := by
  induction width with
  | zero => rfl
  | succ width ih => rw [lastDigits, Nat.zero_div, ih, List.replicate_succ', digitChar_eq]; rfl

/-- A number that fits the width is written in exactly as many digits. -/
theorem padded_eq_lastDigits (h : n < tenTo (width + 1)) :
    padded (width + 1) n = lastDigits (width + 1) n := by
  induction width generalizing n with
  | zero => exact padded_of_lt h 0
  | succ width ih =>
    rw [lastDigits]
    rcases Nat.lt_or_ge n 10 with hn | hn
    · rw [padded_of_lt hn, Nat.div_eq_of_lt hn, lastDigits_zero]
    · have hfits : n / 10 < tenTo (width + 1) :=
        Nat.div_lt_of_lt_mul (Nat.mul_comm 10 _ ▸ h)
      rw [padded_of_le hn, ih hfits]

end Querent.Decimal
