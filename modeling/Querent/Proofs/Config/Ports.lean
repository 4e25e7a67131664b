import Querent.Config.Basic
import Querent.Proofs.Number.Digits
import Querent.Proofs.Text.Trimming

/-!
# Ports

The written forms of a port are decimal digits with any number of zeros in front, perhaps
after a plus sign, and with blanks around them. They are what is read as a port.
-/

namespace Querent

open Decimal Text

variable {port : UInt16} {l digits : List Char} {s : String}

/-- Digits that stand for the port. -/
structure PortDigits (port : UInt16) (digits : List Char) : Prop where
  ne_nil : digits ≠ []
  digit : ∀ c ∈ digits, c.isDigit
  value : Nat.ofDigitChars 10 digits 0 = port.toNat

/-- The text is a written form of the port. -/
inductive IsPort (port : UInt16) : List Char → Prop
  | written {before sign digits after : List Char} : (∀ c ∈ before, isBlank c) →
    (∀ c ∈ after, isBlank c) → (sign = [] ∨ sign = ['+']) → PortDigits port digits →
    IsPort port (before ++ (sign ++ digits ++ after))

/-! ## Without blanks -/

theorem portDigits_iff : PortDigits port digits ↔ nat? digits = some port.toNat := by
  rw [nat?_eq_some_iff]
  exact ⟨fun ⟨hne, hdigit, hvalue⟩ => ⟨hne, hdigit, hvalue⟩,
    fun ⟨hne, hdigit, hvalue⟩ => ⟨hne, hdigit, hvalue⟩⟩

/-- A number is a port if it has no more than sixteen bits. -/
theorem ofNat_eq_port_iff {n : Nat} :
    (if n < 65536 then some (UInt16.ofNat n) else none) = some port ↔ n = port.toNat := by
  split_ifs with hn
  · rw [Option.some_inj, ← UInt16.toNat_inj, UInt16.toNat_ofNat_of_lt' hn]
  · have := port.toNat_lt
    simp
    omega

theorem portOfChars?_plus : portOfChars? ('+' :: digits) = some port ↔ PortDigits port digits := by
  rw [portDigits_iff, portOfChars?]
  cases nat? digits with
  | none => simp
  | some n => simpa using ofNat_eq_port_iff

theorem portOfChars?_unsigned (h : l.head? ≠ some '+') :
    portOfChars? l = some port ↔ PortDigits port l := by
  rw [portDigits_iff, portOfChars?]
  · cases nat? l with
    | none => simp
    | some n => simpa using ofNat_eq_port_iff
  · rintro rest rfl
    exact h rfl

theorem portOfChars?_eq_some_iff : portOfChars? l = some port ↔
    ∃ sign digits, l = sign ++ digits ∧ (sign = [] ∨ sign = ['+']) ∧ PortDigits port digits := by
  by_cases hplus : l.head? = some '+'
  · obtain ⟨digits, rfl⟩ := List.head?_eq_some_iff.mp hplus
    rw [portOfChars?_plus]
    constructor
    · intro h
      exact ⟨['+'], digits, rfl, .inr rfl, h⟩
    · rintro ⟨sign, digits', hl, rfl | rfl, h⟩
      · obtain rfl : '+' :: digits = digits' := hl
        exact absurd (h.digit '+' List.mem_cons_self) (by decide)
      · cases hl
        exact h
  · rw [portOfChars?_unsigned hplus]
    constructor
    · intro h
      exact ⟨[], l, rfl, .inl rfl, h⟩
    · rintro ⟨sign, digits, rfl, rfl | rfl, h⟩
      · exact h
      · exact absurd rfl hplus

/-! ## With blanks -/

/-- A port begins and ends with characters that are not blank. -/
theorem trim_port {before sign after : List Char} (hbefore : ∀ c ∈ before, isBlank c)
    (hafter : ∀ c ∈ after, isBlank c) (hsign : sign = [] ∨ sign = ['+'])
    (h : PortDigits port digits) :
    trim (before ++ (sign ++ digits ++ after)) = sign ++ digits := by
  have hplain : ∀ c ∈ sign ++ digits, ¬ isBlank c := by
    intro c hc
    rcases List.mem_append.mp hc with hc | hc
    · rcases hsign with rfl | rfl
      · cases hc
      · obtain rfl := List.mem_singleton.mp hc
        decide
    · exact not_blank_of_isDigit (h.digit c hc)
  rw [trim_append_of_blank hbefore, trim_append_blank hafter]
  exact trim_of_plain hplain

/-- What is read as a port is a written form of it. -/
theorem readPort_eq_ok_iff : readPort s = .ok port ↔ IsPort port s.toList := by
  have read : readPort s = .ok port ↔ portOfChars? (trim s.toList) = some port := by
    rw [readPort]
    cases portOfChars? (trim s.toList) <;> simp
  rw [read, portOfChars?_eq_some_iff]
  constructor
  · rintro ⟨sign, digits, htrim, hsign, h⟩
    obtain ⟨before, after, hbefore, hafter, hs⟩ := exists_trim s.toList
    rw [hs, htrim]
    exact .written hbefore hafter hsign h
  · generalize s.toList = l
    rintro ⟨hbefore, hafter, hsign, h⟩
    exact ⟨_, _, trim_port hbefore hafter hsign h, hsign, h⟩

theorem portDigits_toDigits (port : UInt16) : PortDigits port (Nat.toDigits 10 port.toNat) where
  ne_nil := Nat.toDigits_ne_nil
  digit _ h := Nat.isDigit_of_mem_toDigits (by decide) (by decide) h
  value := Nat.ofDigitChars_ten_toDigits

/-- The digits of a port, without anything around them, are a written form of it. -/
theorem PortDigits.isPort (h : PortDigits port digits) : IsPort port digits := by
  have written := @IsPort.written port [] [] digits [] (by simp) (by simp) (.inl rfl) h
  rwa [List.nil_append, List.nil_append, List.append_nil] at written

/-- A text that is not a written form of any port is refused. -/
theorem readPort_eq_error_iff {e : Error} :
    readPort s = .error e ↔ e = .config (.port s) ∧ ∀ port, ¬ IsPort port s.toList := by
  simp only [← readPort_eq_ok_iff, readPort]
  cases portOfChars? (trim s.toList) with
  | none => simp [eq_comm]
  | some port => simp

end Querent
