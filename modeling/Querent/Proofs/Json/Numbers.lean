import Querent.Json.Reader
import Querent.Proofs.Number.Digits

/-!
# Numbers of JSON

A number has a whole part without leading zeros, and then perhaps a fraction and an
exponent. The reader takes all of it if nothing follows that a number could go on with.
-/

namespace Querent.Json

variable {ds l rest : List Char}

/-! ## The grammar -/

/-- Digits, one at least. -/
def Digits (ds : List Char) : Prop := ds ≠ [] ∧ ∀ c ∈ ds, c.isDigit

inductive WholeText : List Char → Prop
  | zero : WholeText ['0']
  | digits {ds : List Char} : Digits ds → ds.head? ≠ some '0' → WholeText ds

inductive FractionText : List Char → Prop
  | none : FractionText []
  | digits {ds : List Char} : Digits ds → FractionText ('.' :: ds)

inductive ExponentText : List Char → Prop
  | none : ExponentText []
  | digits {e : Char} {sign ds : List Char} : (e = 'e' ∨ e = 'E') →
    (sign = [] ∨ sign = ['+'] ∨ sign = ['-']) → Digits ds → ExponentText (e :: (sign ++ ds))

/-- A sign, the whole part, a fraction and an exponent, of which only the second must be. -/
inductive NumberText : List Char → Prop
  | mk {sign whole fraction exponent : List Char} : (sign = [] ∨ sign = ['-']) →
    WholeText whole → FractionText fraction → ExponentText exponent →
    NumberText (sign ++ (whole ++ (fraction ++ exponent)))

/-- What begins with nothing that could belong to a number in front of it. -/
def EndsNumber (rest : List Char) : Prop :=
  ∀ c ∈ rest.head?, c.isDigit = false ∧ c ≠ '.' ∧ c ≠ 'e' ∧ c ≠ 'E'

/-! ## Reading -/

theorem digits?_append (hds : Digits ds) (hrest : ∀ c ∈ rest.head?, c.isDigit = false) :
    digits? (ds ++ rest) = some (ds, rest) := by
  have htake : (ds ++ rest).takeWhile Char.isDigit = ds :=
    Decimal.takeWhile_digits hds.2 fun c hc => Bool.eq_false_iff.mp (hrest c hc)
  have hdrop : (ds ++ rest).dropWhile Char.isDigit = rest := by
    have hall := List.takeWhile_append_dropWhile (p := Char.isDigit) (l := ds ++ rest)
    rw [htake] at hall
    exact List.append_cancel_left hall
  simp [digits?, htake, hdrop, hds.1]

theorem natural?_append (h : WholeText l) (hrest : ∀ c ∈ rest.head?, c.isDigit = false) :
    natural? (l ++ rest) = some (l, rest) := by
  cases h with
  | zero => rfl
  | digits hds hzero =>
    rw [natural?, digits?_append hds hrest]
    rintro tail htail
    refine hzero ?_
    obtain ⟨d, ds, rfl⟩ := List.exists_cons_of_ne_nil hds.1
    rw [List.cons_append, List.cons.injEq] at htail
    rw [htail.1]
    rfl

theorem fraction?_append (h : FractionText l)
    (hrest : ∀ c ∈ rest.head?, c.isDigit = false ∧ c ≠ '.') :
    fraction? (l ++ rest) = some (l, rest) := by
  cases h with
  | none =>
    rw [List.nil_append, fraction?]
    rintro tail rfl
    exact (hrest '.' rfl).2 rfl
  | digits hds =>
    rw [List.cons_append, fraction?, digits?_append hds fun c hc => (hrest c hc).1]
    rfl

theorem Digits.head (hds : Digits ds) : ∃ d tail, ds = d :: tail ∧ d.isDigit := by
  obtain ⟨d, tail, rfl⟩ := List.exists_cons_of_ne_nil hds.1
  exact ⟨d, tail, rfl, hds.2 d List.mem_cons_self⟩

theorem signedDigits?_append {sign : List Char} (hsign : sign = [] ∨ sign = ['+'] ∨ sign = ['-'])
    (hds : Digits ds) (hrest : ∀ c ∈ rest.head?, c.isDigit = false) :
    signedDigits? (sign ++ ds ++ rest) = some (sign ++ ds, rest) := by
  have hread := digits?_append hds hrest
  rcases hsign with rfl | rfl | rfl
  · obtain ⟨d, tail, rfl, hd⟩ := hds.head
    rw [List.nil_append, signedDigits?, hread]
    · rintro _ h
      rw [(List.cons.inj h).1] at hd
      exact absurd hd (by decide)
    · rintro _ h
      rw [(List.cons.inj h).1] at hd
      exact absurd hd (by decide)
  · simp [signedDigits?, hread]
  · simp [signedDigits?, hread]

theorem exponent?_append (h : ExponentText l) (hrest : EndsNumber rest) :
    exponent? (l ++ rest) = some (l, rest) := by
  cases h with
  | none =>
    rw [List.nil_append, exponent?]
    · rintro tail rfl
      exact (hrest 'e' rfl).2.2.1 rfl
    · rintro tail rfl
      exact (hrest 'E' rfl).2.2.2 rfl
  | @digits e sign ds he hsign hds =>
    have hread := signedDigits?_append hsign hds fun c hc => (hrest c hc).1
    rcases he with rfl | rfl
    · rw [List.cons_append, exponent?, hread]
      rfl
    · rw [List.cons_append, exponent?, hread]
      rfl

theorem exponent_head (h : ExponentText l) (hrest : EndsNumber rest) :
    ∀ c ∈ (l ++ rest).head?, c.isDigit = false ∧ c ≠ '.' := by
  cases h with
  | none => exact fun c hc => ⟨(hrest c hc).1, (hrest c hc).2.1⟩
  | digits he =>
    rintro c ⟨⟩
    rcases he with rfl | rfl <;> decide

theorem fraction_head (h : FractionText l) (hrest : ∀ c ∈ rest.head?, c.isDigit = false) :
    ∀ c ∈ (l ++ rest).head?, c.isDigit = false := by
  cases h with
  | none => exact hrest
  | digits =>
    rintro c ⟨⟩
    rfl

theorem WholeText.head (h : WholeText l) : ∃ d tail, l = d :: tail ∧ d.isDigit := by
  cases h with
  | zero => exact ⟨'0', [], rfl, rfl⟩
  | digits hds => exact hds.head

theorem NumberText.head (h : NumberText l) : ∃ c tail, l = c :: tail ∧ (c = '-' ∨ c.isDigit) := by
  obtain @⟨sign, whole, fraction, exponent, hsign, hwhole, -, -⟩ := h
  rcases hsign with rfl | rfl
  · obtain ⟨d, tail, rfl, hd⟩ := hwhole.head
    exact ⟨d, _, rfl, .inr hd⟩
  · exact ⟨'-', _, rfl, .inl rfl⟩

/-- A number is read to its end. -/
theorem number?_append (h : NumberText l) (hrest : EndsNumber rest) :
    number? (l ++ rest) = some (l, rest) := by
  obtain @⟨sign, whole, fraction, exponent, hsign, hwhole, hfraction, hexponent⟩ := h
  have hexp := exponent?_append hexponent hrest
  have hfrac := fraction?_append hfraction (exponent_head hexponent hrest)
  have hnat := natural?_append hwhole
    (fraction_head hfraction fun c hc => (exponent_head hexponent hrest c hc).1)
  rcases hsign with rfl | rfl
  · simp only [List.nil_append, List.append_assoc, number?]
    split
    next tail htail =>
      obtain ⟨d, ds, rfl, hd⟩ := hwhole.head
      rw [(List.cons.inj htail).1] at hd
      exact absurd hd (by decide)
    next => simp [hnat, hfrac, hexp]
  · simp [number?, hnat, hfrac, hexp]

/-! ## Writing -/

theorem head?_toDigits {n : Nat} (hn : n ≠ 0) : (Nat.toDigits 10 n).head? ≠ some '0' := by
  induction n using Nat.strongRecOn with
  | ind n ih =>
    rcases Nat.lt_or_ge n 10 with hlt | hge
    · rw [Nat.toDigits_of_lt_base hlt, List.head?_singleton]
      have hzero : ∀ n < 10, n ≠ 0 → some n.digitChar ≠ some '0' := by decide
      exact hzero n hlt hn
    · have hne := ih (n / 10) (by omega) (by omega)
      obtain ⟨d, ds, hds⟩ := List.exists_cons_of_ne_nil (@Nat.toDigits_ne_nil (n / 10) 10)
      rw [Nat.toDigits_of_base_le (by decide) hge, hds]
      rwa [hds] at hne

/-- A whole number is printed without leading zeros. -/
theorem numberText_toDigits (n : Nat) : NumberText (Nat.toDigits 10 n) := by
  have hwhole : WholeText (Nat.toDigits 10 n) := by
    rcases Nat.eq_zero_or_pos n with rfl | hn
    · exact .zero
    · refine .digits ⟨Nat.toDigits_ne_nil, fun c hc => ?_⟩ (head?_toDigits (Nat.ne_of_gt hn))
      exact Nat.isDigit_of_mem_toDigits (by decide) (by decide) hc
  simpa using @NumberText.mk [] _ [] [] (.inl rfl) hwhole .none .none

end Querent.Json
