import Mathlib.Data.List.Basic
import Querent.Text.Split

/-!
# Splitting at a separator

A text without separators is not cut. Any other is cut at the first separator, which has
none before it, or at the last one, which has none behind it.
-/

namespace Querent.Text

variable {sep : Char} {l a b start rest : List Char}

/-! ## The first separator -/

theorem splitFirst?_append (h : sep ∉ a) (b : List Char) :
    splitFirst? sep (a ++ sep :: b) = some (a, b) := by
  induction a with
  | nil => simp [splitFirst?]
  | cons c a ih =>
    obtain ⟨hc, ha⟩ := not_or.mp (List.mem_cons.not.mp h)
    rw [List.cons_append, splitFirst?, if_neg (Ne.symm hc), ih ha]
    rfl

theorem splitFirst?_eq_none (h : sep ∉ l) : splitFirst? sep l = none := by
  induction l with
  | nil => rfl
  | cons c l ih =>
    obtain ⟨hc, hl⟩ := not_or.mp (List.mem_cons.not.mp h)
    rw [splitFirst?, if_neg (Ne.symm hc), ih hl]
    rfl

/-! ## The last separator -/

theorem splitLast?_eq_none (h : sep ∉ l) : splitLast? sep l = none := by
  induction l with
  | nil => rfl
  | cons c l ih =>
    obtain ⟨hc, hl⟩ := not_or.mp (List.mem_cons.not.mp h)
    rw [splitLast?, ih hl, if_neg (Ne.symm hc)]

theorem splitLast?_append (a : List Char) (h : sep ∉ b) :
    splitLast? sep (a ++ sep :: b) = some (a, b) := by
  induction a with
  | nil => rw [List.nil_append, splitLast?, splitLast?_eq_none h, if_pos rfl]
  | cons c a ih => rw [List.cons_append, splitLast?, ih]

theorem exists_last_of_mem (h : sep ∈ l) : ∃ a b, l = a ++ sep :: b ∧ sep ∉ b := by
  obtain ⟨behind, before, hl, hbehind⟩ := List.eq_append_cons_of_mem (List.mem_reverse.mpr h)
  refine ⟨before.reverse, behind.reverse, ?_, List.mem_reverse.not.mpr hbehind⟩
  simpa using congrArg List.reverse hl

theorem splitLast?_eq_some_iff :
    splitLast? sep l = some (a, b) ↔ sep ∉ b ∧ l = a ++ sep :: b := by
  constructor
  · intro h
    by_cases hl : sep ∈ l
    · obtain ⟨before, behind, rfl, hbehind⟩ := exists_last_of_mem hl
      rw [splitLast?_append before hbehind] at h
      cases h
      exact ⟨hbehind, rfl⟩
    · rw [splitLast?_eq_none hl] at h
      cases h
  · rintro ⟨hb, rfl⟩
    exact splitLast?_append a hb

/-! ## A start -/

theorem dropStart?_eq_some_iff : dropStart? start l = some rest ↔ l = start ++ rest := by
  induction start generalizing l with
  | nil => simp [dropStart?]
  | cons s start ih =>
    cases l with
    | nil => simp [dropStart?]
    | cons c l =>
      rw [dropStart?, List.cons_append, List.cons.injEq]
      split_ifs with hc
      · simp [ih, hc]
      · simp [Ne.symm hc]

end Querent.Text
