import Mathlib.Data.List.DropRight
import Querent.Text.Blank

/-!
# What trimming leaves

A text is its trimmed form between blanks. Trimming takes away nothing but
blanks, so that a text is blank if nothing is left of it, and what it leaves it
leaves again.
-/

namespace Querent.Text

variable {l rest pre post : List Char} {c : Char} {p : Char → Bool}

theorem not_blank_of_trimStart (h : trimStart l = c :: rest) : ¬ isBlank c := by
  have hself : trimStart (trimStart l) = trimStart l := List.dropWhile_idempotent _ _
  rw [h] at hself
  exact List.dropWhile_eq_self_iff.mp hself (Nat.zero_lt_succ _)

theorem trimStart_append (h : trimStart l ≠ []) (post : List Char) :
    trimStart (l ++ post) = trimStart l ++ post := by
  unfold trimStart at *
  rw [List.dropWhile_append, if_neg fun hempty => h (List.isEmpty_iff.mp hempty)]

theorem trim_append_of_blank (h : ∀ c ∈ pre, isBlank c) : trim (pre ++ l) = trim l := by
  unfold trim trimStart
  rw [List.dropWhile_append_of_pos h]

/-- What is dropped at the end of two texts one after the other is dropped from the
second, and from the first if nothing is left of the second. -/
theorem dropEndWhile_append (p : Char → Bool) (l r : List Char) :
    dropEndWhile p (l ++ r) =
      if dropEndWhile p r = [] then dropEndWhile p l else l ++ dropEndWhile p r := by
  simp only [dropEndWhile, List.reverse_append, List.dropWhile_append, List.isEmpty_iff,
    List.reverse_eq_nil_iff]
  split <;> simp

theorem dropEndWhile_append_of_pos (h : ∀ c ∈ post, p c) :
    dropEndWhile p (l ++ post) = dropEndWhile p l := by
  have hpost : dropEndWhile p post = [] := by
    simpa [dropEndWhile, List.dropWhile_eq_nil_iff] using h
  rw [dropEndWhile_append, if_pos hpost]

/-- What is left when the end is dropped ends with a character that stays. -/
theorem not_of_getLast?_dropEndWhile (p : Char → Bool) (l : List Char) :
    ∀ c ∈ (dropEndWhile p l).getLast?, ¬ p c := by
  intro c hc
  have hne : dropEndWhile p l ≠ [] := List.ne_nil_of_mem (List.mem_of_getLast? hc)
  rw [Option.mem_def, List.getLast?_eq_some_getLast hne, Option.some.injEq] at hc
  rw [← hc]
  exact List.rdropWhile_last_not p l hne

theorem dropEndWhile_of_last (h : ∀ c ∈ l.getLast?, ¬ p c) : dropEndWhile p l = l := by
  cases l using List.reverseRecOn with
  | nil => rfl
  | append_singleton l c => simp [dropEndWhile, h c List.getLast?_concat]

/-- A text whose last character stays is kept in front of another. -/
theorem dropEndWhile_append_of_last (h : ∀ c ∈ l.getLast?, ¬ p c) :
    dropEndWhile p (l ++ post) = l ++ dropEndWhile p post := by
  rw [dropEndWhile_append]
  split_ifs with hpost
  · rw [dropEndWhile_of_last h, hpost, List.append_nil]
  · rfl

theorem trim_append_blank (h : ∀ c ∈ post, isBlank c) : trim (l ++ post) = trim l := by
  have hpost : post.dropWhile isBlank = [] := List.dropWhile_eq_nil_iff.mpr h
  unfold trim trimStart
  rw [List.dropWhile_append]
  split_ifs with hl
  · rw [hpost, List.isEmpty_iff.mp hl]
  · exact dropEndWhile_append_of_pos h

/-- What trimming leaves begins with the first character that is not blank. -/
theorem head?_trim (l : List Char) : (trim l).head? = l.find? (!isBlank ·) := by
  have hfind : l.find? (!isBlank ·) = (trimStart l).head? := by
    simp [List.find?_eq_head?_dropWhile_not, trimStart]
  have hblank := List.head?_dropWhile_not isBlank l
  rw [hfind, trim]
  unfold trimStart at *
  cases hl : l.dropWhile isBlank with
  | nil => rfl
  | cons c rest =>
    simp only [hl, List.head?_cons] at hblank
    have hkeep : trimEnd ([c] ++ rest) = [c] ++ trimEnd rest :=
      dropEndWhile_append_of_last (by simp [hblank])
    show (trimEnd ([c] ++ rest)).head? = some c
    rw [hkeep]
    rfl

theorem find?_blank (h : ∀ c ∈ pre, isBlank c) : pre.find? (!isBlank ·) = none := by
  simpa using h

/-- A text is what trimming leaves of it, between blanks. -/
theorem exists_trim (l : List Char) :
    ∃ before after, (∀ c ∈ before, isBlank c) ∧ (∀ c ∈ after, isBlank c) ∧
      l = before ++ (trim l ++ after) := by
  refine ⟨l.takeWhile isBlank, (trimStart l).rtakeWhile isBlank,
    fun c hc => List.mem_takeWhile_imp hc, fun c hc => List.mem_rtakeWhile_imp hc, ?_⟩
  have hend : trim l ++ (trimStart l).rtakeWhile isBlank = trimStart l :=
    List.rdropWhile_append_rtakeWhile
  rw [hend]
  exact List.takeWhile_append_dropWhile.symm

/-- What trimming leaves does not end with a blank. -/
theorem not_blank_of_getLast?_trim (l : List Char) : ∀ c ∈ (trim l).getLast?, ¬ isBlank c :=
  not_of_getLast?_dropEndWhile isBlank (trimStart l)

/-- A text that does not end with a blank ends as what trimming leaves of it. -/
theorem getLast?_trim (h : ∀ c ∈ l.getLast?, ¬ isBlank c) :
    (trim l).getLast? = l.getLast? := by
  cases l using List.reverseRecOn with
  | nil => rfl
  | append_singleton m c =>
    have hc : ¬ isBlank c := h c List.getLast?_concat
    have hstart : trimStart (m ++ [c]) = trimStart m ++ [c] := by
      unfold trimStart
      rw [List.dropWhile_append, List.dropWhile_cons_of_neg hc]
      split_ifs with hblank
      · rw [List.isEmpty_iff.mp hblank, List.nil_append]
      · rfl
    have hend : trimEnd (trimStart m ++ [c]) = trimStart m ++ [c] :=
      dropEndWhile_of_last fun d hd => by simp_all
    rw [trim, hstart, hend, List.getLast?_concat, List.getLast?_concat]

theorem trim_eq_nil_iff : trim l = [] ↔ ∀ c ∈ l, isBlank c := by
  constructor
  · intro h
    obtain ⟨before, after, hbefore, hafter, hl⟩ := exists_trim l
    rw [h, List.nil_append] at hl
    intro c hc
    rw [hl, List.mem_append] at hc
    exact hc.elim (hbefore c) (hafter c)
  · intro h
    have := trim_append_of_blank (l := []) h
    rwa [List.append_nil] at this

/-- What trimming leaves does not begin with a blank. -/
theorem trimStart_trim (l : List Char) : trimStart (trim l) = trim l := by
  obtain ⟨after, hafter⟩ : trim l <+: trimStart l := List.rdropWhile_prefix _ _
  cases htrim : trim l with
  | nil => rfl
  | cons c rest =>
    rw [htrim] at hafter
    exact List.dropWhile_cons_of_neg (not_blank_of_trimStart hafter.symm)

theorem trim_trim (l : List Char) : trim (trim l) = trim l := by
  have hstart := trimStart_trim l
  have hend : trimEnd (trim l) = trim l := List.rdropWhile_idempotent _ _
  unfold trim at *
  rw [hstart, hend]

theorem trimStart_of_plain (h : ∀ c ∈ l, ¬ isBlank c) : trimStart l = l := by
  cases l with
  | nil => rfl
  | cons c rest => exact List.dropWhile_cons_of_neg (h c List.mem_cons_self)

/-- Nothing is taken from a text without blanks. -/
theorem trim_of_plain (h : ∀ c ∈ l, ¬ isBlank c) : trim l = l := by
  rw [trim, trimStart_of_plain h]
  exact dropEndWhile_of_last fun c hc => h c (List.mem_of_getLast? hc)

/-! ## First words -/

theorem firstWord_of_word (h : ∀ c ∈ l, ¬ isBlank c) : firstWord l = l := by
  rw [firstWord, trimStart_of_plain h]
  exact List.takeWhile_eq_self_iff.mpr fun c hc => by simpa using h c hc

theorem firstWord_eq_nil_iff : firstWord l = [] ↔ ∀ c ∈ l, isBlank c := by
  constructor
  · intro h
    cases hstart : trimStart l with
    | nil => exact List.dropWhile_eq_nil_iff.mp hstart
    | cons c rest =>
      have hc := not_blank_of_trimStart hstart
      simp [firstWord, hstart, hc] at h
  · intro h
    have hstart : trimStart l = [] := List.dropWhile_eq_nil_iff.mpr h
    rw [firstWord, hstart]
    rfl

end Querent.Text
