import Mathlib.Data.List.Basic
import Mathlib.Order.WellFounded
import Querent.Statement.Select
import Querent.Proofs.Statement.Words

/-!
# Names of fields

The alias of a field is looked for in what follows the one found before, with the
nesting and the start of a word taken up anew. That is the last `as` of one scan
over the whole field: a keyword is only found outside of quotes and parentheses,
which is where a new scan starts, and the character behind it begins no word.
-/

namespace Querent.Statement

open Text

variable {l before behind : List Char}

theorem isKeyword_as : IsKeyword ['a', 's'] := by decide

/-- The search for aliases goes on in `behind` when it has found one in `l`. -/
def Resumes (behind l : List Char) : Prop :=
  ∃ before, cutKeyword? ['a', 's'] .outside false l = some (before, behind)

theorem Resumes.length_lt (h : Resumes behind l) : behind.length < l.length := by
  obtain ⟨before, hcut⟩ := h
  have hlength := length_of_cutKeyword? hcut
  simp only [List.length_cons, List.length_nil] at hlength
  omega

theorem wellFounded_resumes : WellFounded Resumes :=
  Subrelation.wf Resumes.length_lt (measure List.length).wf

theorem afterLastAs?_of_cut_none (h : cutKeyword? ['a', 's'] .outside false l = none) :
    afterLastAs? l = none := by
  rw [afterLastAs?]
  split
  · next hcut => cases h.symm.trans hcut
  · rfl

theorem afterLastAs?_of_cut (h : cutKeyword? ['a', 's'] .outside false l = some (before, behind)) :
    afterLastAs? l = some ((afterLastAs? behind).getD behind) := by
  rw [afterLastAs?]
  split
  · next hcut =>
    cases h.symm.trans hcut
    rfl
  · next hcut => cases h.symm.trans hcut

/-- What follows the last of the places at which `as` stands. -/
theorem afterLastAs?_eq (l : List Char) :
    afterLastAs? l = (wordPlaces ['a', 's'] l).getLast?.map fun i => l.drop (i + 2) := by
  induction l using wellFounded_resumes.induction with
  | h l ih =>
    rw [afterLastAs?]
    split
    · next before behind hcut =>
      obtain ⟨word, rfl, hword, hclosed, hstart, hstop, hnone⟩ :=
        exists_of_cutKeyword? isKeyword_as hcut
      have hlength : word.length = 2 := by simpa using congrArg List.length hword
      have hrest : (before ++ (word ++ behind)).drop (before.length + 2) = behind := by
        rw [← hlength, List.drop_length_add_append, List.drop_left]
      rw [ih behind ⟨before, hcut⟩,
        wordPlaces_around isKeyword_as hword hclosed hstart hstop, hnone, List.nil_append,
        List.getLast?_cons, List.getLast?_map]
      cases (wordPlaces ['a', 's'] behind).getLast? with
      | none => simp [hrest]
      | some i =>
        -- the last place in what follows the first one is the last of all
        have hlast : (before ++ (word ++ behind)).drop (before.length + 2 + i + 2) =
            behind.drop (i + 2) := by
          rw [Nat.add_assoc _ i 2, ← List.drop_drop, hrest]
        simp [hlast]
    · next hcut =>
      rw [cutKeyword?_eq isKeyword_as, Option.map_eq_none_iff, List.head?_eq_none_iff] at hcut
      rw [hcut]
      rfl

/-- The name of a field in one scan: the trimmed text behind the last place at which
the word `as` stands, or the whole field if there is none or nothing behind it. -/
def nameOfField (field : List Char) : List Char :=
  match (wordPlaces ['a', 's'] field).getLast? with
  | none => field
  | some i => if trim (field.drop (i + 2)) = [] then field else trim (field.drop (i + 2))

/-- **Naming a field takes one scan.** The search for aliases comes to an end in
every text, and the name is the one that all places of the word `as` in the trimmed
field tell of. -/
theorem fieldName_scan :
    WellFounded Resumes ∧
      ∀ s : String, fieldName s = String.ofList (nameOfField (trim s.toList)) := by
  refine ⟨wellFounded_resumes, fun s => ?_⟩
  rw [fieldName, fieldNameChars, nameOfField, afterLastAs?_eq]
  cases (wordPlaces ['a', 's'] (trim s.toList)).getLast? with
  | none => rfl
  | some i => simp only [Option.map_some, List.isEmpty_iff]

end Querent.Statement
