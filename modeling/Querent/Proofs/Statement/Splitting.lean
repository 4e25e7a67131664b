import Mathlib.Data.List.Basic
import Querent.Proofs.Statement.Scanning

/-!
# Splitting as a normal form

The statements of a script, each with its semicolon, are a script with the same
statements. And a script that was split without an error can be taken off the
front of a longer one, as long as it does not end inside a comment, which would
go on in what follows.
-/

namespace Querent.Script

open Text

/-- The statements among the pieces of a scan. -/
def trimmed (pieces : List (List Char)) : List String :=
  ((pieces.map trim).filter (!·.isEmpty)).map String.ofList

/-- A script of the given statements. -/
def terminated (statements : List String) : String :=
  String.join (statements.map (· ++ ";"))

/-- The last line of a text ends inside a comment: two dashes stand where the text is
plain, with no line break after them (`scan_eq_comment_iff`). -/
def EndsInComment (text : String) : Prop := (scan .plain [] text.toList).2.2 = .comment

instance (text : String) : Decidable (EndsInComment text) := inferInstanceAs (Decidable (_ = _))

variable {pieces pieces' : List (List Char)} {rest : List Char} {place : Place} {text : String}
  {xs : List String}

@[simp]
theorem trimmed_nil : trimmed [] = [] := rfl

@[simp]
theorem trimmed_append (pieces pieces' : List (List Char)) :
    trimmed (pieces ++ pieces') = trimmed pieces ++ trimmed pieces' := by
  simp [trimmed]

theorem trimmed_cons (piece : List Char) (pieces : List (List Char)) :
    trimmed (piece :: pieces) = trimmed [piece] ++ trimmed pieces :=
  trimmed_append [piece] pieces

theorem mem_trimmed {s : String} :
    s ∈ trimmed pieces ↔ s ≠ "" ∧ ∃ piece ∈ pieces, String.ofList (trim piece) = s := by
  simp only [trimmed, List.mem_map, List.mem_filter]
  constructor
  · rintro ⟨_, ⟨⟨piece, hpiece, rfl⟩, hne⟩, rfl⟩
    exact ⟨by simpa using hne, piece, hpiece, rfl⟩
  · rintro ⟨hne, piece, hpiece, rfl⟩
    exact ⟨_, ⟨⟨piece, hpiece, rfl⟩, by simpa using hne⟩, rfl⟩

theorem statements_of_scan (h : scan .plain [] text.toList = (pieces, rest, place)) :
    statements text =
      if place = .quoted then .error (.invalidArgument .unterminatedString)
      else if (trim rest).isEmpty then .ok (trimmed pieces)
      else .error (.invalidArgument (.unterminatedStatement (String.ofList (trim rest)))) := by
  simp only [statements, h, trimmed]

/-- A script that splits has all its text in statements. -/
theorem scan_of_statements (h : statements text = .ok xs) :
    ∃ pieces rest place, scan .plain [] text.toList = (pieces, rest, place) ∧
      place ≠ .quoted ∧ (∀ c ∈ rest, isBlank c) ∧ xs = trimmed pieces := by
  obtain ⟨⟨pieces, rest, place⟩, hscan⟩ : ∃ result, scan .plain [] text.toList = result := ⟨_, rfl⟩
  rw [statements_of_scan hscan] at h
  split_ifs at h with hplace hrest
  refine ⟨pieces, rest, place, hscan, hplace, ?_, (Except.ok.inj h).symm⟩
  exact trim_eq_nil_iff.mp (List.isEmpty_iff.mp hrest)

/-! ## Splitting again -/

/-- Taking blanks off the ends of a text that is kept leaves one that is kept. -/
theorem through_trim {l : List Char} (h : through .plain l = some .plain) :
    through .plain (trim l) = some .plain := by
  obtain ⟨before, after, hbefore, hafter, hl⟩ := exists_trim l
  have hlast : before.getLast? ≠ some '-' := fun hdash =>
    absurd (hbefore _ (List.mem_of_getLast? hdash)) (by decide)
  have hhead : after.head? ≠ some '-' := fun hdash =>
    absurd (hafter _ (List.mem_of_head? hdash)) (by decide)
  rw [hl, through_append _ _ _ fun _ hdash => absurd hdash hlast,
    through_blank hbefore (by decide), Option.bind_some,
    through_append _ _ _ fun _ _ => hhead] at h
  obtain ⟨place, hplace, hafter'⟩ := Option.bind_eq_some_iff.mp h
  have hne : place ≠ .comment := by
    rintro rfl
    cases after <;> cases hafter'
  rwa [through_blank hafter hne, ← hplace] at hafter'

theorem scan_terminated (h : ∀ s ∈ xs, through .plain s.toList = some .plain) :
    scan .plain [] (terminated xs).toList = (xs.map String.toList, [], .plain) := by
  induction xs with
  | nil => rfl
  | cons s xs ih =>
    have hs := scan_of_through (h s List.mem_cons_self) [] (';' :: (terminated xs).toList)
      (by simp)
    have htext : (terminated (s :: xs)).toList = s.toList ++ ';' :: (terminated xs).toList := by
      simp [terminated, String.join_cons]
    rw [htext, hs]
    have ih := ih fun s' hs' => h s' (List.mem_cons_of_mem s hs')
    simp [scan, ih]

theorem trimmed_toList (h : ∀ s ∈ xs, s ≠ "" ∧ trim s.toList = s.toList) :
    trimmed (xs.map String.toList) = xs := by
  induction xs with
  | nil => exact trimmed_nil
  | cons s xs ih =>
    obtain ⟨hne, htrim⟩ := h s List.mem_cons_self
    rw [List.map_cons, trimmed_cons, ih fun s' hs' => h s' (List.mem_cons_of_mem s hs')]
    simp [trimmed, htrim, hne]

/-- Texts that are trimmed and kept are the statements of their script. -/
theorem statements_terminated (h : ∀ s ∈ xs, s ≠ "" ∧ trim s.toList = s.toList)
    (hkept : ∀ s ∈ xs, through .plain s.toList = some .plain) :
    statements (terminated xs) = .ok xs := by
  rw [statements_of_scan (scan_terminated hkept)]
  have hnil : trim [] = [] := rfl
  simp [trimmed_toList h, hnil]

/-! ## Splitting one after the other -/

/-- Blanks before the first piece do not show. -/
theorem statements_of_prefixed {blanks : List Char} {text' : String}
    (hblanks : ∀ c ∈ blanks, isBlank c)
    (h : scan .plain [] text.toList =
      (pieces ++ (prefixed blanks (scan .plain [] text'.toList)).1,
        (prefixed blanks (scan .plain [] text'.toList)).2)) :
    statements text = (statements text').map (trimmed pieces ++ ·) := by
  obtain ⟨⟨pieces', rest, place⟩, hscan⟩ :
    ∃ result, scan .plain [] text'.toList = result := ⟨_, rfl⟩
  rw [statements_of_scan hscan]
  rw [hscan] at h
  cases pieces' with
  | nil =>
    rw [prefixed] at h
    rw [statements_of_scan h, trim_append_of_blank hblanks]
    split_ifs <;> simp [Except.map]
  | cons piece pieces' =>
    have hpiece : trimmed ((blanks ++ piece) :: pieces') = trimmed (piece :: pieces') := by
      simp [trimmed, trim_append_of_blank hblanks]
    rw [prefixed] at h
    rw [statements_of_scan h]
    split_ifs <;> simp [Except.map, hpiece]

theorem statements_append (h : statements text = .ok xs) (hcomment : ¬ EndsInComment text)
    (text' : String) : statements (text ++ text') = (statements text').map (xs ++ ·) := by
  obtain ⟨pieces, rest, place, hscan, hquoted, hblank, rfl⟩ := scan_of_statements h
  have hplace : place = .plain := by
    unfold EndsInComment at hcomment
    rw [hscan] at hcomment
    cases place with
    | plain => rfl
    | quoted => exact absurd rfl hquoted
    | comment => exact absurd rfl hcomment
  subst hplace
  refine statements_of_prefixed hblank ?_
  have hlast : rest.getLast? ≠ some '-' := fun hdash =>
    absurd (hblank _ (List.mem_of_getLast? hdash)) (by decide)
  rw [String.toList_append, scan_append, hscan, scan_prefixed .plain rest.reverse,
    List.reverse_reverse]
  rw [hscan]
  exact fun _ hdash => absurd hdash hlast

/-- **Splitting is a projection and compositional.** The statements of a script
are trimmed and not empty, and they are the statements of the script that they
make up themselves. If the script does not end inside a comment, then what comes
after it is split as if it stood alone, with the same statements or the same
error. -/
theorem statements_normal (text : String) (xs : List String) (h : statements text = .ok xs) :
    (∀ s ∈ xs, s ≠ "" ∧ trim s.toList = s.toList) ∧
      statements (terminated xs) = .ok xs ∧
      (¬ EndsInComment text → ∀ text',
        statements (text ++ text') = (statements text').map (xs ++ ·)) := by
  have hnormal : ∀ s ∈ xs,
      (s ≠ "" ∧ trim s.toList = s.toList) ∧ through .plain s.toList = some .plain := by
    obtain ⟨pieces, rest, place, hscan, -, -, rfl⟩ := scan_of_statements h
    intro s hs
    obtain ⟨hne, piece, hpiece, rfl⟩ := mem_trimmed.mp hs
    have hkept := through_of_mem_scan .plain [] text.toList rfl (by simp) piece (by rwa [hscan])
    rw [String.toList_ofList]
    exact ⟨⟨hne, trim_trim piece⟩, through_trim hkept⟩
  have htrimmed := fun s hs => (hnormal s hs).1
  exact ⟨htrimmed, statements_terminated htrimmed fun s hs => (hnormal s hs).2,
    fun hcomment text' => statements_append h hcomment text'⟩

/-- A script with quotes, a comment in the middle of a statement and one before the
end of the line, and what follows it. -/
theorem statements_normal_commented :
    let text := "use a; select '--;' -- all\n from b;-- done\n"
    let xs := ["use a", "select '--;' \n from b"]
    statements text = .ok xs ∧ statements (terminated xs) = .ok xs ∧
      statements (text ++ "-- more\n;drop c;") = .ok (xs ++ ["drop c"]) ∧
      statements (text ++ " drop c") =
        .error (.invalidArgument (.unterminatedStatement "drop c")) := by
  have h : statements "use a; select '--;' -- all\n from b;-- done\n" =
      .ok ["use a", "select '--;' \n from b"] := by cbv
  obtain ⟨-, hagain, happend⟩ := statements_normal _ _ h
  have hcomment : ¬ EndsInComment "use a; select '--;' -- all\n from b;-- done\n" := by
    decide +kernel
  refine ⟨h, hagain, ?_, ?_⟩
  · rw [happend hcomment]
    cbv
  · rw [happend hcomment]
    cbv

end Querent.Script
