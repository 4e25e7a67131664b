import Mathlib.Data.List.Basic
import Querent.Statement.Script
import Querent.Proofs.Text.Trimming

/-!
# Scanning a script in two goes

A scan that has come to the end of a text goes on with what follows as if it
had seen both at once, unless the two dashes of a comment are the last character
of the one and the first of the other. What it holds of an unfinished statement
stands before the first piece it finds then.

The second half is about the pieces: none of them holds a separator or a comment
outside of quotes, also where a comment was taken out of the middle, since the
line break stays. `through` says where a scan comes to that keeps all it reads.
-/

namespace Querent.Script

open Text

variable {place place' : Place} {current l r : List Char}

attribute [local simp] scan

/-! ## Scanning on -/

/-- Pieces with a text before the first of them. -/
def prefixed (l : List Char) :
    List (List Char) × List Char × Place → List (List Char) × List Char × Place
  | ([], rest, place) => ([], l ++ rest, place)
  | (piece :: pieces, last) => ((l ++ piece) :: pieces, last)

theorem prefixed_prefixed (l r : List Char) (pieces : List (List Char) × List Char × Place) :
    prefixed l (prefixed r pieces) = prefixed (l ++ r) pieces := by
  rcases pieces with ⟨_ | ⟨piece, pieces⟩, rest, place⟩ <;> simp [prefixed]

/-- What a scan holds already stands before the first piece it finds. -/
theorem scan_prefixed (place : Place) (current l : List Char) :
    scan place current l = prefixed current.reverse (scan place [] l) := by
  induction l generalizing place current with
  | nil => simp [prefixed]
  | cons c rest ih =>
    -- a character that is kept is the last of what is held, and the first of what is found
    have hkept : ∀ place c, scan place (c :: current) rest =
        prefixed current.reverse (scan place [c] rest) := by
      intro place c
      rw [ih place (c :: current), ih place [c], prefixed_prefixed, List.reverse_cons,
        List.reverse_singleton]
    cases place with
    | comment =>
      simp only [scan]
      split
      · exact hkept .plain '\n'
      · exact ih .comment current
    | quoted => exact hkept _ c
    | plain =>
      simp only [scan]
      split_ifs
      · exact hkept .quoted c
      · exact ih .comment current
      · simp [prefixed]
      · exact hkept .plain c

/-- A dash is not the first of two if it was not so far, nor is it with the first
character of what follows. -/
theorem not_dashes_append {c : Char} (hdash : ¬ (c = '-' ∧ l.head? = some '-'))
    (hseam : l = [] → c = '-' → r.head? ≠ some '-') :
    ¬ (c = '-' ∧ (l ++ r).head? = some '-') := by
  rintro ⟨rfl, hr⟩
  cases l with
  | nil => exact hseam rfl rfl hr
  | cons d l => exact hdash ⟨rfl, hr⟩

/-- **A scan goes on where it ended.** -/
theorem scan_append (place : Place) (current l r : List Char)
    (hseam : (scan place current l).2.2 = .plain →
      (scan place current l).2.1.getLast? = some '-' → r.head? ≠ some '-') :
    scan place current (l ++ r) =
      ((scan place current l).1 ++
          (scan (scan place current l).2.2 (scan place current l).2.1.reverse r).1,
        (scan (scan place current l).2.2 (scan place current l).2.1.reverse r).2) := by
  induction place, current, l using scan.induct with
  | case1 place current => simp
  | case2 current rest ih => simpa using ih (by simpa using hseam)
  | case3 current c rest hc ih => simpa [hc] using ih (by simpa [hc] using hseam)
  | case4 current c rest ih => exact ih hseam
  | case5 current rest ih => simpa using ih (by simpa using hseam)
  | case6 current c rest hquote hdash ih =>
    obtain ⟨rfl, hhead⟩ := hdash
    have hhead' : (rest ++ r).head? = some '-' := by simp [List.head?_append, hhead]
    simp only [scan, hquote, hhead, and_self, if_true, if_false] at hseam
    simpa [hhead, hhead'] using ih hseam
  | case7 current rest statements last hscan _ _ ih =>
    simp only [scan, hscan] at hseam ih
    simp [ih hseam, hscan]
  | case8 current c rest hquote hdash hsep ih =>
    have hdash' : ¬ (c = '-' ∧ (rest ++ r).head? = some '-') := by
      refine not_dashes_append hdash ?_
      rintro rfl rfl
      simpa using hseam
    simp only [scan, hquote, hdash, hsep, if_false] at hseam
    simp only [List.cons_append, scan, hquote, hdash, hdash', hsep, if_false]
    exact ih hseam

/-! ## Comments -/

theorem scan_comment (h : '\n' ∉ l) :
    scan .comment current l = ([], current.reverse, .comment) := by
  induction l with
  | nil => simp
  | cons c rest ih =>
    obtain ⟨hc, hrest⟩ := not_or.mp (List.mem_cons.not.mp h)
    rw [scan, if_neg (Ne.symm hc), ih hrest]

/-- A comment that no line break ends goes on to the end, wherever the first of
its dashes is. -/
theorem scan_dashes (place : Place) (current l tail : List Char) (htail : '\n' ∉ tail)
    (hplain : (scan place current l).2.2 = .plain) :
    (scan place current (l ++ '-' :: '-' :: tail)).2.2 = .comment := by
  induction place, current, l using scan.induct with
  | case1 place current =>
    obtain rfl : place = .plain := hplain
    simp [scan_comment htail]
  | case2 current rest ih => exact ih hplain
  | case3 current c rest hc ih =>
    rw [scan, if_neg hc] at hplain
    rw [List.cons_append, scan, if_neg hc]
    exact ih hplain
  | case4 current c rest ih => exact ih hplain
  | case5 current rest ih => exact ih hplain
  | case6 current c rest hquote hdash ih =>
    obtain ⟨rfl, hhead⟩ := hdash
    simp only [scan, hhead, and_self, if_true, hquote, if_false] at hplain
    simpa [List.head?_append, hhead] using ih hplain
  | case7 current rest statements last hscan _ _ ih =>
    simp only [scan, hscan] at hplain ih
    simpa using ih hplain
  | case8 current c rest hquote hdash hsep ih =>
    simp only [scan, hquote, hdash, hsep, if_false] at hplain
    simp only [List.cons_append, scan, hquote, hsep, if_false]
    split_ifs with hdash'
    · -- the character at hand is the first dash, and the text ends with it
      cases rest with
      | nil => rw [List.nil_append, scan_comment (by simpa using htail)]
      | cons d rest => exact absurd hdash' hdash
    · exact ih hplain

/-- The comment in which a scan ends began before the text or in it. -/
theorem exists_dashes (place : Place) (current l : List Char)
    (h : (scan place current l).2.2 = .comment) :
    (place = .comment ∧ '\n' ∉ l) ∨
      ∃ before tail, l = before ++ '-' :: '-' :: tail ∧ '\n' ∉ tail ∧
        (scan place current before).2.2 = .plain := by
  induction place, current, l using scan.induct with
  | case1 place current => exact .inl ⟨h, by simp⟩
  | case2 current rest ih =>
    obtain ⟨hplace, -⟩ | ⟨before, tail, rfl, htail, hplain⟩ := ih h
    · cases hplace
    · exact .inr ⟨'\n' :: before, tail, rfl, htail, hplain⟩
  | case3 current c rest hc ih =>
    rw [scan, if_neg hc] at h
    obtain ⟨-, hrest⟩ | ⟨before, tail, rfl, htail, hplain⟩ := ih h
    · exact .inl ⟨rfl, List.mem_cons.not.mpr (not_or.mpr ⟨Ne.symm hc, hrest⟩)⟩
    · refine .inr ⟨c :: before, tail, rfl, htail, ?_⟩
      rwa [scan, if_neg hc]
  | case4 current c rest ih =>
    obtain ⟨hplace, -⟩ | ⟨before, tail, rfl, htail, hplain⟩ := ih h
    · split_ifs at hplace
    · exact .inr ⟨c :: before, tail, rfl, htail, hplain⟩
  | case5 current rest ih =>
    obtain ⟨hplace, -⟩ | ⟨before, tail, rfl, htail, hplain⟩ := ih h
    · cases hplace
    · exact .inr ⟨'\'' :: before, tail, rfl, htail, hplain⟩
  | case6 current c rest hquote hdash ih =>
    obtain ⟨rfl, hhead⟩ := hdash
    simp only [scan, hhead, and_self, if_true, hquote, if_false] at h
    obtain ⟨-, hrest⟩ | ⟨before, tail, rfl, htail, hplain⟩ := ih h
    · obtain ⟨tail, rfl⟩ := List.head?_eq_some_iff.mp hhead
      exact .inr ⟨[], tail, rfl, fun hmem => hrest (List.mem_cons_of_mem _ hmem), rfl⟩
    · cases before with
      | nil => cases hplain
      | cons d before =>
        obtain rfl : d = '-' := by simpa using hhead
        exact .inr ⟨'-' :: '-' :: before, tail, rfl, htail, hplain⟩
  | case7 current rest statements last hscan _ _ ih =>
    simp only [scan, hscan] at h ih
    obtain ⟨hplace, -⟩ | ⟨before, tail, rfl, htail, hplain⟩ := ih h
    · cases hplace
    · exact .inr ⟨';' :: before, tail, rfl, htail, by simpa using hplain⟩
  | case8 current c rest hquote hdash hsep ih =>
    simp only [scan, hquote, hdash, hsep, if_false] at h
    obtain ⟨hplace, -⟩ | ⟨before, tail, rfl, htail, hplain⟩ := ih h
    · cases hplace
    · refine .inr ⟨c :: before, tail, rfl, htail, ?_⟩
      have hdash' : ¬ (c = '-' ∧ before.head? = some '-') := fun ⟨hc, hhead⟩ =>
        hdash ⟨hc, by simp [List.head?_append, hhead]⟩
      simpa only [scan, hquote, hdash', hsep, if_false] using hplain

/-- A scan ends inside a comment if there are two dashes where it reads plain
text, and no line break after them. -/
theorem scan_eq_comment_iff (l : List Char) :
    (scan .plain [] l).2.2 = .comment ↔
      ∃ before tail, l = before ++ '-' :: '-' :: tail ∧ '\n' ∉ tail ∧
        (scan .plain [] before).2.2 = .plain := by
  constructor
  · intro h
    obtain ⟨hplace, -⟩ | hdashes := exists_dashes .plain [] l h
    · cases hplace
    · exact hdashes
  · rintro ⟨before, tail, rfl, htail, hplain⟩
    exact scan_dashes .plain [] before tail htail hplain

/-! ## Pieces -/

/-- Where a scan stands after a text of which it keeps every character in one
piece; `none` for a text that it cuts or from which it takes a comment out. -/
def through : Place → List Char → Option Place
  | place, [] => some place
  | .comment, _ :: _ => none
  | .quoted, c :: rest => through (if c = '\'' then .plain else .quoted) rest
  | .plain, c :: rest =>
    if c = '\'' then through .quoted rest
    else if c = ';' ∨ c = '-' ∧ rest.head? = some '-' then none
    else through .plain rest

/-- What is kept of two texts one after the other is kept of both, unless a
comment begins with the last character of the one. -/
theorem through_append (place : Place) (l r : List Char)
    (hseam : through place l = some .plain → l.getLast? = some '-' → r.head? ≠ some '-') :
    through place (l ++ r) = (through place l).bind (through · r) := by
  induction place, l using through.induct with
  | case1 place => simp [through]
  | case2 c rest => simp [through]
  | case3 c rest ih =>
    refine ih fun hplain hlast => hseam hplain ?_
    simp [List.getLast?_cons, hlast]
  | case4 rest ih =>
    refine ih fun hplain hlast => hseam hplain ?_
    simp [List.getLast?_cons, hlast]
  | case5 c rest hquote hcut =>
    have hcut' : c = ';' ∨ c = '-' ∧ (rest ++ r).head? = some '-' :=
      hcut.imp_right fun ⟨hc, hhead⟩ => ⟨hc, by simp [List.head?_append, hhead]⟩
    rw [List.cons_append]
    simp only [through, hquote, hcut, hcut', if_true, if_false, Option.bind_none]
  | case6 c rest hquote hcut ih =>
    obtain ⟨hsep, hdash⟩ := not_or.mp hcut
    have hcut' : ¬ (c = ';' ∨ c = '-' ∧ (rest ++ r).head? = some '-') := by
      refine not_or.mpr ⟨hsep, not_dashes_append hdash ?_⟩
      rintro rfl rfl
      exact hseam rfl rfl
    rw [List.cons_append]
    simp only [through, hquote, hcut, hcut', if_false] at hseam ⊢
    refine ih fun hplain hlast => hseam hplain ?_
    simp [List.getLast?_cons, hlast]

theorem through_blank (h : ∀ c ∈ l, isBlank c) (hplace : place ≠ .comment) :
    through place l = some place := by
  induction l with
  | nil => simp [through]
  | cons c rest ih =>
    have hc : isBlank c := h c List.mem_cons_self
    have hquote : c ≠ '\'' := by rintro rfl; exact absurd hc (by decide)
    have hsep : c ≠ ';' := by rintro rfl; exact absurd hc (by decide)
    have hdash : c ≠ '-' := by rintro rfl; exact absurd hc (by decide)
    have ih := ih fun c' hc' => h c' (List.mem_cons_of_mem c hc')
    cases place with
    | plain => simpa [through, hquote, hsep, hdash] using ih
    | quoted => simpa [through, hquote] using ih
    | comment => exact absurd rfl hplace

/-- A text that is kept is the piece at hand when it has been read. -/
theorem scan_of_through (h : through place l = some place') (current r : List Char)
    (hseam : place' = .plain → l.getLast? = some '-' → r.head? ≠ some '-') :
    scan place current (l ++ r) = scan place' (l.reverse ++ current) r := by
  induction place, l using through.induct generalizing current with
  | case1 place => cases h; rfl
  | case2 c rest => cases h
  | case3 c rest ih =>
    have ih := ih h (c :: current) fun hplain hlast => hseam hplain (by
      simp [List.getLast?_cons, hlast])
    simpa using ih
  | case4 rest ih =>
    have ih := ih h ('\'' :: current) fun hplain hlast => hseam hplain (by
      simp [List.getLast?_cons, hlast])
    simpa using ih
  | case5 c rest hquote hcut => simp [through, hquote, hcut] at h
  | case6 c rest hquote hcut ih =>
    obtain ⟨hsep, hdash⟩ := not_or.mp hcut
    simp only [through, hquote, hcut, if_false] at h
    have hdash' : ¬ (c = '-' ∧ (rest ++ r).head? = some '-') := by
      refine not_dashes_append hdash ?_
      rintro rfl rfl
      cases h
      exact hseam rfl rfl
    have ih := ih h (c :: current) fun hplain hlast => hseam hplain (by
      simp [List.getLast?_cons, hlast])
    simp only [List.cons_append, scan, hquote, hdash', hsep, if_false]
    simpa using ih

/-- One more character. -/
theorem through_reverse_cons {c : Char} (h : through .plain current.reverse = some place)
    (hseam : place = .plain → current.head? = some '-' → c ≠ '-') :
    through .plain (c :: current).reverse = through place [c] := by
  rw [List.reverse_cons, through_append, h, Option.bind_some]
  intro hplain hlast
  rw [h, Option.some_inj] at hplain
  rw [List.getLast?_reverse] at hlast
  simpa using hseam hplain hlast

/-- **Every piece of a scan is kept by another scan.** The scan keeps what it
holds, and no dash that it holds outside of quotes meets a second one. -/
theorem through_of_mem_scan (place : Place) (current l : List Char)
    (hheld : through .plain current.reverse = some (if place = .quoted then .quoted else .plain))
    (hdash : place = .plain → current.head? = some '-' → l.head? ≠ some '-') :
    ∀ piece ∈ (scan place current l).1, through .plain piece = some .plain := by
  induction place, current, l using scan.induct with
  | case1 place current => simp
  | case2 current rest ih =>
    simp only [scan]
    refine ih ?_ (by simp)
    rw [through_reverse_cons hheld (by simp)]
    rfl
  | case3 current c rest hc ih =>
    simp only [scan, hc, if_false]
    exact ih hheld (by simp)
  | case4 current c rest ih =>
    simp only [scan]
    refine ih ?_ ?_
    · rw [through_reverse_cons hheld (by simp)]
      by_cases hc : c = '\'' <;> simp [through, hc]
    · by_cases hc : c = '\'' <;> simp [hc]
  | case5 current rest ih =>
    simp only [scan]
    refine ih ?_ (by simp)
    rw [through_reverse_cons hheld (by simp)]
    rfl
  | case6 current c rest hquote hcomment ih =>
    simp only [scan, hcomment]
    exact ih hheld (by simp)
  | case7 current rest statements last hscan _ _ ih =>
    rw [hscan] at ih
    simp only [scan, hscan]
    rintro piece hpiece
    rcases List.mem_cons.mp hpiece with rfl | hpiece
    · exact hheld
    · exact ih rfl (by simp) piece hpiece
  | case8 current c rest hquote hcomment hsep ih =>
    simp only [scan, hquote, hcomment, hsep, if_false]
    refine ih ?_ fun _ hc hhead => hcomment ⟨by simpa using hc, hhead⟩
    have hseam : current.head? = some '-' → c ≠ '-' := fun hlast hc =>
      hdash rfl hlast (by simp [hc])
    rw [through_reverse_cons hheld fun _ => hseam]
    simp [through, hquote, hsep]

end Querent.Script
