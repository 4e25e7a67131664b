import Mathlib.Data.List.Basic
import Mathlib.Tactic.MkIffOfInductiveProp
import Querent.Statement.TopLevel

/-!
# Keywords at top level

The places of a text at which a keyword stands, told by one scan from its start:
outside of quotes and parentheses, between characters that are none of a word.
Searching for the keyword cuts the text at the first of these places
(`cutKeyword?_eq`). Two texts one after the other have the places of both, if the
first of them is closed and no word goes across the seam (`wordPlaces_append`), so
that a search may as well begin anew behind a keyword, or behind a field.
-/

namespace Querent.Statement

variable {kw word a b l p : List Char} {n : Nesting} {c : Char} {i j : Nat}

/-! ## Nesting -/

/-- Neither a quote nor a parenthesis. -/
def IsPlain (c : Char) : Prop := c ≠ '\'' ∧ c ≠ '(' ∧ c ≠ ')'

instance : Decidable (IsPlain c) := inferInstanceAs (Decidable (_ ∧ _))

theorem step_of_plain (h : IsPlain c) : n.step c = n := by
  obtain ⟨hquote, hopen, hclose⟩ := h
  simp [Nesting.step, hquote, hopen, hclose]

theorem after_append (n : Nesting) (a b : List Char) : n.after (a ++ b) = (n.after a).after b :=
  List.foldl_append

theorem step_after (n : Nesting) (l : List Char) (c : Char) :
    (n.after l).step c = n.after (l ++ [c]) :=
  (after_append n l [c]).symm

theorem after_of_plain (h : ∀ c ∈ l, IsPlain c) : n.after l = n := by
  induction l with
  | nil => rfl
  | cons c rest ih =>
    obtain ⟨hc, hrest⟩ := List.forall_mem_cons.mp h
    show (n.step c).after rest = n
    rw [step_of_plain hc, ih hrest]

theorem isTop_iff : n.isTop c ↔ n = .outside ∧ IsPlain c := by
  rcases n with ⟨depth, quoted⟩
  simp only [Nesting.isTop, Nesting.outside, IsPlain, Nesting.mk.injEq, Bool.and_eq_true,
    Bool.not_eq_true', beq_iff_eq, bne_iff_ne]
  tauto

instance (l : List Char) : Decidable (IsClosed l) := inferInstanceAs (Decidable (_ = _))

theorem IsClosed.append (ha : IsClosed a) (hb : IsClosed b) : IsClosed (a ++ b) := by
  unfold IsClosed at *
  rw [after_append, ha, hb]

/-! ## Keywords -/

/-- A word of lower case letters. -/
def IsKeyword (kw : List Char) : Prop := kw ≠ [] ∧ kw.all Char.isLower

instance : Decidable (IsKeyword kw) := inferInstanceAs (Decidable (_ ∧ _))

/-- A letter of a keyword is a letter in any case. -/
theorem isWordChar_of_toLower (h : c.toLower.isLower) : isWordChar c := by
  have halpha : c.isAlpha := by
    refine Bool.or_eq_true_iff.mpr ?_
    by_cases hupper : c.val ≥ 'A'.val ∧ c.val ≤ 'Z'.val
    · exact .inl (decide_eq_true hupper)
    · have hself : c.toLower = c := dif_neg hupper
      rw [hself] at h
      exact .inr h
  simp [isWordChar, Char.isAlphanum, halpha]

theorem toNat_of_wordChar (h : isWordChar c) : (48 ≤ c.toNat ∧ c.toNat ≤ 57) ∨
    (65 ≤ c.toNat ∧ c.toNat ≤ 90) ∨ c.toNat = 95 ∨ (97 ≤ c.toNat ∧ c.toNat ≤ 122) := by
  change ((((c.val ≥ 'A'.val ∧ c.val ≤ 'Z'.val) || (c.val ≥ 'a'.val && c.val ≤ 'z'.val)) ||
    (c.val ≥ '0'.val && c.val ≤ '9'.val)) || c = '_') = true at h
  simp only [Bool.or_eq_true, Bool.and_eq_true, decide_eq_true_eq, ge_iff_le,
    UInt32.le_iff_toNat_le] at h
  change (((65 ≤ c.toNat ∧ c.toNat ≤ 90) ∨ (97 ≤ c.toNat ∧ c.toNat ≤ 122)) ∨
    (48 ≤ c.toNat ∧ c.toNat ≤ 57)) ∨ c = '_' at h
  rcases h with ((h | h) | h) | rfl
  · omega
  · omega
  · omega
  · decide

theorem isPlain_of_wordChar (h : isWordChar c) : IsPlain c := by
  refine ⟨?_, ?_, ?_⟩ <;>
    · rintro rfl
      exact absurd h (by decide)

/-- The word `kw` in any case of letters consists of word characters. -/
theorem isWordChar_of_spelled (hkw : IsKeyword kw) (h : word.map Char.toLower = kw) :
    ∀ c ∈ word, isWordChar c := by
  intro c hc
  refine isWordChar_of_toLower (List.all_eq_true.mp hkw.2 c.toLower ?_)
  rw [← h]
  exact List.mem_map_of_mem hc

/-- The keyword `kw`, in any case of letters, stands at the place `i` of `l`: as a
whole word, outside of quotes and parentheses. -/
@[mk_iff]
structure WordAt (kw l : List Char) (i : Nat) : Prop where
  top : Nesting.outside.after (l.take i) = .outside
  start : ¬ (l.take i).getLast?.any isWordChar
  word : ((l.drop i).take kw.length).map Char.toLower = kw
  stop : ¬ (l.drop (i + kw.length)).head?.any isWordChar

instance : Decidable (WordAt kw l i) := decidable_of_iff' _ (wordAt_iff kw l i)

/-- The places of `l` at which the keyword `kw` stands, from left to right. -/
def wordPlaces (kw l : List Char) : List Nat := (List.range l.length).filter (WordAt kw l ·)

/-- No word goes on from the end of `a` into `b`. -/
def Apart (a b : List Char) : Prop := a.getLast?.any isWordChar → ¬ b.head?.any isWordChar

instance : Decidable (Apart a b) := inferInstanceAs (Decidable (_ → _))

/-! ## The search -/

theorem dropKeyword?_eq (kw l : List Char) : dropKeyword? kw l =
    if (l.take kw.length).map Char.toLower = kw then some (l.drop kw.length) else none := by
  induction kw generalizing l with
  | nil => simp [dropKeyword?]
  | cons k kw ih =>
    cases l with
    | nil => simp [dropKeyword?]
    | cons c l =>
      by_cases hc : c.toLower = k
      · simp [dropKeyword?, hc, ih]
      · simp [dropKeyword?, hc]

/-- The place behind a text `p` that was scanned already. -/
theorem wordAt_length_iff : WordAt kw (p ++ l) p.length ↔
    Nesting.outside.after p = .outside ∧ ¬ p.getLast?.any isWordChar ∧
      (l.take kw.length).map Char.toLower = kw ∧ ¬ (l.drop kw.length).head?.any isWordChar := by
  rw [wordAt_iff, List.take_left, List.drop_left, List.drop_length_add_append]

/-- The search looks for a keyword wherever it may stand. -/
theorem wholeWord?_eq (hkw : IsKeyword kw) (p : List Char) (c : Char) (rest : List Char) :
    (if (Nesting.outside.after p).isTop c then
      wholeWord? kw (p.getLast?.any isWordChar) (c :: rest) else none) =
      if WordAt kw (p ++ c :: rest) p.length then some ((c :: rest).drop kw.length) else none := by
  have hplain : ((c :: rest).take kw.length).map Char.toLower = kw → IsPlain c := by
    intro hspelled
    refine isPlain_of_wordChar (isWordChar_of_spelled hkw hspelled c ?_)
    obtain ⟨m, hm⟩ := Nat.exists_eq_add_one_of_ne_zero (mt List.length_eq_zero_iff.mp hkw.1)
    rw [hm, List.take_succ_cons]
    exact List.mem_cons_self
  simp only [wholeWord?, dropKeyword?_eq, wordAt_length_iff, isTop_iff]
  split_ifs <;> simp_all

/-- A search that has come behind a text `p` finds the first place from there on. -/
theorem cutKeyword?_behind (hkw : IsKeyword kw) (p l : List Char) :
    cutKeyword? kw (Nesting.outside.after p) (p.getLast?.any isWordChar) l =
      ((List.range l.length).find? fun i => WordAt kw (p ++ l) (p.length + i)).map
        fun i => (l.take i, l.drop (i + kw.length)) := by
  induction l generalizing p with
  | nil => rfl
  | cons c rest ih =>
    have hlast : isWordChar c = (p ++ [c]).getLast?.any isWordChar := by simp
    have hshift : ∀ i, WordAt kw (p ++ [c] ++ rest) ((p ++ [c]).length + i) ↔
        WordAt kw (p ++ c :: rest) (p.length + (i + 1)) := by
      intro i
      simp [Nat.add_assoc, Nat.add_comm 1]
    simp only [cutKeyword?, wholeWord?_eq hkw, List.length_cons, List.range_succ_eq_map,
      List.find?_cons, Nat.add_zero]
    by_cases hhere : WordAt kw (p ++ c :: rest) p.length
    · simp [hhere]
    · rw [step_after, hlast, ih (p ++ [c])]
      simp only [hhere, hshift, if_false, decide_false, List.find?_map, Option.map_map,
        Function.comp_def, Nat.succ_eq_add_one, List.take_succ_cons, Nat.add_right_comm _ 1,
        List.drop_succ_cons]

/-- **The search cuts at the first place of the keyword.** -/
theorem cutKeyword?_eq (hkw : IsKeyword kw) (l : List Char) :
    cutKeyword? kw .outside false l =
      (wordPlaces kw l).head?.map fun i => (l.take i, l.drop (i + kw.length)) := by
  have h := cutKeyword?_behind hkw [] l
  simp only [List.nil_append, List.length_nil, Nat.zero_add] at h
  rw [wordPlaces, List.head?_filter]
  exact h

/-! ## Texts one after the other -/

theorem WordAt.le_length (h : WordAt kw l i) (hkw : IsKeyword kw) : i + kw.length ≤ l.length := by
  have hpos := List.length_pos_iff.mpr hkw.1
  have hlength := congrArg List.length h.word
  simp only [List.length_map, List.length_take, List.length_drop] at hlength
  omega

/-- Every character of a keyword that stands in a text is one of a word. -/
theorem WordAt.wordChar (h : WordAt kw l i) (hkw : IsKeyword kw) (hij : i ≤ j)
    (hj : j < i + kw.length) : l[j]?.any isWordChar := by
  have hlength := h.le_length hkw
  obtain ⟨c, hc⟩ : ∃ c, l[j]? = some c := ⟨_, List.getElem?_eq_getElem (by omega)⟩
  have hmem : c ∈ (l.drop i).take kw.length := by
    refine List.mem_of_getElem? (i := j - i) ?_
    rw [List.getElem?_take_of_lt (by omega), List.getElem?_drop, Nat.add_sub_cancel' hij, hc]
  rw [hc]
  exact isWordChar_of_spelled hkw h.word c hmem

theorem mem_wordPlaces (hkw : IsKeyword kw) : i ∈ wordPlaces kw l ↔ WordAt kw l i := by
  simp only [wordPlaces, List.mem_filter, List.mem_range, decide_eq_true_eq, and_iff_right_iff_imp]
  intro h
  have hlength := h.le_length hkw
  have hpos := List.length_pos_iff.mpr hkw.1
  omega

theorem wordPlaces_eq_nil_iff (hkw : IsKeyword kw) :
    wordPlaces kw l = [] ↔ ∀ i, ¬ WordAt kw l i := by
  simp [List.eq_nil_iff_forall_not_mem, mem_wordPlaces hkw]

/-- A keyword that begins in the first of two texts ends in it: if it went on, one word
would go across the seam. -/
theorem WordAt.le_length_left (h : WordAt kw (a ++ b) i) (hkw : IsKeyword kw)
    (hapart : Apart a b) (hi : i < a.length) : i + kw.length ≤ a.length := by
  by_contra hgt
  have hlast : a.getLast? = (a ++ b)[a.length - 1]? := by
    rw [List.getLast?_eq_getElem?, List.getElem?_append_left (by omega)]
  have hhead : b.head? = (a ++ b)[a.length]? := by
    rw [List.getElem?_append_right (Nat.le_refl _), Nat.sub_self, List.head?_eq_getElem?]
  refine hapart ?_ ?_
  · rw [hlast]
    exact h.wordChar hkw (by omega) (by omega)
  · rw [hhead]
    exact h.wordChar hkw (by omega) (by omega)

/-- A keyword at the end of a text has a word character for its last one. -/
theorem WordAt.getLast?_word (h : WordAt kw l i) (hkw : IsKeyword kw)
    (hend : l.drop (i + kw.length) = []) : l.getLast?.any isWordChar := by
  have hle := h.le_length hkw
  have hpos := List.length_pos_iff.mpr hkw.1
  have hlength := congrArg List.length hend
  simp only [List.length_drop, List.length_nil] at hlength
  rw [List.getLast?_eq_getElem?]
  exact h.wordChar hkw (by omega) (by omega)

/-- A keyword that begins in the first of two texts stands in it. -/
theorem wordAt_append_left (hkw : IsKeyword kw) (hapart : Apart a b) (hi : i < a.length) :
    WordAt kw (a ++ b) i ↔ WordAt kw a i := by
  have htake : (a ++ b).take i = a.take i := List.take_append_of_le_length (Nat.le_of_lt hi)
  have hword : i + kw.length ≤ a.length →
      ((a ++ b).drop i).take kw.length = (a.drop i).take kw.length := by
    intro hle
    rw [List.drop_append_of_le_length (Nat.le_of_lt hi), List.take_append_of_le_length]
    rw [List.length_drop]
    omega
  constructor
  · intro h
    have hle := h.le_length_left hkw hapart hi
    obtain ⟨top, start, spelled, stop⟩ := h
    rw [htake] at top start
    rw [hword hle] at spelled
    refine ⟨top, start, spelled, fun hmore => stop ?_⟩
    rw [List.drop_append_of_le_length hle]
    cases hrest : a.drop (i + kw.length) with
    | nil => simp [hrest] at hmore
    | cons c rest => simpa [hrest] using hmore
  · intro h
    have hle := h.le_length hkw
    refine ⟨htake ▸ h.top, htake ▸ h.start, (hword hle).symm ▸ h.word, ?_⟩
    rw [List.drop_append_of_le_length hle]
    cases hrest : a.drop (i + kw.length) with
    | nil => exact hapart (h.getLast?_word hkw hrest)
    | cons c rest =>
      have := h.stop
      rwa [hrest] at this

/-- A keyword at the front of a text has a word character for its first one. -/
theorem WordAt.head?_word (h : WordAt kw l 0) (hkw : IsKeyword kw) :
    l.head?.any isWordChar := by
  have hpos := List.length_pos_iff.mpr hkw.1
  rw [List.head?_eq_getElem?]
  exact h.wordChar hkw (Nat.le_refl 0) (by omega)

/-- A scan that has come behind a closed text is one from the start. -/
theorem wordAt_append_right (hkw : IsKeyword kw) (ha : IsClosed a) (hapart : Apart a b) :
    WordAt kw (a ++ b) (a.length + j) ↔ WordAt kw b j := by
  have htop : Nesting.outside.after (a ++ b.take j) = Nesting.outside.after (b.take j) := by
    rw [after_append, ha]
  rw [wordAt_iff, List.take_length_add_append, List.drop_length_add_append, Nat.add_assoc,
    List.drop_length_add_append, htop, List.getLast?_append]
  constructor
  · rintro ⟨top, start, spelled, stop⟩
    refine ⟨top, fun hlast => start ?_, spelled, stop⟩
    cases hword : (b.take j).getLast? <;> simp_all
  · intro h
    refine ⟨h.top, ?_, h.word, h.stop⟩
    cases hlast : (b.take j).getLast? with
    | some c =>
      have := h.start
      rwa [hlast] at this
    | none =>
      -- the keyword is at the front of `b`, so that `a` has to end before it
      have hle := h.le_length hkw
      have hpos := List.length_pos_iff.mpr hkw.1
      have hzero : j = 0 := by
        have := congrArg List.length (List.getLast?_eq_none_iff.mp hlast)
        simp only [List.length_take, List.length_nil] at this
        omega
      subst hzero
      exact fun hword => hapart hword (h.head?_word hkw)

/-- **Two texts one after the other have the places of both.** -/
theorem wordPlaces_append (hkw : IsKeyword kw) (ha : IsClosed a) (hapart : Apart a b) :
    wordPlaces kw (a ++ b) = wordPlaces kw a ++ (wordPlaces kw b).map (a.length + ·) := by
  simp only [wordPlaces, List.length_append, List.range_add, List.filter_append, List.filter_map]
  congr 1
  · refine List.filter_congr fun i hi => ?_
    rw [decide_eq_decide]
    exact wordAt_append_left hkw hapart (List.mem_range.mp hi)
  · congr 1
    refine List.filter_congr fun j _ => ?_
    rw [Function.comp_apply, decide_eq_decide]
    exact wordAt_append_right hkw ha hapart

/-- The keyword stands in a text that it makes up, and nowhere else in it. -/
theorem wordPlaces_spelled (hkw : IsKeyword kw) (h : word.map Char.toLower = kw) :
    wordPlaces kw word = [0] := by
  have hlength : word.length = kw.length := by rw [← h, List.length_map]
  have hfirst : WordAt kw word 0 := by
    refine ⟨rfl, by simp, ?_, ?_⟩
    · rw [List.drop_zero, ← hlength, List.take_length, h]
    · rw [Nat.zero_add, ← hlength, List.drop_length]
      exact Bool.false_ne_true
  obtain ⟨m, hm⟩ := Nat.exists_eq_add_one_of_ne_zero (mt List.length_eq_zero_iff.mp hkw.1)
  rw [wordPlaces, hlength, hm, List.range_succ_eq_map,
    List.filter_cons_of_pos (by simpa using hfirst)]
  refine congrArg _ (List.filter_eq_nil_iff.mpr fun i hi => ?_)
  obtain ⟨j, -, rfl⟩ := List.mem_map.mp hi
  intro hword
  have hle := (of_decide_eq_true hword).le_length hkw
  omega

/-- The places of a keyword in a text around one of them, which splits it into two
texts that can be searched apart. -/
theorem wordPlaces_around (hkw : IsKeyword kw) (hword : word.map Char.toLower = kw)
    (ha : IsClosed a) (hstart : ¬ a.getLast?.any isWordChar)
    (hstop : ¬ b.head?.any isWordChar) :
    wordPlaces kw (a ++ (word ++ b)) =
      wordPlaces kw a ++ a.length :: (wordPlaces kw b).map (a.length + kw.length + ·) := by
  have hlength : word.length = kw.length := by rw [← hword, List.length_map]
  have hclosed : IsClosed word :=
    after_of_plain fun c hc => isPlain_of_wordChar (isWordChar_of_spelled hkw hword c hc)
  rw [wordPlaces_append hkw ha fun h => absurd h hstart,
    wordPlaces_append hkw hclosed fun _ => hstop, wordPlaces_spelled hkw hword]
  simp [hlength, Nat.add_assoc]

theorem cutKeyword?_around (hkw : IsKeyword kw) (hword : word.map Char.toLower = kw)
    (ha : IsClosed a) (hnone : wordPlaces kw a = []) (hstart : ¬ a.getLast?.any isWordChar)
    (hstop : ¬ b.head?.any isWordChar) :
    cutKeyword? kw .outside false (a ++ (word ++ b)) = some (a, b) := by
  have hlength : word.length = kw.length := by rw [← hword, List.length_map]
  rw [cutKeyword?_eq hkw, wordPlaces_around hkw hword ha hstart hstop, hnone, ← hlength]
  simp

/-- A search that finds a keyword has taken it out of the text at its first place. -/
theorem exists_of_cutKeyword? (hkw : IsKeyword kw)
    (h : cutKeyword? kw .outside false l = some (a, b)) :
    ∃ word, l = a ++ (word ++ b) ∧ word.map Char.toLower = kw ∧ IsClosed a ∧
      ¬ a.getLast?.any isWordChar ∧ ¬ b.head?.any isWordChar ∧ wordPlaces kw a = [] := by
  rw [cutKeyword?_eq hkw] at h
  obtain ⟨i, hfirst, hcut⟩ := Option.map_eq_some_iff.mp h
  obtain ⟨rfl, rfl⟩ := Prod.mk.inj hcut
  have hi : WordAt kw l i := (mem_wordPlaces hkw).mp (List.mem_of_head? hfirst)
  have hwhole : l = l.take i ++ ((l.drop i).take kw.length ++ l.drop (i + kw.length)) := by
    rw [← List.drop_drop, List.take_append_drop, List.take_append_drop]
  refine ⟨(l.drop i).take kw.length, hwhole, hi.word, hi.top, hi.start, hi.stop, ?_⟩
  -- a place before the cut would be the first one
  have hplaces := wordPlaces_around hkw hi.word hi.top hi.start hi.stop
  rw [← hwhole] at hplaces
  rw [hplaces, List.head?_append] at hfirst
  cases hbefore : wordPlaces kw (l.take i) with
  | nil => rfl
  | cons j more =>
    obtain rfl : j = i := by simpa [hbefore] using hfirst
    have hj : WordAt kw (l.take j) j := (mem_wordPlaces hkw).mp (hbefore ▸ List.mem_cons_self)
    have hle := hj.le_length hkw
    have hpos := List.length_pos_iff.mpr hkw.1
    rw [List.length_take] at hle
    omega

/-! ## Texts without words -/

/-- A text of blanks and separators. -/
def IsGap (l : List Char) : Prop := ∀ c ∈ l, IsPlain c ∧ ¬ isWordChar c

instance (l : List Char) : Decidable (IsGap l) := List.decidableBAll _ l

theorem IsGap.append (ha : IsGap a) (hb : IsGap b) : IsGap (a ++ b) :=
  List.forall_mem_append.mpr ⟨ha, hb⟩

theorem IsGap.closed (h : IsGap l) : IsClosed l := after_of_plain fun c hc => (h c hc).1

theorem IsGap.apart_left (h : IsGap a) : Apart a b := by
  intro hword
  obtain ⟨c, hc, hword⟩ := (Option.any_eq_true _ _).mp hword
  exact absurd hword (h c (List.mem_of_getLast? hc)).2

theorem IsGap.apart_right (h : IsGap b) : Apart a b := by
  rintro - hword
  obtain ⟨c, hc, hword⟩ := (Option.any_eq_true _ _).mp hword
  exact (h c (List.mem_of_head? hc)).2 hword

theorem IsGap.wordPlaces_eq_nil (h : IsGap l) (hkw : IsKeyword kw) : wordPlaces kw l = [] := by
  rw [wordPlaces_eq_nil_iff hkw]
  intro i hi
  have hpos := List.length_pos_iff.mpr hkw.1
  obtain ⟨c, hc, hword⟩ := (Option.any_eq_true _ _).mp (hi.wordChar hkw (Nat.le_refl i) (by omega))
  exact (h c (List.mem_of_getElem? hc)).2 hword

/-- Texts without a keyword have none together, if they do not make one word. -/
theorem wordPlaces_append_eq_nil (hkw : IsKeyword kw) (hclosed : IsClosed a)
    (hapart : Apart a b) (ha : wordPlaces kw a = []) (hb : wordPlaces kw b = []) :
    wordPlaces kw (a ++ b) = [] := by
  rw [wordPlaces_append hkw hclosed hapart, ha, hb]
  rfl

theorem IsGap.wordPlaces_append_eq_nil (h : IsGap a) (hkw : IsKeyword kw)
    (hb : wordPlaces kw b = []) : wordPlaces kw (a ++ b) = [] :=
  Statement.wordPlaces_append_eq_nil hkw h.closed h.apart_left (h.wordPlaces_eq_nil hkw) hb

/-- A gap behind a text, closed or not, adds no place to it. -/
theorem IsGap.wordPlaces_append (h : IsGap b) (hkw : IsKeyword kw) (a : List Char) :
    wordPlaces kw (a ++ b) = wordPlaces kw a := by
  simp only [wordPlaces, List.length_append, List.range_add, List.filter_append]
  have hfront : (List.range a.length).filter (WordAt kw (a ++ b) ·) =
      (List.range a.length).filter (WordAt kw a ·) := by
    refine List.filter_congr fun i hi => ?_
    rw [decide_eq_decide]
    exact wordAt_append_left hkw h.apart_right (List.mem_range.mp hi)
  have hgap : ((List.range b.length).map (a.length + ·)).filter (WordAt kw (a ++ b) ·) = [] := by
    refine List.filter_eq_nil_iff.mpr fun i hi hword => ?_
    obtain ⟨j, -, rfl⟩ := List.mem_map.mp hi
    have hpos := List.length_pos_iff.mpr hkw.1
    have hchar := (of_decide_eq_true hword).wordChar hkw (Nat.le_refl _) (by omega)
    obtain ⟨c, hc, hwordChar⟩ := (Option.any_eq_true _ _).mp hchar
    rw [List.getElem?_append_right (Nat.le_add_right _ _), Nat.add_sub_cancel_left] at hc
    exact (h c (List.mem_of_getElem? hc)).2 hwordChar
  rw [hfront, hgap, List.append_nil]

/-- The search of a text with a gap behind it cuts where that of the text does. -/
theorem IsGap.cutKeyword?_append (h : IsGap b) (hkw : IsKeyword kw) (a : List Char) :
    cutKeyword? kw .outside false (a ++ b) =
      (cutKeyword? kw .outside false a).map fun (before, behind) => (before, behind ++ b) := by
  rw [cutKeyword?_eq hkw, cutKeyword?_eq hkw, h.wordPlaces_append hkw]
  cases hfirst : (wordPlaces kw a).head? with
  | none => rfl
  | some i =>
    have hle := ((mem_wordPlaces hkw).mp (List.mem_of_head? hfirst)).le_length hkw
    simp only [Option.map_some]
    rw [List.take_append_of_le_length (by omega), List.drop_append_of_le_length hle]

end Querent.Statement
