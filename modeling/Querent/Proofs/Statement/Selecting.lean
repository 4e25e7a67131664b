import Mathlib.Data.List.Basic
import Querent.Proofs.Statement.Fields

/-!
# Column names of a select as it is written

A select between blanks, its keywords in any case of letters, with a list of fields
and any text behind it. Reading it takes off the blanks and the semicolons at the
end, which never reaches back to the second keyword, cuts at both keywords, and
splits what is between them. Each step scans another part of the text anew; that the
parts are closed makes these scans agree with one of the whole.
-/

namespace Querent.Statement

open Text

variable {a l list table tail before : List Char} {c : Char} {kw : List Char}
  {fields : List String} {field text : String}

theorem head?_word_append (h : a.head?.any isWordChar) (b : List Char) :
    (a ++ b).head?.any isWordChar := by
  cases a with
  | nil => cases h
  | cons c rest => exact h

theorem getLast?_word_append (h : l.getLast?.any isWordChar) (a : List Char) :
    (a ++ l).getLast?.any isWordChar := by
  obtain ⟨c, hc, hword⟩ := (Option.any_eq_true _ _).mp h
  rw [List.getLast?_append, hc]
  exact hword

/-! ## The end of the statement -/

/-- A text without the blanks and the semicolons at its end, as a statement loses
them: blanks, semicolons, and once more blanks. -/
def unterminated (l : List Char) : List Char :=
  trimEnd (dropEndWhile (· = ';') (trimEnd l))

theorem exists_append_unterminated (l : List Char) : ∃ lost, unterminated l ++ lost = l := by
  have hblanks : ∀ l, trimEnd l <+: l := fun l => List.rdropWhile_prefix _ l
  have hsemicolons : dropEndWhile (· = ';') (trimEnd l) <+: trimEnd l :=
    List.rdropWhile_prefix _ _
  exact ((hblanks _).trans hsemicolons).trans (hblanks l)

/-- A character that a statement can lose at its end. -/
def isEnding (c : Char) : Bool := isBlank c || c = ';'

theorem isEnding_iff : isEnding c ↔ isBlank c ∨ c = ';' := by
  rw [isEnding, Bool.or_eq_true, decide_eq_true_eq]

theorem not_ending_of_wordChar (h : isWordChar c) : ¬ isEnding c := by
  intro hending
  rcases isEnding_iff.mp hending with hblank | rfl
  · exact not_wordChar_of_blank hblank h
  · exact absurd h (by decide)

/-- What ends with another character is kept in front of what is taken off. -/
theorem unterminated_append (hlast : ∀ c ∈ a.getLast?, ¬ isEnding c) (tail : List Char) :
    unterminated (a ++ tail) = a ++ unterminated tail := by
  have hblank : ∀ c ∈ a.getLast?, ¬ isBlank c :=
    fun c hc hb => hlast c hc (isEnding_iff.mpr (.inl hb))
  have hsemicolon : ∀ c ∈ a.getLast?, ¬ decide (c = ';') :=
    fun c hc hs => hlast c hc (isEnding_iff.mpr (.inr (of_decide_eq_true hs)))
  unfold unterminated trimEnd
  rw [dropEndWhile_append_of_last hblank, dropEndWhile_append_of_last hsemicolon,
    dropEndWhile_append_of_last hblank]

/-- Nothing is taken off a statement between its first word and its last. -/
theorem statementCore_append (hbefore : ∀ c ∈ before, isBlank c)
    (hfirst : a.head?.any isWordChar) (hlast : a.getLast?.any isWordChar) (tail : List Char) :
    statementCore (before ++ (a ++ tail)) = a ++ unterminated tail := by
  have hstart : trimStart (before ++ (a ++ tail)) = a ++ tail := by
    cases a with
    | nil => cases hfirst
    | cons c rest =>
      have hc : ¬ isBlank c := fun hb => not_wordChar_of_blank hb hfirst
      unfold trimStart
      rw [List.dropWhile_append_of_pos hbefore, List.cons_append, List.dropWhile_cons_of_neg hc]
  have hkept : ∀ c ∈ a.getLast?, ¬ isEnding c := by
    obtain ⟨last, hmem, hword⟩ := (Option.any_eq_true _ _).mp hlast
    rintro c hc
    obtain rfl : last = c := by simpa [hmem] using hc
    exact not_ending_of_wordChar hword
  show unterminated (trimStart (before ++ (a ++ tail))) = a ++ unterminated tail
  rw [hstart, unterminated_append hkept]

/-! ## The front of the list -/

theorem columnsOf_named (hlist : (trim list).head? = some c) (hc : c ≠ '*') :
    columnsOf list table =
      .named ((splitFieldChars list).map fun f => String.ofList (fieldNameChars f)) := by
  obtain ⟨rest, hrest⟩ := List.head?_eq_some_iff.mp hlist
  rw [← splitFieldChars_trim list, columnsOf, hrest]
  split
  · contradiction
  · next heq => exact absurd (List.cons.inj heq).1 hc
  · rfl

theorem columnsOf_star (hlist : (trim list).head? = some '*') :
    columnsOf list table = if table = [] then .unknown else .star (String.ofList table) := by
  obtain ⟨rest, hrest⟩ := List.head?_eq_some_iff.mp hlist
  simp only [columnsOf, hrest, List.isEmpty_iff]

/-- The first field begins the list, if it is not blank. -/
theorem Padded.head?_trim (h : Padded field text) (hfield : trim field.toList ≠ [])
    (rest : List Char) : (trim (text.toList ++ rest)).head? = (trim field.toList).head? := by
  obtain ⟨before, after, hbefore, -, htext⟩ := h.exists_blanks
  obtain ⟨c, hc⟩ : ∃ c, (trim field.toList).head? = some c :=
    ⟨_, List.head?_eq_some_head hfield⟩
  rw [Text.head?_trim] at hc ⊢
  simp [htext, List.find?_append, find?_blank hbefore, hc, Text.head?_trim]

theorem Listing.head?_trim (h : Listing (field :: fields) text) (hfield : trim field.toList ≠ []) :
    (trim text.toList).head? = (trim field.toList).head? := by
  cases h with
  | single hpadded => simpa using hpadded.head?_trim hfield []
  | cons hpadded hrest =>
    simpa [List.append_assoc] using hpadded.head?_trim hfield _

/-! ## Lists without a keyword -/

theorem Padded.wordPlaces_eq_nil (h : Padded field text) (hkw : IsKeyword kw)
    (hclosed : IsClosed field.toList) (hnone : wordPlaces kw field.toList = []) :
    wordPlaces kw text.toList = [] := by
  obtain ⟨before, after, hbefore, hafter, htext⟩ := h.exists_blanks
  have hafter := isGap_of_blank hafter
  rw [htext]
  refine (isGap_of_blank hbefore).wordPlaces_append_eq_nil hkw ?_
  exact wordPlaces_append_eq_nil hkw hclosed hafter.apart_right hnone
    (hafter.wordPlaces_eq_nil hkw)

theorem Listing.wordPlaces_eq_nil (h : Listing fields text) (hkw : IsKeyword kw)
    (hfields : ∀ f ∈ fields, IsClosed f.toList ∧ wordPlaces kw f.toList = []) :
    wordPlaces kw text.toList = [] := by
  induction h with
  | single hfield =>
    obtain ⟨hclosed, hnone⟩ := hfields _ List.mem_cons_self
    exact hfield.wordPlaces_eq_nil hkw hclosed hnone
  | cons hfield hrest ih =>
    obtain ⟨⟨hclosed, hnone⟩, hmore⟩ := List.forall_mem_cons.mp hfields
    have hcomma : IsGap ",".toList := by decide
    have hfront := hfield.wordPlaces_eq_nil hkw hclosed hnone
    simp only [String.toList_append]
    refine wordPlaces_append_eq_nil hkw ((hfield.closed hclosed).append hcomma.closed) ?_ ?_
      (ih hmore)
    · exact fun hword => absurd hword (by simp [isWordChar])
    · exact wordPlaces_append_eq_nil hkw (hfield.closed hclosed) hcomma.apart_right hfront
        (hcomma.wordPlaces_eq_nil hkw)

/-! ## The statement -/

/-- `word` is the word `kw` with its letters in any case. -/
def Spells (word kw : String) : Prop := word.toList.map Char.toLower = kw.toList

instance (word kw : String) : Decidable (Spells word kw) := inferInstanceAs (Decidable (_ = _))

/-- `text` selects `list` and goes on with `tail`. The keywords are in any case of
letters. The blanks around them are those of `list` and of `tail`; there need be none
where a keyword ends without them, as before a parenthesis. -/
def Selects (list tail text : String) : Prop :=
  ∃ before select source : String, before.toList.all isBlank ∧ Spells select "select" ∧
    Spells source "from" ∧ Apart select.toList list.toList ∧
    Apart list.toList source.toList ∧ Apart source.toList tail.toList ∧
    text = before ++ select ++ list ++ source ++ tail

/-- A text that can be a field of a list: closed and not blank, with no comma and no
word `from` at top level. -/
@[mk_iff]
structure IsField (field : String) : Prop where
  closed : IsClosed field.toList
  nonblank : trim field.toList ≠ []
  undivided : ∀ i, ¬ CommaAt field.toList i
  sourceless : ∀ i, ¬ WordAt "from".toList field.toList i

theorem isKeyword_select : IsKeyword "select".toList := by decide

theorem isKeyword_from : IsKeyword "from".toList := by decide

instance (field : String) : Decidable (IsField field) :=
  decidable_of_iff' (IsClosed field.toList ∧ trim field.toList ≠ [] ∧
      cutCommas .outside field.toList = [field.toList] ∧
      wordPlaces "from".toList field.toList = []) <| by
    rw [isField_iff, cutCommas_eq_singleton_iff, wordPlaces_eq_nil_iff isKeyword_from]

theorem Spells.ne_nil {word kw : String} (h : Spells word kw) (hkw : IsKeyword kw.toList) :
    word.toList ≠ [] := by
  intro hnil
  refine hkw.1 ?_
  rw [← h, hnil]
  rfl

theorem Spells.head?_word {word kw : String} (h : Spells word kw) (hkw : IsKeyword kw.toList) :
    word.toList.head?.any isWordChar := by
  rw [List.head?_eq_some_head (h.ne_nil hkw)]
  exact isWordChar_of_spelled hkw h _ (List.head_mem _)

theorem Spells.getLast?_word {word kw : String} (h : Spells word kw)
    (hkw : IsKeyword kw.toList) : word.toList.getLast?.any isWordChar := by
  rw [List.getLast?_eq_some_getLast (h.ne_nil hkw)]
  exact isWordChar_of_spelled hkw h _ (List.getLast_mem _)

/-- The columns of a select are those of its list and of the first word behind. -/
theorem selectColumns_eq {list tail : String} (h : Selects list tail text)
    (hne : list.toList ≠ []) (hclosed : IsClosed list.toList)
    (hnone : wordPlaces "from".toList list.toList = []) :
    selectColumns text = columnsOf list.toList (firstWord (unterminated tail.toList)) := by
  obtain ⟨before, select, source, hbefore, hselect, hsource, hstart, hend, htail, rfl⟩ := h
  have hfirst := hselect.head?_word isKeyword_select
  have hlast := hsource.getLast?_word isKeyword_from
  have hcore : statementCore (before ++ select ++ list ++ source ++ tail).toList =
      select.toList ++ (list.toList ++ (source.toList ++ unterminated tail.toList)) := by
    have hwords := statementCore_append (List.all_eq_true.mp hbefore)
      (head?_word_append hfirst (list.toList ++ source.toList))
      (getLast?_word_append (getLast?_word_append hlast _) _) tail.toList
    simpa [List.append_assoc] using hwords
  have hselected : cutKeyword? "select".toList .outside false
      (select.toList ++ (list.toList ++ (source.toList ++ unterminated tail.toList))) =
        some ([], list.toList ++ (source.toList ++ unterminated tail.toList)) := by
    refine cutKeyword?_around (a := []) isKeyword_select hselect rfl rfl Bool.false_ne_true ?_
    rw [List.head?_append_of_ne_nil _ hne]
    exact hstart (hselect.getLast?_word isKeyword_select)
  have hsourced : cutKeyword? "from".toList .outside false
      (list.toList ++ (source.toList ++ unterminated tail.toList)) =
        some (list.toList, unterminated tail.toList) := by
    refine cutKeyword?_around isKeyword_from hsource hclosed hnone ?_ ?_
    · exact fun hword => hend hword (hsource.head?_word isKeyword_from)
    · intro hword
      obtain ⟨lost, hlost⟩ := exists_append_unterminated tail.toList
      exact htail hlast (hlost ▸ head?_word_append hword lost)
  rw [selectColumns, hcore, hselected]
  simp only [hsourced]

/-- **A select names its columns by its fields.** Whatever the fields hold below top
level, and whatever is behind them, the columns are the names of the fields. A list
that begins with a star leaves the names to the table, which is the first word of the
text behind, as far as the end of the statement leaves one. -/
theorem selectColumns_written (list tail text : String) (h : Selects list tail text) :
    (∀ fields : List String, Listing fields list → (∀ f ∈ fields, IsField f) →
      (∀ f ∈ fields.head?, (trim f.toList).head? ≠ some '*') →
      selectColumns text = .named (fields.map fieldName)) ∧
    (∀ before rest : String, before.toList.all isBlank → list = before ++ "*" ++ rest →
      IsClosed rest.toList → (∀ i, ¬ WordAt "from".toList rest.toList i) →
      selectColumns text =
        if firstWord (unterminated tail.toList) = [] then .unknown
        else .star (String.ofList (firstWord (unterminated tail.toList)))) := by
  constructor
  · intro fields hlisting hfields hstar
    have hparts := hlisting.splitFieldChars_eq fun f hf =>
      ⟨(hfields f hf).closed, cutCommas_eq_singleton_iff.mpr (hfields f hf).undivided⟩
    have hnone := hlisting.wordPlaces_eq_nil isKeyword_from fun f hf =>
      ⟨(hfields f hf).closed, (wordPlaces_eq_nil_iff isKeyword_from).mpr (hfields f hf).sourceless⟩
    have hclosed := hlisting.closed fun f hf => (hfields f hf).closed
    obtain ⟨field, more, rfl⟩ : ∃ field more, fields = field :: more := by
      cases hlisting <;> exact ⟨_, _, rfl⟩
    have hnonblank := (hfields field List.mem_cons_self).nonblank
    obtain ⟨c, hc⟩ : ∃ c, (trim field.toList).head? = some c :=
      ⟨_, List.head?_eq_some_head hnonblank⟩
    have hhead := (hlisting.head?_trim hnonblank).trans hc
    have hc : c ≠ '*' := fun hstarred => hstar field rfl (hstarred ▸ hc)
    have hne : list.toList ≠ [] := by
      rintro hnil
      rw [hnil] at hhead
      cases hhead
    rw [selectColumns_eq h hne hclosed hnone, columnsOf_named hhead hc, hparts, List.map_map]
    refine congrArg _ (List.map_congr_left fun f hf => ?_)
    show String.ofList (fieldNameChars (trim f.toList)) = fieldName f
    rw [fieldName, fieldNameChars, fieldNameChars, trim_trim]
  · rintro before rest hbefore rfl hclosed hnone
    have hbefore := List.all_eq_true.mp hbefore
    have hstar : IsGap (before ++ "*").toList := by
      rw [String.toList_append]
      exact (isGap_of_blank hbefore).append (by decide)
    have hclosed : IsClosed (before ++ "*" ++ rest).toList := by
      rw [String.toList_append]
      exact hstar.closed.append hclosed
    have hnone : wordPlaces "from".toList (before ++ "*" ++ rest).toList = [] := by
      rw [String.toList_append]
      exact hstar.wordPlaces_append_eq_nil isKeyword_from
        ((wordPlaces_eq_nil_iff isKeyword_from).mpr hnone)
    have hhead : (trim (before ++ "*" ++ rest).toList).head? = some '*' := by
      have hvisible : isBlank '*' = false := by decide
      simp [head?_trim, List.find?_append, find?_blank hbefore, hvisible]
    have hne : (before ++ "*" ++ rest).toList ≠ [] := by simp
    rw [selectColumns_eq h hne hclosed hnone, columnsOf_star hhead]

/-- Commas, keywords and parentheses below top level, a field without an alias, and
what is behind the list: quotes that are not closed, and semicolons between blanks. -/
theorem selectColumns_written_nested :
    selectColumns "\nSeLeCt 'a, from' as x\t,(sum(b), from)As ä,\u00a0d) FROM t where 'from;; " =
        .named (["'a, from' as x", "(sum(b), from)As ä", "d)"].map fieldName) ∧
      ["'a, from' as x", "(sum(b), from)As ä", "d)"].map fieldName = ["x", "ä", "d)"] ∧
      selectColumns "select*, 'from'from\ttable ; ;; " = .star "table" := by
  refine ⟨?_, ?_, ?_⟩
  · have hlisting : Listing ["'a, from' as x", "(sum(b), from)As ä", "d)"]
        (" 'a, from' as x\t" ++ "," ++ ("(sum(b), from)As ä" ++ "," ++ "\u00a0d) ")) :=
      .cons ⟨" ", "\t", by decide +kernel⟩ (.cons ⟨"", "", by decide +kernel⟩
        (.single ⟨"\u00a0", " ", by decide +kernel⟩))
    have hselects : Selects
        (" 'a, from' as x\t" ++ "," ++ ("(sum(b), from)As ä" ++ "," ++ "\u00a0d) "))
        " t where 'from;; "
        "\nSeLeCt 'a, from' as x\t,(sum(b), from)As ä,\u00a0d) FROM t where 'from;; " :=
      ⟨"\n", "SeLeCt", "FROM", by decide +kernel⟩
    exact (selectColumns_written _ _ _ hselects).1 _ hlisting (by decide +kernel)
      (by decide +kernel)
  · decide +kernel
  · have hselects : Selects "*, 'from'" "\ttable ; ;; " "select*, 'from'from\ttable ; ;; " :=
      ⟨"", "select", "from", by decide +kernel⟩
    have hsourceless : ∀ i, ¬ WordAt "from".toList ", 'from'".toList i :=
      (wordPlaces_eq_nil_iff isKeyword_from).mp (by decide +kernel)
    rw [(selectColumns_written _ _ _ hselects).2 "" ", 'from'" (by decide +kernel)
      (by decide +kernel) (by decide +kernel) hsourceless]
    decide +kernel

end Querent.Statement
