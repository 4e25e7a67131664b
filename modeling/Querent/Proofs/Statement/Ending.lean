import Querent.Proofs.Statement.Naming
import Querent.Proofs.Statement.Selecting

/-!
# What the end of a statement takes away

A statement loses the blanks at its end, then the semicolons there, and then once more
the blanks. A blank between two semicolons keeps the first of them from that
(`unterminated_eq_nil_iff`). What is left belongs to the last part of a select: to its
list, or to the text behind its `from`, where it becomes part of a name or of the table
unless these end before it (`columnsOfParts_eq_iff`).
-/

namespace Querent.Statement

open Text

variable {a e l r list behind : List Char}

theorem unterminated_nil : unterminated [] = [] := rfl

/-! ## All columns of a table -/

/-- A table as it stands behind `from`: one word, of which the end of the statement takes
nothing. -/
structure IsTable (table : String) : Prop where
  nonempty : table ≠ ""
  word : ∀ c ∈ table.toList, ¬ isBlank c
  ending : table.toList.getLast? ≠ some ';'

/-- A select of all columns is one of its table. -/
theorem selectColumns_star {table : String} (h : IsTable table) :
    selectColumns ("select * from " ++ table) = .star table := by
  have htail : (" " ++ table).toList = ' ' :: table.toList := by
    rw [String.toList_append]
    rfl
  have hselects : Selects " * " (" " ++ table) ("select * from " ++ table) := by
    refine ⟨"", "select", "from", by decide, by decide, by decide, by decide, by decide, ?_, ?_⟩
    · rw [htail]
      exact fun _ => Bool.false_ne_true
    · rw [← String.append_assoc]
      rfl
  have hne : table.toList ≠ [] := fun hnil => h.nonempty (String.toList_eq_nil_iff.mp hnil)
  have hlast : ∀ c ∈ (' ' :: table.toList).getLast?, ¬ isEnding c := by
    rw [List.getLast?_cons, List.getLast?_eq_some_getLast hne]
    rintro _ ⟨⟩ hending
    rcases isEnding_iff.mp hending with hblank | hsemicolon
    · exact h.word _ (List.getLast_mem hne) hblank
    · refine h.ending ?_
      rw [List.getLast?_eq_some_getLast hne]
      exact congrArg some hsemicolon
  have hkept : unterminated (' ' :: table.toList) = ' ' :: table.toList := by
    have hnothing := unterminated_append hlast []
    rwa [List.append_nil, unterminated_nil, List.append_nil] at hnothing
  have hword : firstWord (unterminated (" " ++ table).toList) = table.toList := by
    rw [htail, hkept]
    exact firstWord_of_word h.word
  rw [selectColumns_eq hselects (by decide) (by decide) (by decide), columnsOf_star (by decide),
    hword, if_neg hne, String.ofList_toList]

/-! ## What is left of the end -/

/-- Blanks, semicolons, and once more blanks. -/
def Together (l : List Char) : Prop :=
  ∃ before semicolons after, (∀ c ∈ before, isBlank c) ∧ (∀ c ∈ semicolons, c = ';') ∧
    (∀ c ∈ after, isBlank c) ∧ l = before ++ (semicolons ++ after)

/-- A statement loses all of a text exactly if the semicolons in it stand together. -/
theorem unterminated_eq_nil_iff : unterminated l = [] ↔ Together l := by
  constructor
  · intro h
    refine ⟨dropEndWhile (· = ';') (trimEnd l), (trimEnd l).rtakeWhile (· = ';'),
      l.rtakeWhile isBlank, ?_, ?_, fun c hc => List.mem_rtakeWhile_imp hc, ?_⟩
    · intro c hc
      exact List.rdropWhile_eq_nil_iff.mp h c hc
    · intro c hc
      have hsemicolon := List.mem_rtakeWhile_imp hc
      exact of_decide_eq_true hsemicolon
    · have hblanks : trimEnd l ++ l.rtakeWhile isBlank = l := List.rdropWhile_append_rtakeWhile
      have hsemicolons : dropEndWhile (· = ';') (trimEnd l) ++
          (trimEnd l).rtakeWhile (· = ';') = trimEnd l := List.rdropWhile_append_rtakeWhile
      rw [← List.append_assoc, hsemicolons, hblanks]
  · rintro ⟨before, semicolons, after, hbefore, hsemicolons, hafter, rfl⟩
    have hblank : trimEnd before = [] := List.rdropWhile_eq_nil_iff.mpr hbefore
    have hfirst : dropEndWhile (· = ';') before = before := by
      have hlast : ∀ c ∈ before.getLast?, ¬ decide (c = ';') := by
        rintro c hc hsemicolon
        obtain rfl := of_decide_eq_true hsemicolon
        exact absurd (hbefore _ (List.mem_of_getLast? hc)) (by decide)
      exact dropEndWhile_of_last hlast
    rw [unterminated, ← List.append_assoc]
    unfold trimEnd at *
    rw [dropEndWhile_append_of_pos hafter, dropEndWhile_append]
    split_ifs with hnone
    · rw [hblank]
      rfl
    · have hvisible : ∀ c ∈ semicolons.getLast?, ¬ isBlank c := by
        intro c hc
        rw [hsemicolons c (List.mem_of_getLast? hc)]
        decide
      have hlost : ∀ c ∈ semicolons, decide (c = ';') :=
        fun c hc => decide_eq_true (hsemicolons c hc)
      rw [dropEndWhile_of_last hvisible, dropEndWhile_append_of_pos hlost, hfirst, hblank]

instance (l : List Char) : Decidable (Together l) :=
  decidable_of_iff _ unterminated_eq_nil_iff

theorem mem_of_mem_unterminated {c : Char} (h : c ∈ unterminated l) : c ∈ l := by
  obtain ⟨lost, hlost⟩ := exists_append_unterminated l
  rw [← hlost]
  exact List.mem_append_left _ h

/-- What is left of blanks and semicolons ends with a semicolon. -/
theorem getLast?_unterminated (h : ∀ c ∈ e, isEnding c) :
    ∀ c ∈ (unterminated e).getLast?, c = ';' := by
  intro c hc
  have hmem := List.mem_of_getLast? hc
  have hvisible : ¬ isBlank c :=
    not_of_getLast?_dropEndWhile isBlank (dropEndWhile (· = ';') (trimEnd e)) c hc
  exact (isEnding_iff.mp (h c (mem_of_mem_unterminated hmem))).resolve_left hvisible

theorem isGap_of_ending (h : ∀ c ∈ e, isEnding c) : IsGap e := by
  intro c hc
  rcases isEnding_iff.mp (h c hc) with hblank | rfl
  · exact isGap_of_blank (List.forall_mem_singleton.mpr hblank) c List.mem_cons_self
  · decide

/-! ## The parts of a select -/

/-- The list of a select and, if it has a `from`, the text behind that. -/
def selected? (l : List Char) : Option (List Char × Option (List Char)) :=
  match cutKeyword? "select".toList .outside false l with
  | some ([], rest) =>
    match cutKeyword? "from".toList .outside false rest with
    | some (list, behind) => some (list, some behind)
    | none => some (rest, none)
  | _ => none

/-- The columns that the parts of a select tell of. -/
def columnsOfParts : Option (List Char × Option (List Char)) → Columns
  | none => .unknown
  | some (list, none) => columnsOf list []
  | some (list, some behind) => columnsOf list (firstWord behind)

/-- The parts of a select with the text `r` at its end. -/
def extend (r : List Char) : List Char × Option (List Char) → List Char × Option (List Char)
  | (list, none) => (list ++ r, none)
  | (list, some behind) => (list, some (behind ++ r))

theorem selectColumns_eq_columnsOfParts (s : String) :
    selectColumns s = columnsOfParts (selected? (statementCore s.toList)) := by
  rw [selectColumns, selected?]
  rcases cutKeyword? "select".toList .outside false (statementCore s.toList) with
    - | ⟨- | ⟨c, front⟩, rest⟩
  · rfl
  · rcases hfrom : cutKeyword? "from".toList .outside false rest with - | ⟨list, behind⟩ <;>
      simp only [hfrom, columnsOfParts]
  · rfl

/-- A gap at the end of a select belongs to the last of its parts. -/
theorem selected?_append (hr : IsGap r) (a : List Char) :
    selected? (a ++ r) = (selected? a).map (extend r) := by
  rw [selected?, selected?, hr.cutKeyword?_append isKeyword_select]
  rcases cutKeyword? "select".toList .outside false a with - | ⟨- | ⟨c, front⟩, rest⟩
  · rfl
  · simp only [Option.map_some]
    rw [hr.cutKeyword?_append isKeyword_from]
    rcases cutKeyword? "from".toList .outside false rest with - | ⟨list, behind⟩ <;> rfl
  · rfl

theorem selected?_nil : selected? [] = none := rfl

theorem selected?_of_gap (hr : IsGap r) : selected? r = none := by
  have hnone := selected?_append hr []
  rwa [selected?_nil, List.nil_append] at hnone

theorem suffix_of_selected? (h : selected? l = some (list, none)) : list <:+ l := by
  rw [selected?] at h
  split at h
  · next rest hselect =>
    obtain ⟨word, hl, -⟩ := exists_of_cutKeyword? isKeyword_select hselect
    split at h
    · cases h
    · obtain ⟨rfl, -⟩ := Prod.mk.inj (Option.some.inj h)
      exact ⟨word, hl.symm⟩
  · cases h

/-! ## A statement and its end -/

/-- A statement from its first visible character to the last one that its end cannot
lose. -/
def body (op : String) : List Char := trimStart (dropEndWhile isEnding op.toList)

/-- The blanks and semicolons at the end of a statement. -/
def ending (op : String) : List Char := op.toList.rtakeWhile isEnding

theorem isEnding_of_mem_ending {op : String} : ∀ c ∈ ending op, isEnding c :=
  fun _ hc => List.mem_rtakeWhile_imp hc

/-- What ends a text ends as the text does. -/
theorem mem_getLast?_of_suffix {c : Char} (h : a <:+ l) (hc : c ∈ a.getLast?) :
    c ∈ l.getLast? := by
  obtain ⟨before, rfl⟩ := h
  rw [List.getLast?_append, hc]
  rfl

theorem getLast?_body (op : String) : ∀ c ∈ (body op).getLast?, ¬ isEnding c := by
  intro c hc
  exact not_of_getLast?_dropEndWhile isEnding op.toList c
    (mem_getLast?_of_suffix (List.dropWhile_suffix _) hc)

/-- What is left of the end stands behind the body, and nothing else does. -/
theorem selected?_statementCore (op t : String) (ht : ∀ c ∈ t.toList, isEnding c) :
    selected? (statementCore (op ++ t).toList) =
      (selected? (body op)).map (extend (unterminated (ending op ++ t.toList))) := by
  have hsplit : dropEndWhile isEnding op.toList ++ ending op = op.toList :=
    List.rdropWhile_append_rtakeWhile
  have hending : ∀ c ∈ ending op ++ t.toList, isEnding c :=
    List.forall_mem_append.mpr ⟨isEnding_of_mem_ending, ht⟩
  have hgap : IsGap (unterminated (ending op ++ t.toList)) :=
    isGap_of_ending fun c hc => hending c (mem_of_mem_unterminated hc)
  have hcore : statementCore (op ++ t).toList =
      unterminated (trimStart (dropEndWhile isEnding op.toList ++ (ending op ++ t.toList))) := by
    rw [← List.append_assoc, hsplit, String.toList_append]
    rfl
  rw [hcore]
  by_cases hbody : body op = []
  · have hrest : IsGap (unterminated (trimStart (dropEndWhile isEnding op.toList ++
        (ending op ++ t.toList)))) := by
      have hblank : ∀ c ∈ dropEndWhile isEnding op.toList, isBlank c :=
        List.dropWhile_eq_nil_iff.mp hbody
      refine isGap_of_ending fun c hc => hending c ?_
      have hmem := mem_of_mem_unterminated hc
      rw [trimStart, List.dropWhile_append_of_pos hblank] at hmem
      exact (List.dropWhile_suffix _).subset hmem
    rw [selected?_of_gap hrest, hbody, selected?_nil]
    rfl
  · have hstart : trimStart (dropEndWhile isEnding op.toList ++ (ending op ++ t.toList)) =
        body op ++ (ending op ++ t.toList) := trimStart_append hbody _
    rw [hstart, unterminated_append (getLast?_body op), selected?_append hgap]

/-! ## What the columns tell of the end -/

/-- The names of a list do not depend on what is behind its `from`. -/
theorem columnsOf_of_unstarred (hlist : (trim list).head? ≠ some '*') (a b : List Char) :
    columnsOf list a = columnsOf list b := by
  rw [columnsOf, columnsOf]
  split
  · rfl
  · next rest htrim => exact absurd (by rw [htrim, List.head?_cons]) hlist
  · rfl

/-- The name of a field ends where the field does. -/
theorem getLast?_fieldNameChars (l : List Char) :
    (fieldNameChars l).getLast? = (trim l).getLast? := by
  rw [fieldNameChars, afterLastAs?_eq]
  cases (wordPlaces ['a', 's'] (trim l)).getLast? with
  | none => rfl
  | some i =>
    simp only [Option.map_some, List.isEmpty_iff]
    split_ifs with hblank
    · rfl
    · have hne : (trim l).drop (i + 2) ≠ [] := fun hnil => hblank (by rw [hnil]; rfl)
      have hlast : (trim l).getLast? = ((trim l).drop (i + 2)).getLast? := by
        conv_lhs => rw [← List.take_append_drop (i + 2) (trim l)]
        exact List.getLast?_append_of_ne_nil _ hne
      have hvisible := not_blank_of_getLast?_trim l
      rw [hlast] at hvisible ⊢
      exact getLast?_trim hvisible

/-- What is left of the end begins no list with a star. -/
theorem exists_head?_trim_append (hr : ∀ c ∈ r, isEnding c) (hne : r.getLast? = some ';')
    (hstar : (trim list).head? ≠ some '*') :
    ∃ c, (trim (list ++ r)).head? = some c ∧ c ≠ '*' := by
  simp only [head?_trim, List.find?_append] at hstar ⊢
  cases hfirst : list.find? (!isBlank ·) with
  | some c => exact ⟨c, rfl, fun hc => hstar (hc ▸ hfirst)⟩
  | none =>
    obtain ⟨c, hc⟩ : ∃ c, r.find? (!isBlank ·) = some c := by
      refine Option.isSome_iff_exists.mp (List.find?_isSome.mpr ?_)
      exact ⟨';', List.mem_of_getLast? hne, by decide⟩
    refine ⟨c, hc, ?_⟩
    rintro rfl
    exact absurd (hr _ (List.mem_of_find?_eq_some hc)) (by decide)

/-- What is left of the end belongs to the last name of a list without a `from`. -/
theorem columnsOf_append_ne (hlist : ∀ c ∈ list.getLast?, ¬ isEnding c)
    (hr : ∀ c ∈ r, isEnding c) (hlast : r.getLast? = some ';')
    (hstar : (trim list).head? ≠ some '*') : columnsOf (list ++ r) [] ≠ columnsOf list [] := by
  obtain ⟨c, hc, hunstarred⟩ := exists_head?_trim_append hr hlast hstar
  rw [columnsOf_named hc hunstarred]
  cases htrim : trim list with
  | nil =>
    simp only [columnsOf, htrim]
    exact fun h => Columns.noConfusion h
  | cons d rest =>
    have hd : (trim list).head? = some d := by rw [htrim, List.head?_cons]
    rw [columnsOf_named hd fun hstarred => hstar (hstarred ▸ hd)]
    intro heq
    obtain ⟨parts, last, first, more, hparts, hmore, happend⟩ :=
      exists_cutCommas_append .outside list r
    have hcomma : ',' ∉ r := fun hmem => absurd (hr _ hmem) (by decide)
    rw [cutCommas_of_not_mem hcomma] at hmore
    obtain ⟨rfl, rfl⟩ := List.cons.inj hmore
    simp only [splitFieldChars, hparts, happend, List.map_append, List.map_cons, List.map_nil,
      Columns.named.injEq] at heq
    -- the last names end as the last parts do
    have hnames := congrArg List.getLast? heq
    simp only [List.getLast?_concat, Option.some.injEq, String.ofList_inj] at hnames
    have hends := congrArg List.getLast? hnames
    have hsemicolon : (last ++ r).getLast? = some ';' := by
      rw [List.getLast?_append, hlast]
      rfl
    have hkept : ∀ c ∈ last.getLast?, ¬ isEnding c :=
      fun c hc => hlist c (mem_getLast?_of_suffix (suffix_of_cutCommas hparts) hc)
    rw [getLast?_fieldNameChars, getLast?_fieldNameChars, trim_trim, trim_trim, getLast?_trim,
      getLast?_trim, hsemicolon] at hends
    · exact hkept ';' hends.symm (by decide)
    · exact fun c hc hb => hkept c hc (isEnding_iff.mpr (.inl hb))
    · rw [hsemicolon]
      rintro _ ⟨⟩
      decide

/-! ## The table -/

/-- A blank behind the first word ends it. -/
theorem firstWord_append_of_blank (h : ∃ c ∈ trimStart behind, isBlank c) (r : List Char) :
    firstWord (behind ++ r) = firstWord behind := by
  obtain ⟨c, hc, hblank⟩ := h
  have hshort : ¬ ((trimStart behind).takeWhile (!isBlank ·)).length =
      (trimStart behind).length := by
    intro hlength
    have hall := (List.takeWhile_prefix (!isBlank ·)).eq_of_length hlength
    have hvisible := List.takeWhile_eq_self_iff.mp hall c hc
    simp [hblank] at hvisible
  rw [firstWord, trimStart_append (List.ne_nil_of_mem hc), List.takeWhile_append, if_neg hshort,
    firstWord]

/-- What is left of the end goes on with a table that ends the statement, unless a blank
stands before it. -/
theorem firstWord_append_iff (hlast : r.getLast? = some ';')
    (hnone : ¬ ∃ c ∈ trimStart behind, isBlank c) :
    firstWord (behind ++ r) = firstWord behind ↔
      trimStart behind ≠ [] ∧ r.head?.any isBlank := by
  have hsemicolon : ';' ∈ r := List.mem_of_getLast? hlast
  by_cases hword : trimStart behind = []
  · have hblank := List.dropWhile_eq_nil_iff.mp hword
    rw [firstWord_eq_nil_iff.mpr hblank, firstWord_eq_nil_iff]
    refine iff_of_false (fun hall => ?_) fun h => h.1 hword
    exact absurd (hall _ (List.mem_append_right _ hsemicolon)) (by decide)
  · have hvisible : (trimStart behind).takeWhile (!isBlank ·) = trimStart behind :=
      List.takeWhile_eq_self_iff.mpr fun c hc => by simpa using fun hb => hnone ⟨c, hc, hb⟩
    rw [firstWord, firstWord, trimStart_append hword, List.takeWhile_append, hvisible, if_pos rfl,
      List.append_right_eq_self]
    obtain ⟨c, rest, rfl⟩ := List.exists_cons_of_ne_nil (List.ne_nil_of_mem hsemicolon)
    by_cases hc : isBlank c <;> simp [hc, hword]

/-! ## What a statement may lose -/

/-- The columns of a statement that nothing at its end changes: it is no select, it has a
star and no `from`, it has names and a `from`, or a blank stands behind its table. -/
inductive Settled (l : List Char) : Prop where
  | unselected (h : selected? l = none)
  | sourceless {fields : List Char} (h : selected? l = some (fields, none))
      (hstar : (trim fields).head? = some '*')
  | named {fields tail : List Char} (h : selected? l = some (fields, some tail))
      (hlist : (trim fields).head? ≠ some '*')
  | followed {fields tail : List Char} (h : selected? l = some (fields, some tail))
      (hblank : ∃ c ∈ trimStart tail, isBlank c)

/-- A select ends with its table, and what is left of the end begins with a blank. -/
def Parted (l r : List Char) : Prop :=
  ∃ list behind, selected? l = some (list, some behind) ∧ trimStart behind ≠ [] ∧
    r.head?.any isBlank

theorem Settled.columnsOfParts_eq (h : Settled l) (r : List Char) :
    columnsOfParts ((selected? l).map (extend r)) = columnsOfParts (selected? l) := by
  cases h with
  | unselected h =>
    rw [h]
    rfl
  | sourceless h hstar =>
    rename_i list
    have hmore : (trim (list ++ r)).head? = some '*' := by
      rw [head?_trim] at hstar ⊢
      rw [List.find?_append, hstar]
      rfl
    rw [h]
    show columnsOf (list ++ r) [] = columnsOf list []
    rw [columnsOf_star hstar, columnsOf_star hmore]
  | named h hlist =>
    rw [h]
    exact columnsOf_of_unstarred hlist _ _
  | followed h hblank =>
    rename_i list behind
    rw [h]
    show columnsOf list (firstWord (behind ++ r)) = columnsOf list (firstWord behind)
    rw [firstWord_append_of_blank hblank]

/-- What is left of the end changes the columns of every other select. -/
theorem columnsOfParts_eq_iff (hl : ∀ c ∈ l.getLast?, ¬ isEnding c)
    (hr : ∀ c ∈ r, isEnding c) (hlast : r.getLast? = some ';') :
    columnsOfParts ((selected? l).map (extend r)) = columnsOfParts (selected? l) ↔
      Settled l ∨ Parted l r := by
  by_cases hsettled : Settled l
  · exact iff_of_true (hsettled.columnsOfParts_eq r) (.inl hsettled)
  · rcases hparts : selected? l with - | ⟨list, - | behind⟩
    · exact absurd (.unselected hparts) hsettled
    · have hstar : (trim list).head? ≠ some '*' :=
        fun hstar => hsettled (.sourceless hparts hstar)
      have hlist : ∀ c ∈ list.getLast?, ¬ isEnding c :=
        fun c hc => hl c (mem_getLast?_of_suffix (suffix_of_selected? hparts) hc)
      refine iff_of_false (columnsOf_append_ne hlist hr hlast hstar) ?_
      rintro (h | ⟨_, _, h, -⟩)
      · exact hsettled h
      · cases hparts.symm.trans h
    · have hstar : (trim list).head? = some '*' :=
        not_not.mp fun hnamed => hsettled (.named hparts hnamed)
      have hnone : ¬ ∃ c ∈ trimStart behind, isBlank c :=
        fun hblank => hsettled (.followed hparts hblank)
      have hword : columnsOf list (firstWord (behind ++ r)) = columnsOf list (firstWord behind) ↔
          firstWord (behind ++ r) = firstWord behind := by
        rw [columnsOf_star hstar, columnsOf_star hstar]
        split_ifs <;> simp_all [String.ofList_inj]
      refine hword.trans ((firstWord_append_iff hlast hnone).trans ?_)
      constructor
      · exact fun h => .inr ⟨list, behind, hparts, h⟩
      · rintro (h | ⟨_, _, h, hparted⟩)
        · exact absurd h hsettled
        · cases hparts.symm.trans h
          exact hparted

theorem extend_nil (parts : List Char × Option (List Char)) : extend [] parts = parts := by
  rcases parts with ⟨list, - | behind⟩ <;> simp [extend]

/-- What begins a text whose semicolons stand together is one itself. -/
theorem Together.of_append (h : Together (a ++ e)) : Together a := by
  obtain ⟨before, semicolons, after, hbefore, hsemicolons, hafter, heq⟩ := h
  rcases List.append_eq_append_iff.mp heq with ⟨rest, rfl, -⟩ | ⟨more, rfl, hmore⟩
  · exact ⟨a, [], [], fun c hc => hbefore c (List.mem_append_left _ hc), by simp, by simp,
      by simp⟩
  · rcases List.append_eq_append_iff.mp hmore with ⟨rest, rfl, rfl⟩ | ⟨rest, rfl, -⟩
    · exact ⟨before, semicolons, rest, hbefore, hsemicolons,
        fun c hc => hafter c (List.mem_append_left _ hc), rfl⟩
    · exact ⟨before, more, [], hbefore, fun c hc => hsemicolons c (List.mem_append_left _ hc),
        by simp, by simp⟩

/-- **Blanks and semicolons at the end.** They change nothing about the columns of a
statement where the semicolons stand together, or where the columns are settled before
the end. Nothing else keeps the columns of a statement that loses its own end: what is
left of the end then goes into the last name of a list, or into the table, if no blank
parts it from that. -/
theorem selectColumns_ended (op t : String) (ht : ∀ c ∈ t.toList, isEnding c) :
    (Together (ending op ++ t.toList) ∨ Settled (body op) →
      selectColumns (op ++ t) = selectColumns op) ∧
    (Together (ending op) →
      (selectColumns (op ++ t) = selectColumns op ↔ Together (ending op ++ t.toList) ∨
        Settled (body op) ∨ Parted (body op) (unterminated (ending op ++ t.toList)))) := by
  have hwhole : selectColumns (op ++ t) = columnsOfParts
      ((selected? (body op)).map (extend (unterminated (ending op ++ t.toList)))) := by
    rw [selectColumns_eq_columnsOfParts, selected?_statementCore op t ht]
  have hown : selectColumns op =
      columnsOfParts ((selected? (body op)).map (extend (unterminated (ending op)))) := by
    have hempty := selected?_statementCore op "" (by simp)
    rw [String.append_empty, String.toList_empty, List.append_nil] at hempty
    rw [selectColumns_eq_columnsOfParts, hempty]
  have hnothing : Together (ending op) →
      selectColumns op = columnsOfParts (selected? (body op)) := by
    intro h
    rw [hown, unterminated_eq_nil_iff.mpr h, funext extend_nil, Option.map_id']
  have habsorbed : Together (ending op ++ t.toList) →
      selectColumns (op ++ t) = selectColumns op := by
    intro h
    rw [hnothing h.of_append, hwhole, unterminated_eq_nil_iff.mpr h, funext extend_nil,
      Option.map_id']
  constructor
  · rintro (htogether | hsettled)
    · exact habsorbed htogether
    · rw [hwhole, hown, hsettled.columnsOfParts_eq, hsettled.columnsOfParts_eq]
  · intro hloses
    by_cases htogether : Together (ending op ++ t.toList)
    · exact iff_of_true (habsorbed htogether) (.inl htogether)
    · have hending : ∀ c ∈ ending op ++ t.toList, isEnding c :=
        List.forall_mem_append.mpr ⟨isEnding_of_mem_ending, ht⟩
      have hne : unterminated (ending op ++ t.toList) ≠ [] :=
        fun hnil => htogether (unterminated_eq_nil_iff.mp hnil)
      have hlast : (unterminated (ending op ++ t.toList)).getLast? = some ';' := by
        rw [List.getLast?_eq_some_getLast hne, Option.some.injEq]
        exact getLast?_unterminated hending _ (List.getLast?_eq_some_getLast hne)
      rw [hwhole, hnothing hloses, or_iff_right htogether]
      exact columnsOfParts_eq_iff (getLast?_body op)
        (fun c hc => hending c (mem_of_mem_unterminated hc)) hlast

/-- Two semicolons with a blank between them behind a text that goes on after the table,
semicolons that stand together, and two with a blank that parts them from the table. -/
theorem selectColumns_ended_apart :
    selectColumns ("select a, b from t where x" ++ "; ;") =
        selectColumns "select a, b from t where x" ∧
      selectColumns ("select * from t\n" ++ ";; \u00a0") = selectColumns "select * from t\n" ∧
      selectColumns ("select * from t" ++ " ; ;") = selectColumns "select * from t" := by
  refine ⟨?_, ?_, ?_⟩
  · have ht := List.all_eq_true.mp (rfl : "; ;".toList.all isEnding = true)
    exact (selectColumns_ended _ "; ;" ht).1 (.inr (@Settled.named _ " a, b ".toList
      " t where x".toList (by decide +kernel) (by decide +kernel)))
  · have ht := List.all_eq_true.mp (rfl : ";; \u00a0".toList.all isEnding = true)
    exact (selectColumns_ended _ ";; \u00a0" ht).1 (.inl (by decide +kernel))
  · have ht := List.all_eq_true.mp (rfl : " ; ;".toList.all isEnding = true)
    exact ((selectColumns_ended _ " ; ;" ht).2 (by decide +kernel)).mpr
      (.inr (.inr ⟨" * ".toList, " t".toList, by decide +kernel⟩))

/-- **A semicolon becomes part of the table, or of the last name,** when a blank stands
between two of them at the end. -/
theorem selectColumns_ended_spoilt :
    (¬ ∀ op t : String, (∀ c ∈ t.toList, isEnding c) →
        selectColumns (op ++ t) = selectColumns op) ∧
      selectColumns ("select * from t" ++ "; ;") = .star "t;" ∧
      selectColumns "select * from t" = .star "t" ∧
      selectColumns ("select a, b" ++ "; ;") = .named ["a", "b;"] ∧
      selectColumns "select a, b" = .named ["a", "b"] := by
  have hwith : selectColumns ("select * from t" ++ "; ;") = .star "t;" := by decide +kernel
  have hwithout : selectColumns "select * from t" = .star "t" := by decide +kernel
  refine ⟨fun h => ?_, hwith, hwithout, by decide +kernel, by decide +kernel⟩
  have hsame := h "select * from t" "; ;"
    (List.all_eq_true.mp (rfl : "; ;".toList.all isEnding = true))
  rw [hwith, hwithout] at hsame
  exact absurd hsame (by decide)

end Querent.Statement
