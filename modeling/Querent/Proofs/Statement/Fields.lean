import Mathlib.Data.List.Basic
import Querent.Statement.Select
import Querent.Proofs.Statement.Words
import Querent.Proofs.Text.Trimming

/-!
# Fields of a list

A list of fields is cut at the commas at top level. Two texts one after the other
are cut where each of them is, the second one as it is met after the first, and the
last part of the one makes one part with the first of the other
(`exists_cutCommas_append`). What splitting does to a list of closed fields follows,
whatever blanks stand around the fields.
-/

namespace Querent.Statement

open Text

variable {a b l p blanks : List Char} {n : Nesting}

/-! ## Commas -/

/-- A comma stands at the place `i` of `l`, outside of quotes and parentheses. -/
structure CommaAt (l : List Char) (i : Nat) : Prop where
  top : Nesting.outside.after (l.take i) = .outside
  comma : l[i]? = some ','

theorem cutCommas_ne_nil (n : Nesting) (l : List Char) : cutCommas n l ≠ [] := by
  cases l with
  | nil => simp [cutCommas]
  | cons c rest =>
    simp only [cutCommas]
    split_ifs
    · exact List.cons_ne_nil _ _
    · split <;> exact List.cons_ne_nil _ _

/-- A text is one part exactly if its first character is no comma at top level and
the rest is one part. -/
theorem cutCommas_cons_eq_singleton {c : Char} :
    cutCommas n (c :: l) = [c :: l] ↔
      ¬ (c = ',' ∧ n.isTop c) ∧ cutCommas (n.step c) l = [l] := by
  obtain ⟨first, more, hparts⟩ := List.exists_cons_of_ne_nil (cutCommas_ne_nil (n.step c) l)
  simp only [cutCommas, hparts]
  split_ifs with hcomma
  · exact iff_of_false (by simp) fun h => h.1 hcomma
  · simp [hcomma]

theorem cutCommas_behind (p l : List Char) :
    cutCommas (Nesting.outside.after p) l = [l] ↔ ∀ i, ¬ CommaAt (p ++ l) (p.length + i) := by
  induction l generalizing p with
  | nil =>
    refine iff_of_true rfl fun i h => ?_
    have := h.comma
    simp at this
  | cons c rest ih =>
    have hhere : (c = ',' ∧ (Nesting.outside.after p).isTop c) ↔
        CommaAt (p ++ c :: rest) p.length := by
      rw [isTop_iff]
      constructor
      · rintro ⟨rfl, htop, -⟩
        exact ⟨by rwa [List.take_left], by simp⟩
      · rintro ⟨htop, hcomma⟩
        obtain rfl : c = ',' := by simpa using hcomma
        rw [List.take_left] at htop
        exact ⟨rfl, htop, by decide⟩
    have hthere : ∀ i, CommaAt (p ++ [c] ++ rest) ((p ++ [c]).length + i) ↔
        CommaAt (p ++ c :: rest) (p.length + (i + 1)) := by
      intro i
      simp [Nat.add_assoc, Nat.add_comm 1]
    rw [cutCommas_cons_eq_singleton, hhere, step_after, ih (p ++ [c]), forall_congr' fun i =>
      not_congr (hthere i)]
    exact Nat.and_forall_add_one (p := fun i => ¬ CommaAt (p ++ c :: rest) (p.length + i))

/-- A text is not cut exactly if no comma stands at top level in it. -/
theorem cutCommas_eq_singleton_iff : cutCommas .outside l = [l] ↔ ∀ i, ¬ CommaAt l i := by
  simpa [Nesting.after] using cutCommas_behind [] l

theorem cutCommas_of_not_mem (h : ',' ∉ l) (n : Nesting) : cutCommas n l = [l] := by
  induction l generalizing n with
  | nil => rfl
  | cons c rest ih =>
    obtain ⟨hc, hrest⟩ := not_or.mp (List.mem_cons.not.mp h)
    rw [cutCommas_cons_eq_singleton]
    exact ⟨fun hcomma => hc hcomma.1.symm, ih hrest _⟩

/-- **Two texts one after the other are cut where each of them is.** -/
theorem exists_cutCommas_append (n : Nesting) (a b : List Char) :
    ∃ parts last first more, cutCommas n a = parts ++ [last] ∧
      cutCommas (n.after a) b = first :: more ∧
      cutCommas n (a ++ b) = parts ++ (last ++ first) :: more := by
  induction a generalizing n with
  | nil =>
    obtain ⟨first, more, hparts⟩ := List.exists_cons_of_ne_nil (cutCommas_ne_nil n b)
    exact ⟨[], [], first, more, rfl, hparts, hparts⟩
  | cons c rest ih =>
    obtain ⟨parts, last, first, more, hrest, hb, happend⟩ := ih (n.step c)
    by_cases hcomma : c = ',' ∧ n.isTop c
    · refine ⟨[] :: parts, last, first, more, ?_, hb, ?_⟩
      · rw [cutCommas, if_pos hcomma, hrest]
        rfl
      · rw [List.cons_append, cutCommas, if_pos hcomma, happend]
        rfl
    · cases parts with
      | nil =>
        refine ⟨[], c :: last, first, more, ?_, hb, ?_⟩
        · rw [cutCommas, if_neg hcomma, hrest]
          rfl
        · rw [List.cons_append, cutCommas, if_neg hcomma, happend]
          rfl
      | cons part parts =>
        refine ⟨(c :: part) :: parts, last, first, more, ?_, hb, ?_⟩
        · rw [cutCommas, if_neg hcomma, hrest]
          rfl
        · rw [List.cons_append, cutCommas, if_neg hcomma, happend]
          rfl

/-- The last part of a text is where the text ends. -/
theorem suffix_of_cutCommas {parts : List (List Char)} {last : List Char}
    (h : cutCommas n l = parts ++ [last]) : last <:+ l := by
  induction l using List.reverseRecOn generalizing n parts last with
  | nil =>
    obtain ⟨-, rfl⟩ : parts = [] ∧ last = [] := by
      cases parts <;> simp_all [cutCommas]
    exact List.suffix_refl []
  | append_singleton l c ih =>
    obtain ⟨front, mid, first, more, hfront, hc, happend⟩ := exists_cutCommas_append n l [c]
    rw [happend] at h
    have hlast := congrArg List.getLast? h
    simp only [cutCommas] at hc
    split_ifs at hc with hcomma
    · obtain ⟨rfl, rfl⟩ := List.cons.inj hc
      obtain rfl : [] = last := by simpa using hlast
      exact List.nil_suffix
    · obtain ⟨rfl, rfl⟩ := List.cons.inj hc
      obtain rfl : mid ++ [c] = last := by simpa using hlast
      exact List.suffix_append_self_iff.mpr (ih hfront)

/-- A comma behind a closed text cuts, and the rest is cut as if it stood alone. -/
theorem cutCommas_comma (ha : IsClosed a) (b : List Char) :
    cutCommas .outside (a ++ ',' :: b) = cutCommas .outside a ++ cutCommas .outside b := by
  obtain ⟨parts, last, first, more, hparts, hmore, happend⟩ :=
    exists_cutCommas_append .outside a (',' :: b)
  have hcomma : cutCommas .outside (',' :: b) = [] :: cutCommas .outside b := rfl
  rw [ha, hcomma] at hmore
  obtain ⟨rfl, rfl⟩ := List.cons.inj hmore
  rw [happend, hparts, List.append_nil, List.append_assoc, List.singleton_append]

/-! ## Blanks -/

theorem not_wordChar_of_blank {c : Char} (h : isBlank c) : ¬ isWordChar c := by
  intro hword
  have := toNat_of_wordChar hword
  simp only [isBlank, Bool.or_eq_true, Bool.and_eq_true, decide_eq_true_eq, beq_iff_eq] at h
  omega

theorem isGap_of_blank (h : ∀ c ∈ blanks, isBlank c) : IsGap blanks := by
  intro c hc
  refine ⟨⟨?_, ?_, ?_⟩, not_wordChar_of_blank (h c hc)⟩ <;>
    · rintro rfl
      exact absurd (h _ hc) (by decide)

theorem cutCommas_blank (h : ∀ c ∈ blanks, isBlank c) (n : Nesting) :
    cutCommas n blanks = [blanks] :=
  cutCommas_of_not_mem (fun hcomma => absurd (h ',' hcomma) (by decide)) n

theorem splitFieldChars_of_blank_append (h : ∀ c ∈ blanks, isBlank c) :
    splitFieldChars (blanks ++ l) = splitFieldChars l := by
  obtain ⟨parts, last, first, more, hparts, hmore, happend⟩ :=
    exists_cutCommas_append .outside blanks l
  obtain ⟨rfl, rfl⟩ : parts = [] ∧ last = blanks := by
    rw [cutCommas_blank h] at hparts
    cases parts <;> simp_all
  rw [(isGap_of_blank h).closed] at hmore
  simp [splitFieldChars, happend, hmore, trim_append_of_blank h]

theorem splitFieldChars_append_blank (h : ∀ c ∈ blanks, isBlank c) :
    splitFieldChars (l ++ blanks) = splitFieldChars l := by
  obtain ⟨parts, last, first, more, hparts, hmore, happend⟩ :=
    exists_cutCommas_append .outside l blanks
  rw [cutCommas_blank h] at hmore
  obtain ⟨rfl, rfl⟩ := List.cons.inj hmore
  simp [splitFieldChars, happend, hparts, trim_append_blank h]

/-- Blanks around a list of fields belong to the first and the last of them, from
which they are trimmed. -/
theorem splitFieldChars_trim (l : List Char) : splitFieldChars (trim l) = splitFieldChars l := by
  obtain ⟨before, after, hbefore, hafter, hl⟩ := exists_trim l
  conv_rhs => rw [hl]
  rw [splitFieldChars_of_blank_append hbefore, splitFieldChars_append_blank hafter]

/-! ## Lists of fields -/

/-- `text` is `field` with blanks around it, which may be none. -/
def Padded (field text : String) : Prop :=
  ∃ before after : String, before.toList.all isBlank ∧ after.toList.all isBlank ∧
    text = before ++ field ++ after

theorem Padded.exists_blanks {field text : String} (h : Padded field text) :
    ∃ before after, (∀ c ∈ before, isBlank c) ∧ (∀ c ∈ after, isBlank c) ∧
      text.toList = before ++ (field.toList ++ after) := by
  obtain ⟨before, after, hbefore, hafter, rfl⟩ := h
  refine ⟨before.toList, after.toList, List.all_eq_true.mp hbefore, List.all_eq_true.mp hafter, ?_⟩
  simp only [String.toList_append, List.append_assoc]

/-- `text` is a list of `fields`, with a comma between each two of them and any
blanks around each. -/
inductive Listing : List String → String → Prop where
  | single {field text} (hfield : Padded field text) : Listing [field] text
  | cons {field front fields text} (hfield : Padded field front) (hrest : Listing fields text) :
      Listing (field :: fields) (front ++ "," ++ text)

variable {fields : List String} {field text : String}

theorem Padded.closed (h : Padded field text) (hfield : IsClosed field.toList) :
    IsClosed text.toList := by
  obtain ⟨before, after, hbefore, hafter, htext⟩ := h.exists_blanks
  rw [htext]
  exact (isGap_of_blank hbefore).closed.append (hfield.append (isGap_of_blank hafter).closed)

/-- A field that is one part is one with its blanks, and they are trimmed. -/
theorem Padded.splitFieldChars_eq (h : Padded field text)
    (hpart : cutCommas .outside field.toList = [field.toList]) :
    splitFieldChars text.toList = [trim field.toList] := by
  obtain ⟨before, after, hbefore, hafter, htext⟩ := h.exists_blanks
  rw [htext, splitFieldChars_of_blank_append hbefore, splitFieldChars_append_blank hafter,
    splitFieldChars, hpart, List.map_singleton]

/-- The parts of a list of closed fields are the fields, trimmed. -/
theorem Listing.splitFieldChars_eq (h : Listing fields text)
    (hfields : ∀ f ∈ fields, IsClosed f.toList ∧ cutCommas .outside f.toList = [f.toList]) :
    splitFieldChars text.toList = fields.map fun f => trim f.toList := by
  induction h with
  | single hfield =>
    exact hfield.splitFieldChars_eq (hfields _ List.mem_cons_self).2
  | @cons field front fields text hfield hrest ih =>
    obtain ⟨hfirst, hmore⟩ := List.forall_mem_cons.mp hfields
    have hcut : splitFieldChars (front ++ "," ++ text).toList =
        splitFieldChars front.toList ++ splitFieldChars text.toList := by
      simp only [splitFieldChars, String.toList_append, List.append_assoc]
      rw [← List.map_append]
      exact congrArg _ (cutCommas_comma (hfield.closed hfirst.1) text.toList)
    rw [hcut, hfield.splitFieldChars_eq hfirst.2, ih hmore]
    rfl

theorem Listing.closed (h : Listing fields text) (hfields : ∀ f ∈ fields, IsClosed f.toList) :
    IsClosed text.toList := by
  induction h with
  | single hfield => exact hfield.closed (hfields _ List.mem_cons_self)
  | cons hfield hrest ih =>
    obtain ⟨hfirst, hmore⟩ := List.forall_mem_cons.mp hfields
    simp only [String.toList_append]
    have hcomma : IsClosed ",".toList := by decide
    exact ((hfield.closed hfirst).append hcomma).append (ih hmore)

/-- **Splitting undoes joining at top level.** A text without a comma at top level is
one field. A comma behind a closed text separates what the texts before and after it
are split into. So trimmed and closed fields without commas at top level come back
from any list of them, whatever blanks stand around the commas. -/
theorem splitFields_join :
    (∀ s : String, (∀ i, ¬ CommaAt s.toList i) →
      splitFields s = [String.ofList (trim s.toList)]) ∧
    (∀ a b : String, IsClosed a.toList →
      splitFields (a ++ "," ++ b) = splitFields a ++ splitFields b) ∧
    (∀ (fields : List String) (text : String), Listing fields text →
      (∀ f ∈ fields, trim f.toList = f.toList ∧ IsClosed f.toList ∧ ∀ i, ¬ CommaAt f.toList i) →
      splitFields text = fields) := by
  refine ⟨?_, ?_, ?_⟩
  · intro s hs
    rw [splitFields, splitFieldChars, cutCommas_eq_singleton_iff.mpr hs]
    rfl
  · intro a b ha
    simp only [splitFields, splitFieldChars, String.toList_append, List.append_assoc]
    rw [← List.map_append, ← List.map_append, ← cutCommas_comma ha]
    rfl
  · intro fields text hlisting hfields
    have hparts := hlisting.splitFieldChars_eq fun f hf =>
      ⟨(hfields f hf).2.1, cutCommas_eq_singleton_iff.mpr (hfields f hf).2.2⟩
    rw [splitFields, hparts, List.map_map]
    refine (List.map_congr_left fun f hf => ?_).trans (List.map_id fields)
    rw [Function.comp_apply, (hfields f hf).1, String.ofList_toList, id]

/-- A comma in quotes and in parentheses, a closing parenthesis too many, an unclosed
one at the end, and fields between blanks of several kinds. -/
theorem splitFields_join_nested :
    splitFields " f('a,(', b) " = ["f('a,(', b)"] ∧
      splitFields ("a), ')'" ++ "," ++ "b, (c, d") = ["a)", "')'", "b", "(c, d"] ∧
      splitFields (" sum(a, b)\t" ++ "," ++ ("" ++ "," ++ "'x,y' as ä\u00a0")) =
        ["sum(a, b)", "", "'x,y' as ä"] := by
  obtain ⟨hsingle, happend, hlisting⟩ := splitFields_join
  refine ⟨?_, ?_, ?_⟩
  · rw [hsingle _ (cutCommas_eq_singleton_iff.mp (by decide))]
    decide
  · rw [happend _ _ (by decide)]
    decide
  · refine hlisting _ _ (.cons ⟨" ", "\t", by decide, by decide, by decide⟩
      (.cons ⟨"", "", by decide, by decide, by decide⟩
        (.single ⟨"", "\u00a0", by decide, by decide, by decide⟩))) ?_
    simp only [List.forall_mem_cons, ← cutCommas_eq_singleton_iff]
    decide

end Querent.Statement
