import Mathlib.Data.List.DropRight
import Querent.Proofs.Json.Numbers
import Querent.Proofs.Json.Strings

/-!
# Documents of JSON

The grammar of JSON as a relation between values and texts: blanks may stand around every
value and every name, a character of a string may be written in several ways, and the text
of a value has no bound. Whatever is written so is read as the value it was written for.
-/

namespace Querent.Json

variable {b l rest tail name : List Char} {j : Json} {js : List Json} {s : Option String}
  {ms : List (Option String × Json)} {fuel : Nat}

/-! ## The grammar -/

def Blanks (b : List Char) : Prop := ∀ c ∈ b, isBlank c

/-- What the grammar derives. -/
inductive Phrase where
  | value (j : Json)
  /-- a value with blanks around it, as a document has it -/
  | padded (j : Json)
  /-- the inside of an array that is not empty -/
  | elements (js : List Json)
  /-- the inside of an object that is not empty; a name with half of a surrogate pair
  is no text -/
  | members (ms : List (Option String × Json))

/-- The members, if all of their names are texts. -/
def named? (ms : List (Option String × Json)) : Option (List (String × Json)) :=
  ms.mapM fun (name, j) => name.map (·, j)

/-- The name of a member up to its colon. -/
inductive NameText : Option String → List Char → Prop
  | mk {s : Option String} {b name b' : List Char} : Blanks b → StringText s name → Blanks b' →
    NameText s (b ++ '"' :: (name ++ '"' :: (b' ++ [':'])))

/-- What is written for a phrase. A value has no blanks around it, all else may have. -/
inductive Writes : Phrase → List Char → Prop
  | null : Writes (.value .null) ['n', 'u', 'l', 'l']
  | true : Writes (.value (.bool true)) ['t', 'r', 'u', 'e']
  | false : Writes (.value (.bool false)) ['f', 'a', 'l', 's', 'e']
  | number {l : List Char} : NumberText l → Writes (.value (.number (String.ofList l))) l
  | string {s : Option String} {l : List Char} : StringText s l →
    Writes (.value (s.elim .halfPair .string)) ('"' :: (l ++ ['"']))
  | emptyArray {b : List Char} : Blanks b → Writes (.value (.array [])) ('[' :: (b ++ [']']))
  | array {js : List Json} {l : List Char} : Writes (.elements js) l →
    Writes (.value (.array js)) ('[' :: (l ++ [']']))
  | emptyObject {b : List Char} : Blanks b →
    Writes (.value (.object [])) ('\x7b' :: (b ++ ['\x7d']))
  | object {ms : List (Option String × Json)} {l : List Char} : Writes (.members ms) l →
    Writes (.value ((named? ms).elim .halfPair .object)) ('\x7b' :: (l ++ ['\x7d']))
  | padded {j : Json} {b l b' : List Char} : Blanks b → Writes (.value j) l → Blanks b' →
    Writes (.padded j) (b ++ (l ++ b'))
  | element {j : Json} {l : List Char} : Writes (.padded j) l → Writes (.elements [j]) l
  | elements {j : Json} {js : List Json} {l rest : List Char} : Writes (.padded j) l →
    Writes (.elements js) rest → Writes (.elements (j :: js)) (l ++ ',' :: rest)
  | member {s : Option String} {j : Json} {name l : List Char} : NameText s name →
    Writes (.padded j) l → Writes (.members [(s, j)]) (name ++ l)
  | members {s : Option String} {j : Json} {ms : List (Option String × Json)}
    {name l rest : List Char} : NameText s name → Writes (.padded j) l →
    Writes (.members ms) rest → Writes (.members ((s, j) :: ms)) (name ++ (l ++ ',' :: rest))

/-- A text that is one value. -/
def Document (j : Json) (text : String) : Prop := Writes (.padded j) text.toList

/-! ## Blanks -/

theorem skipBlank_append (hb : Blanks b) (l : List Char) : skipBlank (b ++ l) = skipBlank l :=
  List.dropWhile_append_of_pos hb

theorem skipBlank_cons {c : Char} (hc : isBlank c = false) (l : List Char) :
    skipBlank (c :: l) = c :: l :=
  List.dropWhile_cons_of_neg (Bool.eq_false_iff.mp hc)

theorem skipBlank_append_cons {c : Char} (hb : Blanks b) (hc : isBlank c = false)
    (l : List Char) : skipBlank (b ++ c :: l) = c :: l :=
  (skipBlank_append hb _).trans (skipBlank_cons hc l)

theorem skipBlank_skipBlank (l : List Char) : skipBlank (skipBlank l) = skipBlank l :=
  List.dropWhile_idempotent isBlank l

section Equations

-- One step of the reader unfolds it; what comes behind this section goes by the steps.
attribute [local simp] value? elements? members?

/-- The reader begins with what comes behind the blanks. -/
theorem value?_congr {l' : List Char} (h : skipBlank l = skipBlank l') (fuel : Nat) :
    value? fuel l = value? fuel l' := by
  cases fuel with
  | zero => rfl
  | succ fuel => rw [value?, value?, h]

theorem elements?_congr {l' : List Char} (h : skipBlank l = skipBlank l') (fuel : Nat) :
    elements? fuel l = elements? fuel l' := by
  cases fuel with
  | zero => rfl
  | succ fuel => rw [elements?, elements?, value?_congr h]

theorem members?_congr {l' : List Char} (h : skipBlank l = skipBlank l') (fuel : Nat) :
    members? fuel l = members? fuel l' := by
  cases fuel with
  | zero => rfl
  | succ fuel => rw [members?, members?, h]

theorem eq_of_isBlank {c : Char} (hc : isBlank c) : c ∈ [' ', '\n', '\t', '\r'] := by
  simpa [isBlank, or_assoc] using hc

theorem isBlank_of_start {c : Char} (hc : c = '-' ∨ c.isDigit) : isBlank c = false := by
  refine Bool.eq_false_iff.mpr fun hblank => ?_
  have start : ∀ d ∈ [' ', '\n', '\t', '\r'], ¬ (d = '-' ∨ d.isDigit) := by simp
  exact start c (eq_of_isBlank hblank) hc

/-- No number goes on with a blank. -/
theorem endsNumber_append (hb : Blanks b) (hrest : EndsNumber rest) : EndsNumber (b ++ rest) := by
  cases b with
  | nil => exact hrest
  | cons c b =>
    have blank : ∀ c ∈ [' ', '\n', '\t', '\r'],
        c.isDigit = false ∧ c ≠ '.' ∧ c ≠ 'e' ∧ c ≠ 'E' := by simp
    rintro _ ⟨⟩
    exact blank c (eq_of_isBlank (hb c List.mem_cons_self))

theorem endsNumber_cons {c : Char} (hc : c ∈ [',', ']', '\x7d']) (l : List Char) :
    EndsNumber (c :: l) := by
  have delimiter : ∀ c ∈ [',', ']', '\x7d'],
      c.isDigit = false ∧ c ≠ '.' ∧ c ≠ 'e' ∧ c ≠ 'E' := by simp
  rintro _ ⟨⟩
  exact delimiter c hc

/-! ## One step of the reader -/

theorem value?_number (h : NumberText l) (hrest : EndsNumber rest) :
    value? (fuel + 1) (l ++ rest) = some (.number (String.ofList l), rest) := by
  have hread := number?_append h hrest
  obtain ⟨c, tail, rfl, hc⟩ := h.head
  rw [value?, List.cons_append, skipBlank_cons (isBlank_of_start hc)]
  -- the first character excludes every other kind of value
  split
  case h_7 =>
    rw [List.cons_append] at hread
    rw [hread]
    rfl
  all_goals
    next heq =>
      rw [(List.cons.inj heq).1] at hc
      exact absurd hc (by decide)

theorem value?_string (h : StringText s l) (rest : List Char) :
    value? (fuel + 1) ('"' :: (l ++ '"' :: rest)) = some (s.elim .halfPair .string, rest) := by
  rw [value?, skipBlank_cons rfl]
  simp [string?_of_text h]

theorem value?_emptyArray (hb : Blanks b) (rest : List Char) :
    value? (fuel + 1) ('[' :: (b ++ ']' :: rest)) = some (.array [], rest) := by
  rw [value?, skipBlank_cons rfl]
  simp [skipBlank_append_cons hb, isBlank]

theorem value?_emptyObject (hb : Blanks b) (rest : List Char) :
    value? (fuel + 1) ('\x7b' :: (b ++ '\x7d' :: rest)) = some (.object [], rest) := by
  rw [value?, skipBlank_cons rfl]
  simp [skipBlank_append_cons hb, isBlank]

/-- An array goes on with elements unless it is closed at once. -/
theorem value?_array (h : ∀ rest, skipBlank l ≠ ']' :: rest) :
    value? (fuel + 1) ('[' :: l) =
      (elements? fuel l).map fun (js, rest) => (.array js, rest) := by
  rw [value?, skipBlank_cons rfl, elements?_congr (skipBlank_skipBlank l).symm]
  simp

/-- An object goes on with members unless it is closed at once. -/
theorem value?_object (h : ∀ rest, skipBlank l ≠ '\x7d' :: rest) :
    value? (fuel + 1) ('\x7b' :: l) =
      (members? fuel l).map fun (ms, rest) => (ms.elim .halfPair .object, rest) := by
  rw [value?, skipBlank_cons rfl, members?_congr (skipBlank_skipBlank l).symm]
  simp

theorem elements?_last (hb : Blanks b) (h : value? fuel l = some (j, b ++ ']' :: rest)) :
    elements? (fuel + 1) l = some ([j], rest) := by
  simp [h, skipBlank_append_cons hb, isBlank]

theorem elements?_more (hb : Blanks b) (h : value? fuel l = some (j, b ++ ',' :: rest))
    (hrest : elements? fuel rest = some (js, tail)) :
    elements? (fuel + 1) l = some (j :: js, tail) := by
  simp [h, hrest, skipBlank_append_cons hb, isBlank]

theorem members?_last (hname : NameText s name) (hb : Blanks b)
    (h : value? fuel l = some (j, b ++ '\x7d' :: rest)) :
    members? (fuel + 1) (name ++ l) = some (named? [(s, j)], rest) := by
  obtain @⟨before, name, behind, hbefore, hstring, hbehind⟩ := hname
  cases s <;> simp [named?, string?_of_text hstring, h,
    skipBlank_append_cons hbefore, skipBlank_append_cons hbehind, skipBlank_append_cons hb, isBlank]

theorem members?_more (hname : NameText s name) (hb : Blanks b)
    (h : value? fuel l = some (j, b ++ ',' :: rest))
    (hrest : members? fuel rest = some (named? ms, tail)) :
    members? (fuel + 1) (name ++ l) = some (named? ((s, j) :: ms), tail) := by
  obtain @⟨before, name, behind, hbefore, hstring, hbehind⟩ := hname
  cases s <;> simp [named?, string?_of_text hstring, h, hrest,
    skipBlank_append_cons hbefore, skipBlank_append_cons hbehind, skipBlank_append_cons hb, isBlank]

end Equations

/-! ## How a phrase begins -/

/-- The first character behind the blanks closes nothing. -/
def Opens (l : List Char) : Prop :=
  ∃ b c tail, l = b ++ c :: tail ∧ Blanks b ∧ isBlank c = false ∧ c ∉ [']', '\x7d']

theorem Opens.append (h : Opens l) (rest : List Char) : Opens (l ++ rest) := by
  obtain ⟨b, c, tail, rfl, hc⟩ := h
  exact ⟨b, c, tail ++ rest, List.append_assoc b (c :: tail) rest, hc⟩

theorem Opens.padded (hb : Blanks b) (h : Opens l) : Opens (b ++ l) := by
  obtain ⟨b', c, tail, rfl, hb', hc⟩ := h
  exact ⟨b ++ b', c, tail, (List.append_assoc ..).symm,
    fun d hd => (List.mem_append.mp hd).elim (hb d) (hb' d), hc⟩

theorem Opens.cons {c : Char} (hc : isBlank c = false ∧ c ∉ [']', '\x7d']) (l : List Char) :
    Opens (c :: l) :=
  ⟨[], c, l, rfl, List.forall_mem_nil _, hc⟩

theorem Opens.skipBlank_ne (h : Opens l) {c : Char} (hc : c ∈ [']', '\x7d']) (rest : List Char) :
    skipBlank l ≠ c :: rest := by
  obtain ⟨b, d, tail, rfl, hb, hd, hne⟩ := h
  rw [skipBlank_append_cons hb hd]
  intro heq
  exact hne ((List.cons.inj heq).1 ▸ hc)

theorem Opens.length_pos (h : Opens l) : 0 < l.length := by
  obtain ⟨b, c, tail, rfl, -⟩ := h
  exact List.length_pos_of_mem (List.mem_append_right b List.mem_cons_self)

theorem NumberText.opens (h : NumberText l) : Opens l := by
  obtain ⟨c, tail, rfl, hc⟩ := h.head
  have close : ∀ d ∈ [']', '\x7d'], ¬ (d = '-' ∨ d.isDigit) := by simp
  exact .cons ⟨isBlank_of_start hc, fun hclose => close c hclose hc⟩ tail

theorem NameText.opens (h : NameText s name) : Opens name := by
  obtain ⟨hb, -, -⟩ := h
  exact .padded hb (.cons (by decide) _)

theorem Writes.opens {p : Phrase} (h : Writes p l) : Opens l := by
  induction h with
  | number hnumber => exact hnumber.opens
  | padded hb _ _ ih => exact .padded hb (ih.append _)
  | element _ ih => exact ih
  | elements _ _ ih _ => exact ih.append _
  | member hname => exact hname.opens.append _
  | members hname => exact hname.opens.append _
  | _ => exact .cons (by decide) _

/-! ## What is read -/

/-- A phrase is read to its end, with fuel for two steps of each character. -/
def Phrase.Read (l : List Char) : Phrase → Prop
  | .value j => ∀ fuel rest, 2 * l.length ≤ fuel + 1 → EndsNumber rest →
    value? (fuel + 1) (l ++ rest) = some (j, rest)
  | .padded j => ∀ fuel rest, 2 * l.length ≤ fuel → EndsNumber rest →
    ∃ b, Blanks b ∧ value? fuel (l ++ rest) = some (j, b ++ rest)
  | .elements js => ∀ fuel rest, 2 * l.length ≤ fuel →
    elements? (fuel + 1) (l ++ ']' :: rest) = some (js, rest)
  | .members ms => ∀ fuel rest, 2 * l.length ≤ fuel →
    members? (fuel + 1) (l ++ '\x7d' :: rest) = some (named? ms, rest)

/-- A bracket pays for one step more. -/
theorem fuel_cons {c c' : Char} (h : 2 * (c :: (l ++ [c'])).length ≤ fuel + 1) :
    ∃ k, fuel = k + 1 ∧ 2 * l.length ≤ k := by
  simp only [List.length_cons, List.length_append, List.length_nil] at h
  exact ⟨fuel - 1, by omega, by omega⟩

theorem Writes.read {p : Phrase} (h : Writes p l) : p.Read l := by
  -- what comes behind a phrase is left open, for the brackets around it to be read
  induction h with
  | null => intro fuel rest _ _; rfl
  | true => intro fuel rest _ _; rfl
  | false => intro fuel rest _ _; rfl
  | number hnumber => exact fun fuel rest _ hrest => value?_number hnumber hrest
  | string hstring =>
    intro fuel rest _ _
    simpa using value?_string hstring rest
  | emptyArray hb =>
    intro fuel rest _ _
    simpa using value?_emptyArray hb rest
  | @array js l hjs ih =>
    intro fuel rest hfuel _
    obtain ⟨k, rfl, hk⟩ := fuel_cons hfuel
    have hopen := (hjs.opens.append (']' :: rest)).skipBlank_ne (c := ']') (by decide)
    have hread : value? (k + 1 + 1) _ = _ := value?_array hopen
    rw [ih k rest hk] at hread
    simpa using hread
  | emptyObject hb =>
    intro fuel rest _ _
    simpa using value?_emptyObject hb rest
  | object hms ih =>
    intro fuel rest hfuel _
    obtain ⟨k, rfl, hk⟩ := fuel_cons hfuel
    have hopen := (hms.opens.append ('\x7d' :: rest)).skipBlank_ne (c := '\x7d') (by decide)
    have hread : value? (k + 1 + 1) _ = _ := value?_object hopen
    rw [ih k rest hk] at hread
    simpa using hread
  | @padded j b l b' hb hj hb' ih =>
    intro fuel rest hfuel hrest
    have hpos := hj.opens.length_pos
    simp only [List.length_append] at hfuel
    obtain ⟨fuel, rfl⟩ : ∃ k, fuel = k + 1 := Nat.exists_eq_add_of_le' (by omega)
    refine ⟨b', hb', ?_⟩
    have hread := ih fuel (b' ++ rest) (by omega) (endsNumber_append hb' hrest)
    rw [← value?_congr (skipBlank_append hb _)] at hread
    simpa using hread
  | element hj ih =>
    intro fuel rest hfuel
    obtain ⟨b, hb, hread⟩ := ih fuel (']' :: rest) hfuel (endsNumber_cons (by decide) rest)
    exact elements?_last hb hread
  | @elements j js l l' hj hjs ih ihs =>
    intro fuel rest hfuel
    simp only [List.length_append, List.length_cons] at hfuel
    obtain ⟨b, hb, hread⟩ := ih fuel (',' :: (l' ++ ']' :: rest)) (by omega)
      (endsNumber_cons (by decide) _)
    obtain ⟨fuel, rfl⟩ : ∃ k, fuel = k + 1 := Nat.exists_eq_add_of_le' (by omega)
    simpa using elements?_more hb hread (ihs fuel rest (by omega))
  | @member s j name l hname hj ih =>
    intro fuel rest hfuel
    simp only [List.length_append] at hfuel
    obtain ⟨b, hb, hread⟩ := ih fuel ('\x7d' :: rest) (by omega) (endsNumber_cons (by decide) rest)
    simpa using members?_last hname hb hread
  | @members s j ms name l l' hname hj hms ih ihs =>
    intro fuel rest hfuel
    simp only [List.length_append, List.length_cons] at hfuel
    obtain ⟨b, hb, hread⟩ := ih fuel (',' :: (l' ++ '\x7d' :: rest)) (by omega)
      (endsNumber_cons (by decide) _)
    obtain ⟨fuel, rfl⟩ : ∃ k, fuel = k + 1 := Nat.exists_eq_add_of_le' (by omega)
    simpa using members?_more hname hb hread (ihs fuel rest (by omega))

/-- A document is read as the value that it was written for. -/
theorem read?_of_document {text : String} (h : Document j text) : read? text = some j := by
  obtain ⟨b, hb, hread⟩ := Writes.read h (2 * text.toList.length + 2) [] (by omega)
    (fun _ hc => nomatch hc)
  rw [List.append_nil, List.append_nil] at hread
  have hblank : skipBlank b = [] := List.append_nil b ▸ skipBlank_append hb []
  simp [read?, hread, hblank]

/-! ## Printing -/

theorem writes_quoted (s : String) : Writes (.value (.string s)) (quoted s) :=
  .string (stringText_escape s)

theorem writes_ofNat (n : Nat) : Writes (.value (.ofNat n)) (chars (.ofNat n)) := by
  show Writes (.value (.number (toString n))) (toString n).toList
  rw [Nat.toString_eq_ofList_toDigits, String.toList_ofList]
  exact .number (numberText_toDigits n)

theorem nameText_quoted (s : String) : NameText (some s) (quoted s ++ [':']) := by
  have blank : Blanks [] := List.forall_mem_nil _
  simpa [quoted] using NameText.mk blank (stringText_escape s) blank

theorem padded_chars (h : Writes (.value j) (chars j)) : Writes (.padded j) (chars j) := by
  have blank : Blanks [] := List.forall_mem_nil _
  simpa using Writes.padded blank h blank

theorem named?_map_some (members : List (String × Json)) :
    named? (members.map fun (name, j) => (some name, j)) = some members := by
  induction members with
  | nil => rfl
  | cons m members ih =>
    rw [named?] at ih
    simp [named?, ih]

theorem writes_memberChars {members : List (String × Json)} (hne : members ≠ [])
    (h : ∀ m ∈ members, Writes (.value m.2) (chars m.2)) :
    Writes (.members (members.map fun (name, j) => (some name, j))) (memberChars members) := by
  induction members with
  | nil => exact absurd rfl hne
  | cons m members ih =>
    obtain ⟨name, j⟩ := m
    have hj := padded_chars (h _ List.mem_cons_self)
    cases members with
    | nil => simpa [memberChars] using Writes.member (nameText_quoted name) hj
    | cons m members =>
      have hrest := ih (List.cons_ne_nil m members) fun m hm => h m (List.mem_cons_of_mem _ hm)
      simpa [memberChars] using Writes.members (nameText_quoted name) hj hrest

/-- An object is printed as a document if each of its members is. -/
theorem document_print {members : List (String × Json)} (hne : members ≠ [])
    (h : ∀ m ∈ members, Writes (.value m.2) (chars m.2)) :
    Document (.object members) (print (.object members)) := by
  have hobject := Writes.object (writes_memberChars hne h)
  rw [named?_map_some] at hobject
  rw [Document, print, String.toList_ofList]
  exact padded_chars hobject

end Querent.Json
