import Querent.Json.Printer
import Querent.Json.Reader

/-!
# Strings of JSON

A string is written in pieces: a character for itself, an escape of two characters, or an
escape with a word of UTF-16 in hexadecimal digits. The pieces stand for a text if the words
among them are those of characters; a string with half of a surrogate pair stands for none.
The reader finds the text, or that there is none, and the printer writes such a string.
-/

namespace Querent.Json

variable {p : Piece} {ps : List Piece} {c : Char} {cs l : List Char} {s : Option String} {n w : Nat}

/-! ## The grammar -/

/-- What may follow a backslash, and the character that the two stand for. -/
def shortEscapes : List (Char × Char) :=
  [('"', '"'), ('\\', '\\'), ('/', '/'), ('b', '\x08'), ('t', '\t'), ('n', '\n'), ('f', '\x0c'),
    ('r', '\r')]

/-- How a piece is written. -/
inductive PieceText : Piece → List Char → Prop
  | plain {c : Char} : 0x20 ≤ c.toNat → c ≠ '"' → c ≠ '\\' → PieceText (.char c) [c]
  | short {e c : Char} : (e, c) ∈ shortEscapes → PieceText (.char c) ['\\', e]
  | word {a b c d : Char} {w : Nat} : Hexadecimal.nat? [a, b, c, d] = some w →
    PieceText (.word w) ['\\', 'u', a, b, c, d]

/-- How pieces are written, one behind the other. -/
inductive PiecesText : List Piece → List Char → Prop
  | nil : PiecesText [] []
  | cons {p : Piece} {ps : List Piece} {l rest : List Char} :
    PieceText p l → PiecesText ps rest → PiecesText (p :: ps) (l ++ rest)

/-- The words of a character in UTF-16: itself, or a pair of surrogates. -/
def utf16 (c : Char) : List Nat :=
  if c.toNat < 0x10000 then [c.toNat]
  else [0xD800 + (c.toNat - 0x10000) / 0x400, 0xDC00 + (c.toNat - 0x10000) % 0x400]

/-- Pieces that stand for a text: its characters themselves, or their words. -/
inductive Spells : List Piece → List Char → Prop
  | nil : Spells [] []
  | char (c : Char) {ps : List Piece} {cs : List Char} :
    Spells ps cs → Spells (.char c :: ps) (c :: cs)
  | words (c : Char) {ps : List Piece} {cs : List Char} :
    Spells ps cs → Spells ((utf16 c).map .word ++ ps) (c :: cs)

/-- What stands between the quotation marks of a string, and the text that it stands for;
`none` if its words of UTF-16 are not those of a text. -/
inductive StringText : Option String → List Char → Prop
  | text {ps : List Piece} {cs l : List Char} :
    PiecesText ps l → Spells ps cs → StringText (some (String.ofList cs)) l
  | half {ps : List Piece} {l : List Char} :
    PiecesText ps l → (∀ cs, ¬ Spells ps cs) → StringText none l

/-! ## Reading the pieces -/

theorem shortEscape?_of_mem {e : Char} (h : (e, c) ∈ shortEscapes) : shortEscape? e = some c := by
  have hall : ∀ x ∈ shortEscapes, shortEscape? x.1 = some x.2 := by decide
  exact hall _ h

theorem pieces?_append (h : PieceText p l) (rest : List Char) :
    pieces? (l ++ rest) = (pieces? rest).map fun (ps, rest) => (p :: ps, rest) := by
  cases h with
  | plain hcontrol hquote hslash =>
    rw [List.singleton_append, pieces?]
    · rw [if_neg (by simp [hcontrol, hslash])]
      cases pieces? rest <;> rfl
    · exact hquote
    · rintro _ _ _ _ _ rfl
      exact absurd rfl hslash
    · rintro _ _ rfl
      exact absurd rfl hslash
  | @short e c hshort =>
    have hu : e ≠ 'u' := by
      rintro rfl
      exact absurd hshort (by simp [shortEscapes])
    rw [List.cons_append, List.singleton_append, pieces?, shortEscape?_of_mem hshort]
    · cases pieces? rest <;> rfl
    · rintro _ _ _ _ _ h
      exact absurd h hu
  | word hword =>
    simp only [List.cons_append, List.nil_append, pieces?, hword]
    cases pieces? rest <;> rfl

theorem pieces?_of_text (h : PiecesText ps l) (rest : List Char) :
    pieces? (l ++ '"' :: rest) = some (ps, rest) := by
  induction h with
  | nil => rfl
  | cons hp _ ih => rw [List.append_assoc, pieces?_append hp, ih, Option.map_some]

theorem digitValue?_lt (h : Hexadecimal.digitValue? c = some n) : n < 16 := by
  have hle (a b : Char) : a ≤ b ↔ a.toNat ≤ b.toNat := UInt32.le_iff_toNat_le
  simp only [Hexadecimal.digitValue?, hle, Char.reduceToNat] at h
  split at h
  · cases h
    omega
  · split at h
    · cases h
      omega
    · split at h <;> cases h
      omega

/-- Four hexadecimal digits stand for a word. -/
theorem lt_of_pieceText (h : PieceText (.word w) l) : w < 0x10000 := by
  cases h with
  | word hword =>
    simp only [Hexadecimal.nat?, List.foldlM_cons, List.foldlM_nil, Option.bind_eq_bind,
      Option.bind_eq_some_iff, Option.map_eq_some_iff, Option.pure_def, Option.some.injEq] at hword
    obtain ⟨_, ⟨v₁, h₁, rfl⟩, _, ⟨v₂, h₂, rfl⟩, _, ⟨v₃, h₃, rfl⟩, _, ⟨v₄, h₄, rfl⟩, rfl⟩ := hword
    have := digitValue?_lt h₁
    have := digitValue?_lt h₂
    have := digitValue?_lt h₃
    have := digitValue?_lt h₄
    omega

/-! ## Joining the pieces -/

theorem toNat_ofNat (h : n < 0xD800 ∨ 0xDFFF < n ∧ n < 0x110000) : (Char.ofNat n).toNat = n := by
  have hvalid : n.isValidChar := h
  rw [Char.ofNat, dif_pos hvalid]
  rfl

theorem joinPieces?_word (hhigh : isHigh w = false) (hlow : isLow w = false) (ps : List Piece) :
    joinPieces? (.word w :: ps) = (joinPieces? ps).map (Char.ofNat w :: ·) := by
  cases ps with
  | nil => simp [joinPieces?, hhigh, hlow]
  | cons p ps => cases p <;> simp [joinPieces?, hhigh, hlow]

theorem joinPieces?_utf16 (c : Char) (ps : List Piece) :
    joinPieces? ((utf16 c).map .word ++ ps) = (joinPieces? ps).map (c :: ·) := by
  have hvalid : c.toNat < 0xD800 ∨ 0xDFFF < c.toNat ∧ c.toNat < 0x110000 := c.valid
  rw [utf16]
  split
  · have hhigh : isHigh c.toNat = false := by simp [isHigh]; omega
    have hlow : isLow c.toNat = false := by simp [isLow]; omega
    rw [List.map_singleton, List.singleton_append, joinPieces?_word hhigh hlow, Char.ofNat_toNat]
  · have hhigh : isHigh (0xD800 + (c.toNat - 0x10000) / 0x400) = true := by simp [isHigh]; omega
    have hlow : isLow (0xDC00 + (c.toNat - 0x10000) % 0x400) = true := by simp [isLow]; omega
    have hjoin : 0x10000 + (0xD800 + (c.toNat - 0x10000) / 0x400 - 0xD800) * 0x400 +
        (0xDC00 + (c.toNat - 0x10000) % 0x400 - 0xDC00) = c.toNat := by omega
    simp only [List.map_cons, List.map_nil, List.cons_append, List.nil_append, joinPieces?,
      hhigh, hlow, if_true, hjoin, Char.ofNat_toNat]

theorem joinPieces?_of_spells (h : Spells ps cs) : joinPieces? ps = some cs := by
  induction h with
  | nil => rfl
  | char c _ ih => rw [joinPieces?, ih, Option.map_some]
  | words c _ ih => rw [joinPieces?_utf16, ih, Option.map_some]

theorem utf16_word (hhigh : isHigh w = false) (hlow : isLow w = false) (hw : w < 0x10000) :
    utf16 (Char.ofNat w) = [w] := by
  simp only [isHigh, isLow, Bool.and_eq_false_iff, decide_eq_false_iff_not] at hhigh hlow
  have hvalid : (Char.ofNat w).toNat = w := toNat_ofNat (by omega)
  rw [utf16, hvalid, if_pos hw]

theorem utf16_pair {high low : Nat} (hhigh : isHigh high = true) (hlow : isLow low = true) :
    utf16 (Char.ofNat (0x10000 + (high - 0xD800) * 0x400 + (low - 0xDC00))) = [high, low] := by
  simp only [isHigh, isLow, Bool.and_eq_true, decide_eq_true_eq] at hhigh hlow
  have hfirst : 0xD800 + (0x10000 + (high - 0xD800) * 0x400 + (low - 0xDC00) - 0x10000) / 0x400 =
      high := by omega
  have hsecond : 0xDC00 + (0x10000 + (high - 0xD800) * 0x400 + (low - 0xDC00) - 0x10000) % 0x400 =
      low := by omega
  rw [utf16, toNat_ofNat (by omega), if_neg (by omega), hfirst, hsecond]

theorem spells_of_joinPieces? (hwords : ∀ w, .word w ∈ ps → w < 0x10000)
    (h : joinPieces? ps = some cs) : Spells ps cs := by
  -- a word that is no surrogate stands for a character, whatever comes next
  have single {w : Nat} {ps : List Piece} {cs : List Char} (hhigh : isHigh w = false)
      (hlow : isLow w = false) (hw : w < 0x10000) (hps : Spells ps cs) :
      Spells (.word w :: ps) (Char.ofNat w :: cs) := by
    simpa [utf16_word hhigh hlow hw] using Spells.words (Char.ofNat w) hps
  fun_induction joinPieces? ps generalizing cs with
  | case1 => cases h; exact .nil
  | case2 c rest ih =>
    obtain ⟨cs, hrest, rfl⟩ := Option.map_eq_some_iff.mp h
    exact .char c (ih (fun w hw => hwords w (List.mem_cons_of_mem _ hw)) hrest)
  | case3 high low rest hhigh hlow ih =>
    obtain ⟨cs, hrest, rfl⟩ := Option.map_eq_some_iff.mp h
    have hwords' (w : Nat) (hw : .word w ∈ rest) : w < 0x10000 :=
      hwords w (List.mem_cons_of_mem _ (List.mem_cons_of_mem _ hw))
    have hspells := Spells.words (Char.ofNat (0x10000 + (high - 0xD800) * 0x400 + (low - 0xDC00)))
      (ih hwords' hrest)
    rwa [utf16_pair hhigh hlow] at hspells
  | case4 => cases h
  | case5 => cases h
  | case6 w w' rest hhigh hlow ih =>
    obtain ⟨cs, hrest, rfl⟩ := Option.map_eq_some_iff.mp h
    exact single (Bool.eq_false_iff.mpr hhigh) (Bool.eq_false_iff.mpr hlow)
      (hwords w List.mem_cons_self) (ih (fun w hw => hwords w (List.mem_cons_of_mem _ hw)) hrest)
  | case7 => cases h
  | case8 w rest _ hsurrogate ih =>
    obtain ⟨cs, hrest, rfl⟩ := Option.map_eq_some_iff.mp h
    obtain ⟨hhigh, hlow⟩ := Bool.or_eq_false_iff.mp (Bool.eq_false_iff.mpr hsurrogate)
    exact single hhigh hlow (hwords w List.mem_cons_self)
      (ih (fun w hw => hwords w (List.mem_cons_of_mem _ hw)) hrest)

theorem lt_of_piecesText (h : PiecesText ps l) : ∀ w, .word w ∈ ps → w < 0x10000 := by
  induction h with
  | nil => intro w hw; cases hw
  | cons hp _ ih =>
    rintro w hw
    rcases List.mem_cons.mp hw with rfl | hw
    · exact lt_of_pieceText hp
    · exact ih w hw

/-- A string is read up to the quotation mark behind it. -/
theorem string?_of_text (h : StringText s l) (rest : List Char) :
    string? (l ++ '"' :: rest) = some (s, rest) := by
  cases h with
  | text hps hspells => simp [string?, pieces?_of_text hps, joinPieces?_of_spells hspells]
  | @half ps _ hps hnone =>
    have hjoin : joinPieces? ps = none := Option.eq_none_iff_forall_ne_some.mpr fun cs h =>
      hnone cs (spells_of_joinPieces? (lt_of_piecesText hps) h)
    simp [string?, pieces?_of_text hps, hjoin]

/-! ## Writing -/

/-- A character is printed as itself or, if it is a control character, as its word. -/
theorem escape_text (c : Char) : PieceText (.char c) (escape c) ∨
    PieceText (.word c.toNat) (escape c) ∧ utf16 c = [c.toNat] := by
  unfold escape
  split
  case h_8 hquote hslash _ _ _ _ _ =>
    split
    case isTrue hcontrol =>
      have hnat : ∀ n < 0x20, Hexadecimal.nat? (Hexadecimal.lastDigits 4 n) = some n := by decide
      exact .inr ⟨.word (hnat c.toNat hcontrol), by rw [utf16, if_pos (by omega)]⟩
    case isFalse hcontrol => exact .inl (.plain (Nat.le_of_not_lt hcontrol) hquote hslash)
  all_goals exact .inl (.short (by decide))

/-- A text is printed as a string that stands for it. -/
theorem stringText_escape (s : String) : StringText (some s) (s.toList.flatMap escape) := by
  obtain ⟨ps, hps, hspells⟩ :
      ∃ ps, PiecesText ps (s.toList.flatMap escape) ∧ Spells ps s.toList := by
    induction s.toList with
    | nil => exact ⟨[], .nil, .nil⟩
    | cons c cs ih =>
      obtain ⟨ps, hps, hspells⟩ := ih
      rw [List.flatMap_cons]
      rcases escape_text c with hc | ⟨hc, hword⟩
      · exact ⟨.char c :: ps, .cons hc hps, .char c hspells⟩
      · refine ⟨.word c.toNat :: ps, .cons hc hps, ?_⟩
        simpa [hword] using Spells.words c hspells
  simpa using StringText.text hps hspells

end Querent.Json
