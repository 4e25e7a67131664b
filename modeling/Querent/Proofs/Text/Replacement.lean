import Querent.Proofs.Text.Utf8

/-!
# Reading any bytes as a text

Where the bytes go on with those of a character, the character is read. Where they do not,
one replacement is read for the longest piece with which some character begins, or for a
single byte if it begins none. So any bytes have one text. The decoder finds it although it
looks at each byte once: the bits and the bounds that it keeps of a character that stands
begun say which characters begin so.
-/

namespace Querent.Text.Utf8

/-- The bytes of some character begin so. -/
def Begun (piece : List UInt8) : Prop := ∃ c, piece <+: String.utf8EncodeChar c

/-- The bytes `piece ++ rest` do not begin with a character. The piece is the longest one in
front with which some character begins, or one byte if there is none. -/
structure Broken (piece rest : List UInt8) : Prop where
  nonempty : piece ≠ []
  unread : ∀ c, ¬ String.utf8EncodeChar c <+: piece ++ rest
  begun : Begun piece ∨ piece.length = 1
  longest : ∀ longer, longer <+: piece ++ rest → Begun longer → longer.length ≤ piece.length

/-- The text of bytes: character by character, with a replacement for each broken piece. -/
inductive Transcribed : List UInt8 → List Char → Prop
  | nil : Transcribed [] []
  | char (c : Char) {rest : List UInt8} {l : List Char} (h : Transcribed rest l) :
      Transcribed (String.utf8EncodeChar c ++ rest) (c :: l)
  | broken {piece rest : List UInt8} {l : List Char} (hpiece : Broken piece rest)
      (h : Transcribed rest l) : Transcribed (piece ++ rest) (replacement :: l)

variable {v k : Nat} {b : UInt8} {c c' : Char} {p : Partial} {piece rest bytes : List UInt8}
  {l l' : List Char}

/-! ## What a first byte tells -/

/-- A first byte of several has the highest bits, and says how many bytes are owed. -/
theorem start_partly_cases (h : start b = .partly p) :
    (p.more = 0 ∧ 0xC2 ≤ b.toNat ∧ b.toNat < 0xE0 ∧ p.bits = b.toNat % 32 ∧
      p.low.toNat = 0x80 ∧ p.high.toNat = 0xBF) ∨
    (p.more = 1 ∧ 0xE0 ≤ b.toNat ∧ b.toNat < 0xF0 ∧ p.bits = b.toNat % 16 ∧
      p.low.toNat = (if b.toNat = 0xE0 then 0xA0 else 0x80) ∧
      p.high.toNat = if b.toNat = 0xED then 0x9F else 0xBF) ∨
    (p.more = 2 ∧ 0xF0 ≤ b.toNat ∧ b.toNat < 0xF5 ∧ p.bits = b.toNat % 8 ∧
      p.low.toNat = (if b.toNat = 0xF0 then 0x90 else 0x80) ∧
      p.high.toNat = if b.toNat = 0xF4 then 0x8F else 0xBF) := by
  rw [start_eq] at h
  split at h
  · cases h
  split at h
  · cases h
  split at h
  · cases h
    exact .inl ⟨rfl, by omega, by omega, rfl, rfl, rfl⟩
  split at h
  · cases h
    exact .inr (.inl ⟨rfl, by omega, by omega, rfl, apply_ite .., apply_ite ..⟩)
  split at h
  · cases h
    exact .inr (.inr ⟨rfl, by omega, by omega, rfl, apply_ite .., apply_ite ..⟩)
  · cases h

/-- A byte that is owed may come next. -/
theorem bounds_of_start (h : start b = .partly p) :
    0x80 ≤ p.low.toNat ∧ p.low.toNat ≤ p.high.toNat ∧ p.high.toNat ≤ 0xBF := by
  obtain ⟨-, -, -, -, hlow, hhigh⟩ | ⟨-, -, -, -, hlow, hhigh⟩ | ⟨-, -, -, -, hlow, hhigh⟩ :=
    start_partly_cases h
  · omega
  · split_ifs at hlow hhigh <;> omega
  · split_ifs at hlow hhigh <;> omega

/-- The bounds of the next byte leave the codes that have this number of bytes. -/
theorem begins_cases (h : Begins b v k) :
    (k = 0 ∧ 0x80 ≤ v ∧ v < 0x800 ∧ b.toNat = v / 64 + 192) ∨
    (k = 1 ∧ 0x800 ≤ v ∧ v < 0x10000 ∧ (v < 0xD800 ∨ 0xDFFF < v) ∧ b.toNat = v / 4096 + 224) ∨
    (k = 2 ∧ 0x10000 ≤ v ∧ v < 0x110000 ∧ b.toNat = v / 262144 + 240) := by
  obtain ⟨p, hstart, hbits, hmore, hlow, hhigh⟩ := h
  rw [le_owedByte_iff] at hlow
  rw [owedByte_le_iff] at hhigh
  obtain ⟨hk, hb⟩ | ⟨hk, hb⟩ | ⟨hk, hb⟩ := start_partly_cases hstart
  · obtain rfl : k = 0 := hmore.symm.trans hk
    omega
  · obtain rfl : k = 1 := hmore.symm.trans hk
    split_ifs at hb <;> omega
  · obtain rfl : k = 2 := hmore.symm.trans hk
    split_ifs at hb <;> omega

namespace Begins

/-- A code has one first byte, and one number of bytes. -/
theorem unique {b' : UInt8} {k' : Nat} (h : Begins b v k) (h' : Begins b' v k') :
    b = b' ∧ k = k' := by
  have hcases := begins_cases h
  have hcases' := begins_cases h'
  rw [← UInt8.toNat_inj]
  omega

theorem isValidChar (h : Begins b v k) : v.isValidChar := by
  have hcases := begins_cases h
  show v < 0xD800 ∨ 0xDFFF < v ∧ v < 0x110000
  omega

/-- A character of several bytes is written by its first one and those that it owes. -/
theorem encodeChar (h : Begins b c.toNat k) :
    String.utf8EncodeChar c = b :: owed c.toNat k := by
  obtain ⟨hascii, -⟩ | ⟨b', k', hbegins, hbytes⟩ := encodeChar_cases c
  · have hcases := begins_cases h
    omega
  · obtain ⟨rfl, rfl⟩ := h.unique hbegins
    exact hbytes

end Begins

/-- The first byte of a character is all of it, or begins its code. -/
theorem start_of_prefix (h : [b] <+: String.utf8EncodeChar c) :
    start b = .char c ∨ ∃ k, Begins b c.toNat k := by
  obtain ⟨hascii, hbytes⟩ | ⟨b', k, hbegins, hbytes⟩ := encodeChar_cases c
  · rw [hbytes, List.cons_prefix_cons] at h
    have hbyte : (UInt8.ofNat c.toNat).toNat = c.toNat := toNat_ofNat_of_lt (by omega)
    left
    rw [h.1, start_eq, hbyte, if_pos hascii, Char.ofNat_toNat]
  · rw [hbytes, List.cons_prefix_cons] at h
    right
    exact ⟨k, h.1 ▸ hbegins⟩

theorem exists_char (h : v.isValidChar) : ∃ c : Char, c.toNat = v := ⟨Char.ofNatAux v h, rfl⟩

theorem encodeChar_of_start (h : start b = .char c) : String.utf8EncodeChar c = [b] := by
  rw [start_eq] at h
  split at h
  · next hascii =>
    cases h
    obtain ⟨c, hcode⟩ := exists_char (.inl (by omega) : b.toNat.isValidChar)
    rw [← hcode, Char.ofNat_toNat]
    obtain ⟨-, hbytes⟩ | ⟨b', k, hbegins, -⟩ := encodeChar_cases c
    · rw [hbytes, hcode, UInt8.ofNat_toNat]
    · have hcases := begins_cases hbegins
      omega
  · split_ifs at h

/-- A byte that begins nothing stands in front of no character's bytes. -/
theorem not_begun_of_invalid (h : start b = .invalid) : ¬ Begun (b :: rest) := by
  rintro ⟨c, hc⟩
  have hfirst : [b] <+: String.utf8EncodeChar c := (List.prefix_append [b] rest).trans hc
  obtain hchar | ⟨k, p, hpartly, -⟩ := start_of_prefix hfirst
  · cases h.symm.trans hchar
  · cases h.symm.trans hpartly

/-! ## Characters that stand begun -/

/-- The code has these bits, and the next byte that it owes is within the bounds. -/
def Partial.Admits (p : Partial) (v : Nat) : Prop :=
  p.bits = v / 64 ^ (p.more + 1) ∧ p.low ≤ owedByte v p.more ∧ owedByte v p.more ≤ p.high

/-- The characters whose bytes begin with the piece are those that are admitted, and they
go on with the bytes that are owed. -/
structure After (piece : List UInt8) (p : Partial) : Prop where
  nonempty : piece ≠ []
  bounds : 0x80 ≤ p.low.toNat ∧ p.low.toNat ≤ p.high.toNat ∧ p.high.toNat ≤ 0xBF
  valid : ∀ v, p.Admits v → v.isValidChar
  bytes : ∀ c : Char, p.Admits c.toNat → String.utf8EncodeChar c = piece ++ owed c.toNat p.more
  admits : ∀ c : Char, piece <+: String.utf8EncodeChar c → p.Admits c.toNat

theorem after_start (h : start b = .partly p) : After [b] p := by
  have hbegins (v : Nat) (hv : p.Admits v) : Begins b v p.more := ⟨p, h, hv.1, rfl, hv.2⟩
  refine ⟨List.cons_ne_nil _ _, bounds_of_start h, fun v hv => (hbegins v hv).isValidChar,
    fun c hc => (hbegins _ hc).encodeChar, fun c hc => ?_⟩
  obtain hchar | ⟨k, p', hstart, hbits, hmore, hbounds⟩ := start_of_prefix hc
  · cases h.symm.trans hchar
  · cases h.symm.trans hstart
    subst hmore
    exact ⟨hbits, hbounds⟩

/-- Where one character ends and the next one begins is settled by the bytes. -/
theorem encodeChar_append_inj (heq : String.utf8EncodeChar c ++ rest =
    String.utf8EncodeChar c' ++ bytes) : c = c' ∧ rest = bytes := by
  have hdecoded := congrArg (decodeFrom none) heq
  rw [decodeFrom_encodeChar, decodeFrom_encodeChar] at hdecoded
  obtain ⟨rfl, -⟩ := List.cons.inj hdecoded
  exact ⟨rfl, List.append_cancel_left heq⟩

theorem encodeChar_prefix_iff : String.utf8EncodeChar c <+: String.utf8EncodeChar c' ↔ c = c' := by
  constructor
  · rintro ⟨rest, hrest⟩
    rw [← List.append_nil (String.utf8EncodeChar c')] at hrest
    exact (encodeChar_append_inj hrest).1
  · rintro rfl
    exact List.prefix_refl _

theorem owed_eq_cons (v k : Nat) : ∃ more, owed v k = owedByte v k :: more := by
  cases k with
  | zero => exact ⟨[], rfl⟩
  | succ k => exact ⟨owed v k, rfl⟩

namespace After

variable (h : After piece p)

include h

/-- Some character goes on with any byte within the bounds, and zero bits behind it. -/
theorem follow (hb : p.low ≤ b ∧ b ≤ p.high) :
    ∃ c : Char, c.toNat = (p.bits * 64 + b.toNat % 64) * 64 ^ p.more ∧
      String.utf8EncodeChar c = piece ++ owed c.toNat p.more ∧ owedByte c.toNat p.more = b := by
  obtain ⟨hlow, -, hhigh⟩ := h.bounds
  have hpos : 0 < 64 ^ p.more := Nat.pow_pos (by decide)
  generalize hv : (p.bits * 64 + b.toNat % 64) * 64 ^ p.more = v
  have hdiv : v / 64 ^ p.more = p.bits * 64 + b.toNat % 64 := by
    rw [← hv, Nat.mul_div_cancel _ hpos]
  have hbyte : owedByte v p.more = b := by
    rw [UInt8.le_iff_toNat_le, UInt8.le_iff_toNat_le] at hb
    rw [← UInt8.toNat_inj, toNat_owedByte, hdiv]
    omega
  have hadmits : p.Admits v := by
    refine ⟨?_, by rwa [hbyte]⟩
    rw [Nat.pow_succ, ← Nat.div_div_eq_div_mul, hdiv]
    omega
  obtain ⟨c, rfl⟩ := exists_char (h.valid v hadmits)
  exact ⟨c, rfl, h.bytes c hadmits, hbyte⟩

/-- A character whose bytes go on with another byte owes this byte. -/
theorem owes (hc : piece ++ [b] <+: String.utf8EncodeChar c) :
    p.Admits c.toNat ∧ owedByte c.toNat p.more = b := by
  have hadmits := h.admits c ((List.prefix_append piece [b]).trans hc)
  obtain ⟨more, howed⟩ := owed_eq_cons c.toNat p.more
  rw [h.bytes c hadmits, howed, List.prefix_append_right_inj, List.cons_prefix_cons] at hc
  exact ⟨hadmits, hc.1.symm⟩

theorem begun_append_iff : Begun (piece ++ [b]) ↔ p.low ≤ b ∧ b ≤ p.high := by
  constructor
  · rintro ⟨c, hc⟩
    obtain ⟨⟨-, hbounds⟩, rfl⟩ := h.owes hc
    exact hbounds
  · intro hb
    obtain ⟨c, -, hbytes, hbyte⟩ := h.follow hb
    obtain ⟨more, howed⟩ := owed_eq_cons c.toNat p.more
    refine ⟨c, more, ?_⟩
    rw [hbytes, howed, hbyte, List.append_assoc, List.singleton_append]

theorem begun : Begun piece := by
  have hbounds : p.low ≤ p.low ∧ p.low ≤ p.high :=
    ⟨UInt8.le_refl _, UInt8.le_iff_toNat_le.mpr h.bounds.2.1⟩
  obtain ⟨c, hc⟩ := h.begun_append_iff.mpr hbounds
  exact ⟨c, (List.prefix_append piece _).trans hc⟩

/-- The byte that is owed last completes a character. -/
theorem last (hmore : p.more = 0) (hb : p.low ≤ b ∧ b ≤ p.high) :
    String.utf8EncodeChar (Char.ofNat (p.bits * 64 + b.toNat % 64)) = piece ++ [b] := by
  obtain ⟨c, hcode, hbytes, hbyte⟩ := h.follow hb
  rw [hmore] at hcode hbytes hbyte
  rw [Nat.pow_zero, Nat.mul_one] at hcode
  rw [← hcode, Char.ofNat_toNat, hbytes, owed, hbyte]

/-- Admitted behind the byte are the codes that were admitted before and owe it. -/
theorem admits_next_iff (hmore : p.more = k + 1) (hb : p.low ≤ b ∧ b ≤ p.high) (v : Nat) :
    Partial.Admits ⟨p.bits * 64 + b.toNat % 64, 0x80, 0xBF, k⟩ v ↔
      p.Admits v ∧ owedByte v p.more = b := by
  obtain ⟨hlow, -, hhigh⟩ := h.bounds
  have hdiv : v / 64 ^ (k + 2) = v / 64 ^ (k + 1) / 64 := by
    rw [Nat.pow_succ, Nat.div_div_eq_div_mul]
  have hbyte : owedByte v (k + 1) = b ↔ v / 64 ^ (k + 1) % 64 + 128 = b.toNat := by
    rw [← UInt8.toNat_inj, toNat_owedByte]
  have howed : 0x80 ≤ owedByte v k ∧ owedByte v k ≤ 0xBF := by
    rw [le_owedByte_iff, owedByte_le_iff]
    exact ⟨Nat.le_add_left 128 _, by show _ ≤ 0xBF; omega⟩
  have hbounds := hb
  rw [UInt8.le_iff_toNat_le, UInt8.le_iff_toNat_le] at hbounds
  rw [Partial.Admits, Partial.Admits, hmore, hdiv]
  dsimp only
  rw [and_iff_left howed]
  constructor
  · intro hbits
    have howes : owedByte v (k + 1) = b := by
      rw [hbyte]
      omega
    exact ⟨⟨by omega, by rwa [howes]⟩, howes⟩
  · rintro ⟨⟨hbits, -⟩, howes⟩
    rw [hbyte] at howes
    omega

/-- A byte that is owed, but not the last one, narrows the characters that stand begun. -/
theorem next (hmore : p.more = k + 1) (hb : p.low ≤ b ∧ b ≤ p.high) :
    After (piece ++ [b]) ⟨p.bits * 64 + b.toNat % 64, 0x80, 0xBF, k⟩ where
  nonempty := List.append_ne_nil_of_left_ne_nil h.nonempty _
  bounds := ⟨Nat.le_refl 0x80, Nat.le_add_right 0x80 0x3F, Nat.le_refl 0xBF⟩
  valid v hv := h.valid v ((h.admits_next_iff hmore hb v).mp hv).1
  bytes c hc := by
    obtain ⟨hcode, hbyte⟩ := (h.admits_next_iff hmore hb _).mp hc
    rw [hmore] at hbyte
    rw [h.bytes c hcode, hmore, owed, hbyte, List.append_assoc, List.singleton_append]
  admits c hc := (h.admits_next_iff hmore hb _).mpr (h.owes hc)

/-- In front of a byte that is out of the bounds nothing longer is begun. -/
theorem length_le_of_begun (hrest : ∀ b ∈ rest.head?, ¬ (p.low ≤ b ∧ b ≤ p.high))
    {longer : List UInt8} (hfront : longer <+: piece ++ rest) (hbegun : Begun longer) :
    longer.length ≤ piece.length := by
  by_contra hlonger
  obtain ⟨more, rfl⟩ := List.prefix_of_prefix_length_le (List.prefix_append piece rest) hfront
    (by omega)
  cases more with
  | nil => simp at hlonger
  | cons b more =>
    have hbegun' : Begun (piece ++ [b]) := by
      obtain ⟨c, hc⟩ := hbegun
      have hpiece : piece ++ [b] <+: piece ++ b :: more :=
        (List.prefix_append_right_inj piece).mpr (List.prefix_append [b] more)
      exact ⟨c, hpiece.trans hc⟩
    obtain ⟨last, hlast⟩ := (List.prefix_append_right_inj piece).mp hfront
    have hhead : b ∈ rest.head? := by simp [← hlast]
    exact hrest b hhead (h.begun_append_iff.mp hbegun')

theorem broken (hrest : ∀ b ∈ rest.head?, ¬ (p.low ≤ b ∧ b ≤ p.high)) : Broken piece rest := by
  refine ⟨h.nonempty, ?_, .inl h.begun, fun longer => h.length_le_of_begun hrest⟩
  -- a character in front would be shorter than the piece, and begin another character
  intro c hfront
  have hle := h.length_le_of_begun hrest hfront ⟨c, List.prefix_refl _⟩
  obtain ⟨c', hpiece⟩ := h.begun
  have hc : String.utf8EncodeChar c <+: piece :=
    List.prefix_of_prefix_length_le hfront (List.prefix_append piece rest) hle
  obtain rfl := encodeChar_prefix_iff.mp (hc.trans hpiece)
  obtain ⟨more, howed⟩ := owed_eq_cons c.toNat p.more
  rw [h.bytes c (h.admits c hpiece), howed, List.length_append, List.length_cons] at hle
  omega

end After

theorem broken_of_invalid (h : start b = .invalid) : Broken [b] rest := by
  have hnone : ∀ longer, longer <+: b :: rest → Begun longer → longer = [] := by
    rintro (_ | ⟨b', longer⟩) hfront hbegun
    · rfl
    · obtain ⟨rfl, -⟩ := List.cons_prefix_cons.mp hfront
      exact absurd hbegun (not_begun_of_invalid h)
  refine ⟨List.cons_ne_nil b [], fun c hc => ?_, .inr rfl, fun longer hfront hbegun => ?_⟩
  · exact String.utf8EncodeChar_ne_nil (hnone _ hc ⟨c, List.prefix_refl _⟩)
  · rw [hnone longer hfront hbegun]
    exact Nat.zero_le _

/-! ## The text of bytes -/

/-- The decoder gives the text of the bytes, and of those that stand begun with the bytes
behind them: the induction is on the bytes that are left. -/
theorem decodeFrom_transcribed (bytes : List UInt8) :
    Transcribed bytes (decodeFrom none bytes) ∧
      ∀ piece p, After piece p → Transcribed (piece ++ bytes) (decodeFrom (some p) bytes) := by
  induction bytes with
  | nil =>
    refine ⟨.nil, fun piece p h => ?_⟩
    exact .broken (h.broken (by simp)) .nil
  | cons b rest ih =>
    obtain ⟨hrest, hpartial⟩ := ih
    have hresume : Transcribed (b :: rest) (resume b (decodeFrom · rest)) := by
      rw [resume]
      cases hstart : start b with
      | char c =>
        have hchar := Transcribed.char c hrest
        rwa [encodeChar_of_start hstart] at hchar
      | partly p => exact hpartial [b] p (after_start hstart)
      | invalid => exact .broken (broken_of_invalid hstart) hrest
    refine ⟨hresume, fun piece p h => ?_⟩
    rw [decodeFrom]
    by_cases hb : p.low ≤ b ∧ b ≤ p.high
    · rw [if_pos hb]
      -- the byte is the last one of a character, or leaves fewer that may come of the piece
      cases hmore : p.more with
      | zero =>
        have hchar := Transcribed.char (Char.ofNat (p.bits * 64 + b.toNat % 64)) hrest
        rwa [h.last hmore hb, List.append_assoc] at hchar
      | succ k =>
        have hnext := hpartial _ _ (h.next hmore hb)
        rwa [List.append_assoc] at hnext
    · -- the piece ends here, and the byte is looked at again as a first one
      rw [if_neg hb]
      exact .broken (h.broken (by simpa using hb)) hresume

namespace Broken

variable {piece' rest' : List UInt8}

theorem length_le (h : Broken piece rest) (h' : Broken piece' rest')
    (heq : piece ++ rest = piece' ++ rest') : piece.length ≤ piece'.length := by
  obtain hbegun | hone := h.begun
  · exact h'.longest piece ⟨rest, heq⟩ hbegun
  · rw [hone]
    exact List.length_pos_iff.mpr h'.nonempty

/-- Bytes have one broken piece in front. -/
theorem unique (h : Broken piece rest) (h' : Broken piece' rest')
    (heq : piece ++ rest = piece' ++ rest') : piece = piece' ∧ rest = rest' :=
  List.append_inj heq (Nat.le_antisymm (h.length_le h' heq) (h'.length_le h heq.symm))

end Broken

/-- Bytes have one text. -/
theorem Transcribed.unique (h : Transcribed bytes l) (h' : Transcribed bytes l') : l = l' := by
  induction h generalizing l' with
  | nil =>
    generalize hbytes : [] = bytes at h'
    cases h' with
    | nil => rfl
    | char c _ =>
      exact absurd (List.append_eq_nil_iff.mp hbytes.symm).1 String.utf8EncodeChar_ne_nil
    | broken hpiece _ => exact absurd (List.append_eq_nil_iff.mp hbytes.symm).1 hpiece.nonempty
  | @char c rest l _ ih =>
    generalize hbytes : String.utf8EncodeChar c ++ rest = bytes at h'
    cases h' with
    | nil => exact absurd (List.append_eq_nil_iff.mp hbytes).1 String.utf8EncodeChar_ne_nil
    | char c' hrest =>
      obtain ⟨rfl, rfl⟩ := encodeChar_append_inj hbytes
      rw [ih hrest]
    | broken hpiece _ => exact absurd ⟨rest, hbytes⟩ (hpiece.unread c)
  | @broken piece rest l hpiece _ ih =>
    generalize hbytes : piece ++ rest = bytes at h'
    cases h' with
    | nil => exact absurd (List.append_eq_nil_iff.mp hbytes).1 hpiece.nonempty
    | @char c rest' _ _ => exact absurd ⟨rest', hbytes.symm⟩ (hpiece.unread c)
    | broken hpiece' hrest =>
      obtain ⟨rfl, rfl⟩ := hpiece.unique hpiece' hbytes
      rw [ih hrest]

/-- **The text of any bytes.** The decoder reads the characters that are there, and one
replacement for each longest piece that is none. -/
theorem transcribed_iff : Transcribed bytes l ↔ decode bytes = l := by
  constructor
  · exact (decodeFrom_transcribed bytes).1.unique
  · rintro rfl
    exact (decodeFrom_transcribed bytes).1

theorem transcribed_encode (l : List Char) : Transcribed (encode l) l :=
  transcribed_iff.mpr (decode_encode l)

/-- From memory the bytes before the first zero byte are read. -/
theorem decodeToNul_of_transcribed (hbytes : 0 ∉ bytes) (h : Transcribed bytes l)
    (rest : List UInt8) : decodeToNul (bytes ++ 0 :: rest) = String.ofList l := by
  have htake : (bytes ++ 0 :: rest).takeWhile (· ≠ 0) = bytes := by
    rw [List.takeWhile_append_of_pos]
    · simp
    · intro b hb
      exact decide_eq_true (ne_of_mem_of_not_mem hb hbytes)
  rw [decodeToNul, htake, transcribed_iff.mp h]

end Querent.Text.Utf8
