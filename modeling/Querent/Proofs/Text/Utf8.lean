import Mathlib.Algebra.Ring.Nat
import Mathlib.Tactic.SplitIfs
import Querent.Text.Utf8

/-!
# Reading UTF-8 back

The bytes of a text are read as that text. A first byte has the highest bits of its
character, says how many bytes are owed, and may narrow the next one; each byte that is
owed has six bits more. So the bits that were read are those of the code without the ones
that are still owed, and the character is through when nothing is owed.
-/

namespace Querent.Text.Utf8

theorem toNat_ofNat_of_lt {n : Nat} (h : n < 256) : (UInt8.ofNat n).toNat = n :=
  UInt8.toNat_ofNat_of_lt' h

/-- The byte of the code `v` after which `k` more are owed. -/
def owedByte (v k : Nat) : UInt8 := UInt8.ofNat (v / 64 ^ k % 64 + 128)

/-- The bytes of the code `v` that are owed, `k` after the next one. -/
def owed (v : Nat) : (k : Nat) → List UInt8
  | 0 => [owedByte v 0]
  | k + 1 => owedByte v (k + 1) :: owed v k

theorem toNat_owedByte (v k : Nat) : (owedByte v k).toNat = v / 64 ^ k % 64 + 128 := by
  rw [owedByte, UInt8.toNat_ofNat']
  omega

/-- The byte begins a character with the code `v`, and `k` are owed after the next one. -/
def Begins (b : UInt8) (v k : Nat) : Prop :=
  ∃ p : Partial, start b = .partly p ∧ p.bits = v / 64 ^ (k + 1) ∧ p.more = k ∧
    p.low ≤ owedByte v k ∧ owedByte v k ≤ p.high

variable {v k : Nat} {low high : UInt8} {rest : List UInt8}

theorem le_owedByte_iff : low ≤ owedByte v k ↔ low.toNat ≤ v / 64 ^ k % 64 + 128 := by
  rw [UInt8.le_iff_toNat_le, toNat_owedByte]

theorem owedByte_le_iff : owedByte v k ≤ high ↔ v / 64 ^ k % 64 + 128 ≤ high.toNat := by
  rw [UInt8.le_iff_toNat_le, toNat_owedByte]

/-- Six bits more: the induction is on the bytes that are owed. -/
theorem decodeFrom_owed (hlow : low ≤ owedByte v k) (hhigh : owedByte v k ≤ high) :
    decodeFrom (some ⟨v / 64 ^ (k + 1), low, high, k⟩) (owed v k ++ rest) =
      Char.ofNat v :: decodeFrom none rest := by
  induction k generalizing low high with
  | zero =>
    have hbits : v / 64 ^ 1 * 64 + (owedByte v 0).toNat % 64 = v := by
      rw [toNat_owedByte]
      omega
    rw [owed, List.singleton_append, decodeFrom, if_pos ⟨hlow, hhigh⟩]
    dsimp only
    rw [hbits]
  | succ k ih =>
    have hbits : v / 64 ^ (k + 2) * 64 + (owedByte v (k + 1)).toNat % 64 = v / 64 ^ (k + 1) := by
      rw [toNat_owedByte, Nat.pow_succ, ← Nat.div_div_eq_div_mul]
      omega
    rw [owed, List.cons_append, decodeFrom, if_pos ⟨hlow, hhigh⟩]
    dsimp only
    rw [hbits]
    refine ih ?_ ?_
    · rw [le_owedByte_iff]
      exact Nat.le_add_left 128 _
    · rw [owedByte_le_iff]
      show _ ≤ 0xBF
      omega

theorem decodeFrom_begins {b : UInt8} (h : Begins b v k) :
    decodeFrom none (b :: (owed v k ++ rest)) = Char.ofNat v :: decodeFrom none rest := by
  obtain ⟨⟨bits, low, high, more⟩, hstart, hbits, hmore, hlow, hhigh⟩ := h
  dsimp only at hbits hmore
  rw [decodeFrom, resume, hstart, hbits, hmore]
  exact decodeFrom_owed hlow hhigh

/-! ## First bytes -/

/-- What a byte begins, by its number. -/
theorem start_eq (b : UInt8) : start b =
    if b.toNat < 0x80 then .char (Char.ofNat b.toNat)
    else if b.toNat < 0xC2 then .invalid
    else if b.toNat < 0xE0 then .partly ⟨b.toNat % 32, 0x80, 0xBF, 0⟩
    else if b.toNat < 0xF0 then
      .partly ⟨b.toNat % 16, if b.toNat = 0xE0 then 0xA0 else 0x80,
        if b.toNat = 0xED then 0x9F else 0xBF, 1⟩
    else if b.toNat < 0xF5 then
      .partly ⟨b.toNat % 8, if b.toNat = 0xF0 then 0x90 else 0x80,
        if b.toNat = 0xF4 then 0x8F else 0xBF, 2⟩
    else .invalid := by
  simp only [start, UInt8.lt_iff_toNat_lt, ← UInt8.toNat_inj]
  rfl

theorem begins_two (hlo : 0x80 ≤ v) (hhi : v < 0x800) :
    Begins (UInt8.ofNat (v / 64 % 32 + 192)) v 0 := by
  have hb : (UInt8.ofNat (v / 64 % 32 + 192)).toNat = v / 64 % 32 + 192 :=
    toNat_ofNat_of_lt (by omega)
  generalize UInt8.ofNat (v / 64 % 32 + 192) = b at hb
  have hstart : start b = .partly ⟨b.toNat % 32, 0x80, 0xBF, 0⟩ := by
    rw [start_eq, if_neg (by omega), if_neg (by omega), if_pos (by omega)]
  refine ⟨_, hstart, by simp only; omega, rfl, ?_, ?_⟩
  · rw [le_owedByte_iff]
    exact Nat.le_add_left 128 _
  · rw [owedByte_le_iff]
    show _ ≤ 0xBF
    omega

/-- The codes of surrogates are excluded after the byte `0xED`. -/
theorem begins_three (hlo : 0x800 ≤ v) (hhi : v < 0x10000) (hvalid : v < 0xD800 ∨ 0xDFFF < v) :
    Begins (UInt8.ofNat (v / 4096 % 16 + 224)) v 1 := by
  have hb : (UInt8.ofNat (v / 4096 % 16 + 224)).toNat = v / 4096 % 16 + 224 :=
    toNat_ofNat_of_lt (by omega)
  generalize UInt8.ofNat (v / 4096 % 16 + 224) = b at hb
  have hstart : start b = .partly ⟨b.toNat % 16, if b.toNat = 0xE0 then 0xA0 else 0x80,
      if b.toNat = 0xED then 0x9F else 0xBF, 1⟩ := by
    rw [start_eq, if_neg (by omega), if_neg (by omega), if_neg (by omega), if_pos (by omega)]
  refine ⟨_, hstart, by simp only; omega, rfl, ?_, ?_⟩
  · rw [le_owedByte_iff]
    dsimp only
    split
    · show 0xA0 ≤ _
      omega
    · exact Nat.le_add_left 128 _
  · rw [owedByte_le_iff]
    dsimp only
    split
    · show _ ≤ 0x9F
      omega
    · show _ ≤ 0xBF
      omega

/-- The first byte `0xF4` narrows the next one to the codes that there are. -/
theorem begins_four (hlo : 0x10000 ≤ v) (hhi : v < 0x110000) :
    Begins (UInt8.ofNat (v / 262144 % 8 + 240)) v 2 := by
  have hb : (UInt8.ofNat (v / 262144 % 8 + 240)).toNat = v / 262144 % 8 + 240 :=
    toNat_ofNat_of_lt (by omega)
  generalize UInt8.ofNat (v / 262144 % 8 + 240) = b at hb
  have hstart : start b = .partly ⟨b.toNat % 8, if b.toNat = 0xF0 then 0x90 else 0x80,
      if b.toNat = 0xF4 then 0x8F else 0xBF, 2⟩ := by
    rw [start_eq, if_neg (by omega), if_neg (by omega), if_neg (by omega), if_neg (by omega),
      if_pos (by omega)]
  refine ⟨_, hstart, by simp only; omega, rfl, ?_, ?_⟩
  · rw [le_owedByte_iff]
    dsimp only
    split
    · show 0x90 ≤ _
      omega
    · exact Nat.le_add_left 128 _
  · rw [owedByte_le_iff]
    dsimp only
    split
    · show _ ≤ 0x8F
      omega
    · show _ ≤ 0xBF
      omega

/-! ## Characters and texts -/

/-- A character of ASCII is its byte; any other one has a first byte, and those that it owes. -/
theorem encodeChar_cases (c : Char) :
    (c.toNat < 128 ∧ String.utf8EncodeChar c = [UInt8.ofNat c.toNat]) ∨
      ∃ b k, Begins b c.toNat k ∧ String.utf8EncodeChar c = b :: owed c.toNat k := by
  have hvalid : c.toNat < 0xD800 ∨ 0xDFFF < c.toNat ∧ c.toNat < 0x110000 := c.valid
  have hval : c.val.toNat = c.toNat := rfl
  unfold String.utf8EncodeChar
  dsimp only
  rw [hval]
  generalize c.toNat = v at hvalid
  split_ifs with h1 h2 h3
  · exact .inl ⟨Nat.lt_succ_of_le h1, rfl⟩
  · refine .inr ⟨_, 0, begins_two (Nat.lt_of_not_le h1) (Nat.lt_succ_of_le h2), ?_⟩
    simp [owed, owedByte]
  · refine .inr ⟨_, 1, begins_three (Nat.lt_of_not_le h2) (Nat.lt_succ_of_le h3) (by omega), ?_⟩
    simp [owed, owedByte]
  · refine .inr ⟨_, 2, begins_four (Nat.lt_of_not_le h3) (by omega), ?_⟩
    simp [owed, owedByte]

theorem decodeFrom_encodeChar (c : Char) (rest : List UInt8) :
    decodeFrom none (String.utf8EncodeChar c ++ rest) = c :: decodeFrom none rest := by
  obtain ⟨hascii, hbytes⟩ | ⟨b, k, hbegins, hbytes⟩ := encodeChar_cases c
  · have hbyte : (UInt8.ofNat c.toNat).toNat = c.toNat := toNat_ofNat_of_lt (by omega)
    rw [hbytes, List.singleton_append, decodeFrom, resume, start_eq, hbyte, if_pos hascii,
      Char.ofNat_toNat]
  · rw [hbytes, List.cons_append, decodeFrom_begins hbegins, Char.ofNat_toNat]

/-- What is written as UTF-8 is read back. -/
theorem decode_encode (l : List Char) : decode (encode l) = l := by
  rw [decode]
  induction l with
  | nil => rfl
  | cons c l ih =>
    rw [encode, List.flatMap_cons, decodeFrom_encodeChar]
    exact congrArg (c :: ·) ih

/-! ## Zero bytes -/

theorem ne_zero_of_mem_owed : ∀ b ∈ owed v k, b ≠ 0 := by
  have hbyte (k : Nat) : owedByte v k ≠ 0 := by
    rw [Ne, ← UInt8.toNat_inj, toNat_owedByte]
    exact Nat.succ_ne_zero _
  induction k with
  | zero => simpa [owed] using hbyte 0
  | succ k ih => simpa [owed] using ⟨hbyte (k + 1), ih⟩

/-- Only the NUL has a zero byte. -/
theorem ne_zero_of_mem_encodeChar {c : Char} (hc : c ≠ '\x00') :
    ∀ b ∈ String.utf8EncodeChar c, b ≠ 0 := by
  obtain ⟨hascii, hbytes⟩ | ⟨b, k, ⟨p, hstart, -⟩, hbytes⟩ := encodeChar_cases c
  · have hbyte : (UInt8.ofNat c.toNat).toNat = c.toNat := toNat_ofNat_of_lt (by omega)
    rw [hbytes, List.forall_mem_singleton, Ne, ← UInt8.toNat_inj, hbyte]
    intro hzero
    exact hc (by rw [← Char.ofNat_toNat c, hzero]; rfl)
  · rw [hbytes, List.forall_mem_cons]
    refine ⟨?_, ne_zero_of_mem_owed⟩
    rintro rfl
    cases hstart

theorem ne_zero_of_mem_encode {l : List Char} (h : '\x00' ∉ l) : ∀ b ∈ encode l, b ≠ 0 := by
  intro b hb
  obtain ⟨c, hc, hbc⟩ := List.mem_flatMap.mp hb
  refine ne_zero_of_mem_encodeChar ?_ b hbc
  rintro rfl
  exact h hc

end Querent.Text.Utf8
