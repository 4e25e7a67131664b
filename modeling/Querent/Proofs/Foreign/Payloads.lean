import Mathlib.Algebra.Ring.Nat
import Mathlib.Logic.ExistsUnique
import Querent.Foreign.Field
import Querent.Proofs.Text.Replacement

/-!
# Values in foreign memory

Each type of the table has a form in which its values stand in memory, and memory that goes
far enough holds one value of each type. A word is its eight bytes, the lowest one first; a
text is what its bytes before the first zero are read as, UTF-8 or not. What is read by a
type is the value that stands there.
-/

namespace Querent.Foreign

/-- From some address on stands a value of the type. Words are little endian, a text ends
before the first zero byte, and of bytes only zero is false; what stands behind is not read. -/
inductive StandsAt : ValueType → Memory → Value → Prop
  | nothing (m : Memory) : StandsAt .nothing m .null
  | text {bytes : List UInt8} {l : List Char} (hbytes : 0 ∉ bytes)
      (hl : Text.Utf8.Transcribed bytes l) (rest : Memory) :
      StandsAt .text (bytes ++ 0 :: rest) (.text (String.ofList l))
  | date (n : Int64) (rest : Memory) : StandsAt .date (wordBytes n.toUInt64 ++ rest) (.date n)
  | time (n : Int64) (rest : Memory) : StandsAt .time (wordBytes n.toUInt64 ++ rest) (.time n)
  | float (x : Binary64) (rest : Memory) : StandsAt .float (wordBytes x.bits ++ rest) (.float x)
  | int (n : Int64) (rest : Memory) : StandsAt .int (wordBytes n.toUInt64 ++ rest) (.int n)
  | uint (n : UInt64) (rest : Memory) : StandsAt .uint (wordBytes n ++ rest) (.uint n)
  | bool (b : UInt8) (rest : Memory) : StandsAt .bool (b :: rest) (.bool (b ≠ 0))

/-- The memory goes as far as a value of the type does. -/
def Reaches (m : Memory) : ValueType → Prop
  | .nothing => True
  | .text => 0 ∈ m
  | .bool => m ≠ []
  | .date | .time | .float | .int | .uint => 8 ≤ m.length

variable {type : ValueType} {m : Memory} {v : Value}

/-! ## The bytes of a word -/

/-- The byte of the index `i + 1` is the one of the index `i` without the lowest byte. -/
theorem div_twoTo_succ (x i : Nat) : x / twoTo (8 * (i + 1)) = x / 256 / twoTo (8 * i) := by
  have hpow : twoTo (8 * (i + 1)) = 256 * twoTo (8 * i) := by
    show 2 ^ (8 * i + 8) = 256 * 2 ^ (8 * i)
    rw [Nat.pow_add, Nat.mul_comm]
  rw [hpow, Nat.div_div_eq_div_mul]

/-- Bytes from the lowest one on make the number that they were taken from. -/
theorem foldr_bytes (n x : Nat) :
    ((List.range n).map fun i => UInt8.ofNat (x / twoTo (8 * i))).foldr
      (fun b m => b.toNat + 256 * m) 0 = x % 256 ^ n := by
  induction n generalizing x with
  | zero => simp [Nat.mod_one]
  | succ n ih =>
    have hlow : x / twoTo (8 * 0) = x := Nat.div_one x
    have hbyte : (UInt8.ofNat x).toNat = x % 256 := UInt8.toNat_ofNat'
    rw [List.range_succ_eq_map, List.map_cons, List.map_map, List.foldr_cons]
    simp only [Function.comp_def, Nat.succ_eq_add_one, div_twoTo_succ, hlow]
    rw [ih, hbyte, Nat.pow_succ', Nat.mod_mul]

/-- A word is read from its bytes, whatever stands behind them. -/
theorem word_append (w : UInt64) (rest : Memory) : word (wordBytes w ++ rest) = w := by
  have htake : (wordBytes w ++ rest).take 8 = wordBytes w :=
    List.take_left' (by simp [wordBytes])
  have hlt : w.toNat < 256 ^ 8 := w.toNat_lt
  rw [word, htake, wordBytes, foldr_bytes, Nat.mod_eq_of_lt hlt, UInt64.ofNat_toNat]

theorem foldr_lt (l : List UInt8) :
    l.foldr (fun b n => b.toNat + 256 * n) 0 < 256 ^ l.length := by
  induction l with
  | nil => exact Nat.one_pos
  | cons b l ih =>
    have hb : b.toNat < 256 := b.toNat_lt
    rw [List.foldr_cons, List.length_cons, Nat.pow_succ]
    omega

/-- Bytes are taken again from the number that they made. -/
theorem bytes_foldr (l : List UInt8) :
    ((List.range l.length).map fun i =>
      UInt8.ofNat (l.foldr (fun b n => b.toNat + 256 * n) 0 / twoTo (8 * i))) = l := by
  induction l with
  | nil => rfl
  | cons b l ih =>
    rw [List.foldr_cons, List.length_cons, List.range_succ_eq_map, List.map_cons, List.map_map]
    generalize l.foldr (fun b n => b.toNat + 256 * n) 0 = x at ih ⊢
    have hb : b.toNat < 256 := b.toNat_lt
    have hlow : (b.toNat + 256 * x) / twoTo (8 * 0) = b.toNat + 256 * x := Nat.div_one _
    have hfirst : UInt8.ofNat (b.toNat + 256 * x) = b := by
      rw [← UInt8.toNat_inj, UInt8.toNat_ofNat']
      omega
    have hnext : (b.toNat + 256 * x) / 256 = x := by omega
    simp only [Function.comp_def, Nat.succ_eq_add_one, div_twoTo_succ, hlow, hfirst, hnext, ih]

theorem wordBytes_word (h : 8 ≤ m.length) : wordBytes (word m) = m.take 8 := by
  have hlength : (m.take 8).length = 8 := List.length_take_of_le h
  have hlt := foldr_lt (m.take 8)
  rw [hlength] at hlt
  have hbytes := bytes_foldr (m.take 8)
  rw [hlength] at hbytes
  rwa [wordBytes, word, UInt64.toNat_ofNat_of_lt' hlt]

theorem exists_wordBytes (h : 8 ≤ m.length) : ∃ w rest, m = wordBytes w ++ rest :=
  ⟨word m, m.drop 8, by rw [wordBytes_word h, List.take_append_drop]⟩

theorem exists_wordBytes_signed (h : 8 ≤ m.length) :
    ∃ (n : Int64) (rest : Memory), m = wordBytes n.toUInt64 ++ rest := by
  obtain ⟨w, rest, hm⟩ := exists_wordBytes h
  exact ⟨w.toInt64, rest, by rwa [UInt64.toUInt64_toInt64]⟩

/-! ## Values that stand in memory -/

/-- The value that stands there is read. -/
theorem StandsAt.decodeAs (h : StandsAt type m v) : decodeAs m type = v := by
  cases h with
  | nothing => rfl
  | text hbytes hl rest =>
    exact congrArg Value.text (Text.Utf8.decodeToNul_of_transcribed hbytes hl rest)
  | date n rest | time n rest | int n rest =>
    simp only [Foreign.decodeAs, word_append, Int64.toInt64_toUInt64]
  | uint n rest => exact congrArg Value.uint (word_append n rest)
  | float x rest => exact congrArg (Value.float ⟨·⟩) (word_append x.bits rest)
  | bool b rest => simp [Foreign.decodeAs]

theorem StandsAt.reaches (h : StandsAt type m v) : Reaches m type := by
  cases h with
  | nothing => trivial
  | text => exact List.mem_append_right _ List.mem_cons_self
  | date | time | int | uint | float => simp [Reaches, wordBytes]
  | bool b rest => exact List.cons_ne_nil b rest

/-- Any bytes are a value of the type, if there are enough of them. -/
theorem exists_standsAt (h : Reaches m type) : ∃ v, StandsAt type m v := by
  cases type with
  | nothing => exact ⟨_, .nothing m⟩
  | text =>
    obtain ⟨bytes, rest, rfl, hbytes⟩ := List.eq_append_cons_of_mem h
    exact ⟨_, .text hbytes (Text.Utf8.transcribed_iff.mpr rfl) rest⟩
  | date =>
    obtain ⟨n, rest, rfl⟩ := exists_wordBytes_signed h
    exact ⟨_, .date n rest⟩
  | time =>
    obtain ⟨n, rest, rfl⟩ := exists_wordBytes_signed h
    exact ⟨_, .time n rest⟩
  | float =>
    obtain ⟨w, rest, rfl⟩ := exists_wordBytes h
    exact ⟨_, .float ⟨w⟩ rest⟩
  | int =>
    obtain ⟨n, rest, rfl⟩ := exists_wordBytes_signed h
    exact ⟨_, .int n rest⟩
  | uint =>
    obtain ⟨w, rest, rfl⟩ := exists_wordBytes h
    exact ⟨_, .uint w rest⟩
  | bool =>
    obtain ⟨b, rest, rfl⟩ := List.exists_cons_of_ne_nil h
    exact ⟨_, .bool b rest⟩

/-- Memory holds one value of a type if it goes far enough, and else none. -/
theorem existsUnique_standsAt : (∃! v, StandsAt type m v) ↔ Reaches m type := by
  constructor
  · rintro ⟨v, hv, -⟩
    exact hv.reaches
  · intro h
    obtain ⟨v, hv⟩ := exists_standsAt h
    exact ⟨v, hv, fun v' hv' => hv'.decodeAs.symm.trans hv.decodeAs⟩

/-- Only nothing is read as null. -/
theorem decodeAs_eq_null_iff : decodeAs m type = .null ↔ type = .nothing := by
  cases type <;> simp [decodeAs]

end Querent.Foreign
