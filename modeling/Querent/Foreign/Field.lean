import Querent.Text.Utf8
import Querent.Value.Basic

/-!
# Fields in foreign memory

A foreign library gives a field as a pointer and a type tag. What a pointer
leads to is modelled as the bytes from there on. Words are little endian; a text
ends at the first zero byte.
-/

namespace Querent.Foreign

/-- The bytes from an address on, as far as they may be read. -/
abbrev Memory := List UInt8

/-- The word of the first eight bytes. -/
def word (m : Memory) : UInt64 :=
  UInt64.ofNat ((m.take 8).foldr (fun b n => b.toNat + 256 * n) 0)

/-- The eight bytes of a word. -/
def wordBytes (w : UInt64) : Memory :=
  (List.range 8).map fun i => UInt8.ofNat (w.toNat / twoTo (8 * i))

/-- The value of a type that the bytes hold. -/
def decodeAs (m : Memory) : ValueType → Value
  | .nothing => .null
  | .text => .text (Text.Utf8.decodeToNul m)
  | .date => .date (word m).toInt64
  | .time => .time (word m).toInt64
  | .float => .float ⟨word m⟩
  | .int => .int (word m).toInt64
  | .uint => .uint (word m)
  | .bool => .bool (m.head?.any (· ≠ 0))

/-- The value of a field. A null pointer and a tag that is not known are null.
The tag is cut to 32 bits before it is looked up. -/
def decodeField (pointer : Option Memory) (tag : Int64) : Value :=
  match pointer with
  | none => .null
  | some m =>
    match ValueType.ofTag? tag.toInt32 with
    | some type => decodeAs m type
    | none => .null

/-- The most fields that probing counts. -/
def maxProbed : Nat := 4096

/-- Counts fields by asking for one after the other, from `i` on, until there is
no pointer; `left` more are asked for. -/
def probe {σ : Type} (field : Nat → StateM σ (Option Memory × Int64)) :
    (left i : Nat) → StateM σ Nat
  | 0, i => return i
  | left + 1, i => do
    match ← field i with
    | (some _, _) => probe field left (i + 1)
    | (none, _) => return i

/-- The count of fields that a library gives, or that probing gives if it has no
call for it. A negative count is none. -/
def countFields {σ : Type} (count : Option (StateM σ Int64))
    (field : Nat → StateM σ (Option Memory × Int64)) : StateM σ Nat :=
  match count with
  | some count => return (← count).toInt.toNat
  | none => probe field maxProbed 0

end Querent.Foreign
