/-!
# UTF-8

Texts as bytes and back. Reading accepts any bytes: what is not UTF-8 is read
as U+FFFD, one for each longest run of bytes that begins some character
without completing it, and one for each byte that begins none.
-/

namespace Querent.Text.Utf8

/-- The bytes of a text. -/
def encode (l : List Char) : List UInt8 := l.flatMap String.utf8EncodeChar

/-- Position in bytes of the first NUL of a text. -/
def nulPosition? : List Char → Option Nat
  | [] => none
  | c :: rest => if c = '\x00' then some 0 else (nulPosition? rest).map (· + c.utf8Size)

/-- The beginning of a character: the bits read so far, the bounds of the next
byte, and how many bytes are owed after that one. -/
structure Partial where
  bits : Nat
  low : UInt8
  high : UInt8
  more : Nat
  deriving DecidableEq, Repr

/-- What a first byte begins. -/
inductive Start where
  | char (c : Char)
  | partly (p : Partial)
  | invalid
  deriving DecidableEq, Repr

def start (b : UInt8) : Start :=
  if b < 0x80 then .char (Char.ofNat b.toNat)
  else if b < 0xC2 then .invalid
  else if b < 0xE0 then .partly ⟨b.toNat % 32, 0x80, 0xBF, 0⟩
  else if b < 0xF0 then
    .partly ⟨b.toNat % 16, if b = 0xE0 then 0xA0 else 0x80, if b = 0xED then 0x9F else 0xBF, 1⟩
  else if b < 0xF5 then
    .partly ⟨b.toNat % 8, if b = 0xF0 then 0x90 else 0x80, if b = 0xF4 then 0x8F else 0xBF, 2⟩
  else .invalid

/-- What stands for bytes that are no character. -/
def replacement : Char := '\uFFFD'

/-- Reads on after a byte `b` that begins a character or none. -/
def resume (b : UInt8) (read : Option Partial → List Char) : List Char :=
  match start b with
  | .char c => c :: read none
  | .partly p => read (some p)
  | .invalid => replacement :: read none

/-- Reads bytes, given the character that stands begun. -/
def decodeFrom : Option Partial → List UInt8 → List Char
  | none, [] => []
  | some _, [] => [replacement]
  | none, b :: rest => resume b (decodeFrom · rest)
  | some p, b :: rest =>
    if p.low ≤ b ∧ b ≤ p.high then
      let bits := p.bits * 64 + b.toNat % 64
      match p.more with
      | 0 => Char.ofNat bits :: decodeFrom none rest
      | more + 1 => decodeFrom (some ⟨bits, 0x80, 0xBF, more⟩) rest
    else replacement :: resume b (decodeFrom · rest)

def decode (bytes : List UInt8) : List Char := decodeFrom none bytes

/-- The text of bytes that end before the first NUL. -/
def decodeToNul (bytes : List UInt8) : String :=
  String.ofList (decode (bytes.takeWhile (· ≠ 0)))

example : decode [0x61, 0xE2, 0x82, 0xAC, 0xFF, 0xE2, 0x82, 0x62]
    = ['a', '€', '\uFFFD', '\uFFFD', 'b'] := by decide

end Querent.Text.Utf8
