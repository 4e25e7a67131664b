/-!
# Digits

Whole numbers in decimal and hexadecimal digits, written and read.
-/

namespace Querent.Decimal

def digitChar (d : Nat) : Char := Char.ofNat ('0'.toNat + d % 10)

/-- The last `width` decimal digits of `n`, zeros in front. -/
def lastDigits : (width n : Nat) → List Char
  | 0, _ => []
  | w + 1, n => lastDigits w (n / 10) ++ [digitChar n]

/-- The decimal digits of `n`, at least `width` of them. -/
def padded (width n : Nat) : List Char :=
  let ds := Nat.toDigits 10 n
  List.replicate (width - ds.length) '0' ++ ds

/-- The number that decimal digits stand for. -/
def value (ds : List Char) : Nat := ds.foldl (fun n c => n * 10 + (c.toNat - '0'.toNat)) 0

/-- Decimal digits, one at least, as a number. -/
def nat? (l : List Char) : Option Nat :=
  if l.isEmpty || !l.all Char.isDigit then none else some (value l)

/-- Decimal digits, perhaps after a minus sign, as a number. -/
def int? : List Char → Option Int
  | '-' :: ds => (nat? ds).map fun n => -(n : Int)
  | ds => (nat? ds).map fun n => (n : Int)

/-- Decimal digits, perhaps after a sign, as a number. -/
def signed? : List Char → Option Int
  | '+' :: ds => (nat? ds).map fun n => (n : Int)
  | l => int? l

end Querent.Decimal

namespace Querent.Hexadecimal

/-- One lower case hexadecimal digit. -/
def digitChar (n : Nat) : Char :=
  if n % 16 < 10 then Char.ofNat ('0'.toNat + n % 16) else Char.ofNat ('a'.toNat + n % 16 - 10)

def digitValue? (c : Char) : Option Nat :=
  if '0' ≤ c ∧ c ≤ '9' then some (c.toNat - '0'.toNat)
  else if 'a' ≤ c ∧ c ≤ 'f' then some (c.toNat - 'a'.toNat + 10)
  else if 'A' ≤ c ∧ c ≤ 'F' then some (c.toNat - 'A'.toNat + 10)
  else none

/-- The last `width` hexadecimal digits of `n`, zeros in front. -/
def lastDigits : (width n : Nat) → List Char
  | 0, _ => []
  | w + 1, n => lastDigits w (n / 16) ++ [digitChar n]

/-- The number of hexadecimal digits, which may be none. -/
def nat? (l : List Char) : Option Nat :=
  l.foldlM (fun n c => (digitValue? c).map (n * 16 + ·)) 0

/-- The bytes of two hexadecimal digits each. -/
def bytes? : List Char → Option (List UInt8)
  | [] => some []
  | a :: b :: rest => do
    let high ← digitValue? a
    let low ← digitValue? b
    let bytes ← bytes? rest
    return UInt8.ofNat (high * 16 + low) :: bytes
  | [_] => none

end Querent.Hexadecimal
