import Querent.Json.Basic
import Querent.Number.Digits

/-!
# Reading JSON

A reader for the grammar of JSON: one value, blanks around it, and nothing
else. Blanks are the four of JSON, numbers have no leading zeros, strings hold
no control characters.
-/

namespace Querent.Json

def isBlank (c : Char) : Bool := c = ' ' || c = '\n' || c = '\t' || c = '\r'

def skipBlank (l : List Char) : List Char := l.dropWhile isBlank

/-- What a string is written with: characters, and words of UTF-16 in escapes. -/
inductive Piece where
  | char (c : Char)
  | word (w : Nat)
  deriving DecidableEq, Repr

/-- The character that a backslash and `c` stand for. -/
def shortEscape? (c : Char) : Option Char :=
  match c with
  | '"' => some '"'
  | '\\' => some '\\'
  | '/' => some '/'
  | 'b' => some '\x08'
  | 't' => some '\t'
  | 'n' => some '\n'
  | 'f' => some '\x0c'
  | 'r' => some '\r'
  | _ => none

/-- The pieces up to the closing quotation mark, and what follows it. -/
def pieces? : List Char → Option (List Piece × List Char)
  | [] => none
  | '"' :: rest => some ([], rest)
  | '\\' :: 'u' :: a :: b :: c :: d :: rest => do
    let w ← Hexadecimal.nat? [a, b, c, d]
    let (ps, rest) ← pieces? rest
    return (.word w :: ps, rest)
  | '\\' :: e :: rest => do
    let c ← shortEscape? e
    let (ps, rest) ← pieces? rest
    return (.char c :: ps, rest)
  | c :: rest =>
    if c.toNat < 0x20 || c = '\\' then none
    else do
      let (ps, rest) ← pieces? rest
      return (.char c :: ps, rest)

def isHigh (w : Nat) : Bool := 0xD800 ≤ w && w < 0xDC00

def isLow (w : Nat) : Bool := 0xDC00 ≤ w && w < 0xE000

/-- The text of the pieces; `none` if a surrogate stands without its pair. -/
def joinPieces? : List Piece → Option (List Char)
  | [] => some []
  | .char c :: rest => (joinPieces? rest).map (c :: ·)
  | .word h :: .word w :: rest =>
    if isHigh h then
      if isLow w then
        (joinPieces? rest).map (Char.ofNat (0x10000 + (h - 0xD800) * 0x400 + (w - 0xDC00)) :: ·)
      else none
    else if isLow h then none
    else (joinPieces? (.word w :: rest)).map (Char.ofNat h :: ·)
  | .word h :: rest =>
    if isHigh h || isLow h then none else (joinPieces? rest).map (Char.ofNat h :: ·)

/-- A string after its opening quotation mark, `none` inside for one that is no text. -/
def string? (l : List Char) : Option (Option String × List Char) := do
  let (ps, rest) ← pieces? l
  return ((joinPieces? ps).map String.ofList, rest)

/-- The longest prefix of digits, at least one. -/
def digits? (l : List Char) : Option (List Char × List Char) :=
  let ds := l.takeWhile Char.isDigit
  if ds.isEmpty then none else some (ds, l.dropWhile Char.isDigit)

/-- A whole number without sign: zero, or digits of which the first is not zero. -/
def natural? : List Char → Option (List Char × List Char)
  | '0' :: rest => some (['0'], rest)
  | l => digits? l

def fraction? : List Char → Option (List Char × List Char)
  | '.' :: rest => (digits? rest).map fun (ds, rest) => ('.' :: ds, rest)
  | l => some ([], l)

/-- The digits of an exponent with an optional sign. -/
def signedDigits? : List Char → Option (List Char × List Char)
  | '+' :: rest => (digits? rest).map fun (ds, rest) => ('+' :: ds, rest)
  | '-' :: rest => (digits? rest).map fun (ds, rest) => ('-' :: ds, rest)
  | l => digits? l

def exponent? : List Char → Option (List Char × List Char)
  | 'e' :: rest => (signedDigits? rest).map fun (ds, rest) => ('e' :: ds, rest)
  | 'E' :: rest => (signedDigits? rest).map fun (ds, rest) => ('E' :: ds, rest)
  | l => some ([], l)

/-- A number as it is written. -/
def number? (l : List Char) : Option (List Char × List Char) := do
  let (sign, l) := match l with
    | '-' :: rest => (['-'], rest)
    | _ => ([], l)
  let (whole, l) ← natural? l
  let (fraction, l) ← fraction? l
  let (exponent, l) ← exponent? l
  return (sign ++ whole ++ fraction ++ exponent, l)

mutual

/-- One value and what follows it. The fuel bounds the nesting and the elements. -/
def value? : Nat → List Char → Option (Json × List Char)
  | 0, _ => none
  | fuel + 1, l =>
    match skipBlank l with
    | 'n' :: 'u' :: 'l' :: 'l' :: rest => some (.null, rest)
    | 't' :: 'r' :: 'u' :: 'e' :: rest => some (.bool true, rest)
    | 'f' :: 'a' :: 'l' :: 's' :: 'e' :: rest => some (.bool false, rest)
    | '"' :: rest => (string? rest).map fun (s, rest) => (s.elim .halfPair .string, rest)
    | '[' :: rest =>
      match skipBlank rest with
      | ']' :: rest => some (.array [], rest)
      | rest => (elements? fuel rest).map fun (js, rest) => (.array js, rest)
    | '\x7b' :: rest =>
      match skipBlank rest with
      | '\x7d' :: rest => some (.object [], rest)
      | rest => (members? fuel rest).map fun (ms, rest) => (ms.elim .halfPair .object, rest)
    | rest => (number? rest).map fun (ds, rest) => (.number (String.ofList ds), rest)

/-- Elements up to the closing bracket. -/
def elements? : Nat → List Char → Option (List Json × List Char)
  | 0, _ => none
  | fuel + 1, l => do
    let (j, l) ← value? fuel l
    match skipBlank l with
    | ',' :: rest =>
      let (js, rest) ← elements? fuel rest
      return (j :: js, rest)
    | ']' :: rest => return ([j], rest)
    | _ => none

/-- Members up to the closing brace, `none` inside if a name is no text. -/
def members? : Nat → List Char → Option (Option (List (String × Json)) × List Char)
  | 0, _ => none
  | fuel + 1, l => do
    let l ← match skipBlank l with
      | '"' :: rest => some rest
      | _ => none
    let (name, l) ← string? l
    let member (j : Json) := name.map fun name => (name, j)
    let l ← match skipBlank l with
      | ':' :: rest => some rest
      | _ => none
    let (j, l) ← value? fuel l
    match skipBlank l with
    | ',' :: rest =>
      let (ms, rest) ← members? fuel rest
      return (return (← member j) :: (← ms), rest)
    | '\x7d' :: rest => return ((member j).map ([·]), rest)
    | _ => none

end

/-- Reads a whole text as one value. Every step of the reader takes a character
of the text, and each counts for two at most. -/
def read? (s : String) : Option Json := do
  let l := s.toList
  let (j, rest) ← value? (2 * l.length + 2) l
  if (skipBlank rest).isEmpty then some j else none

end Querent.Json
