import Querent.Json.Basic
import Querent.Number.Digits

/-!
# Writing JSON

The compact form: no blanks, members in order. In strings the quotation mark,
the backslash and the control characters below U+0020 are escaped, and nothing
else.
-/

namespace Querent.Json

/-- A character as it stands in a string. -/
def escape (c : Char) : List Char :=
  match c with
  | '"' => ['\\', '"']
  | '\\' => ['\\', '\\']
  | '\x08' => ['\\', 'b']
  | '\t' => ['\\', 't']
  | '\n' => ['\\', 'n']
  | '\x0c' => ['\\', 'f']
  | '\r' => ['\\', 'r']
  | c =>
    if c.toNat < 0x20 then '\\' :: 'u' :: Hexadecimal.lastDigits 4 c.toNat
    else [c]

def quoted (s : String) : List Char := '"' :: s.toList.flatMap escape ++ ['"']

mutual

def chars : Json → List Char
  | .null => "null".toList
  | .bool b => (if b then "true" else "false").toList
  | .number lexeme => lexeme.toList
  | .string s => quoted s
  | .halfPair => "\"\\ud800\"".toList
  | .array elements => '[' :: elementChars elements ++ [']']
  | .object members => '\x7b' :: memberChars members ++ ['\x7d']

/-- The elements of an array with commas between them. -/
def elementChars : List Json → List Char
  | [] => []
  | [j] => chars j
  | j :: rest => chars j ++ ',' :: elementChars rest

/-- The members of an object with commas between them. -/
def memberChars : List (String × Json) → List Char
  | [] => []
  | [(name, j)] => quoted name ++ ':' :: chars j
  | (name, j) :: rest => quoted name ++ ':' :: chars j ++ ',' :: memberChars rest

end

/-- The text of a value, without blanks. -/
def print (j : Json) : String := String.ofList (chars j)

end Querent.Json
