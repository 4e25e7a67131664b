import Querent.Text.Hidden

/-!
# Quoted literals

A text as a literal between quotation marks, in which characters that do not
show are escaped: by a letter if they have one, else by their number.
-/

namespace Querent.Text.Literal

/-- A character as it stands in a literal. -/
def escape (c : Char) : List Char :=
  match c with
  | '\x00' => ['\\', '0']
  | '\t' => ['\\', 't']
  | '\r' => ['\\', 'r']
  | '\n' => ['\\', 'n']
  | '\\' => ['\\', '\\']
  | '"' => ['\\', '"']
  | c =>
    if isHidden c then '\\' :: 'u' :: '\x7b' :: Nat.toDigits 16 c.toNat ++ ['\x7d'] else [c]

def print (s : String) : String := String.ofList ('"' :: s.toList.flatMap escape ++ ['"'])

end Querent.Text.Literal
