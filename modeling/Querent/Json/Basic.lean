/-!
# JSON values

Objects keep the order and the repetitions of their members. A number is kept
as it is written: what it counts for is up to the reader of the field.
-/

namespace Querent

inductive Json where
  | null
  | bool (b : Bool)
  | number (lexeme : String)
  | string (s : String)
  /-- a string, or an object with a name, that has half of a surrogate pair in it:
  grammatical, but not made of texts -/
  | halfPair
  | array (elements : List Json)
  | object (members : List (String × Json))
  deriving Repr, Inhabited

namespace Json

/-- The members of an object under one name, in order. -/
def membersNamed (members : List (String × Json)) (name : String) : List Json :=
  members.filterMap fun m => if m.1 = name then some m.2 else none

/-- The first member of that name, if `j` is an object that has one. -/
def get? (j : Json) (name : String) : Option Json :=
  match j with
  | .object members => (membersNamed members name).head?
  | _ => none

def ofInt (i : Int) : Json := .number (toString i)

def ofNat (n : Nat) : Json := .number (toString n)

end Json

end Querent
