import Querent.Json.Basic
import Querent.Number.Digits

/-!
# Parts of JSON values

Views of a JSON value as a member of a type, `none` if it is no such value.
-/

namespace Querent.Json

def int? : Json → Option Int
  | .number lexeme => Decimal.int? lexeme.toList
  | _ => none

def nat? : Json → Option Nat
  | .number lexeme => Decimal.nat? lexeme.toList
  | _ => none

/-- An integer that is written in a string. -/
def intText? : Json → Option Int
  | .string s => Decimal.int? s.toList
  | _ => none

def text? : Json → Option String
  | .string s => some s
  | _ => none

def bool? : Json → Option Bool
  | .bool b => some b
  | _ => none

def list? : Json → Option (List Json)
  | .array elements => some elements
  | _ => none

def entries? : Json → Option (List (String × Json))
  | .object members => some members
  | _ => none

/-- The elements of an array, each as `f` reads it. -/
def listOf? {α : Type} (f : Json → Option α) (j : Json) : Option (List α) :=
  j.list? >>= List.mapM f

/-- The member of that name as `f` reads it; the default if there is none. -/
def field? {α : Type} (j : Json) (name : String) (default : α) (f : Json → Option α) :
    Option α :=
  match j.get? name with
  | some v => f v
  | none => some default

/-- The member of that name as `f` reads it, if there is one. -/
def optional? {α : Type} (j : Json) (name : String) (f : Json → Option α) : Option (Option α) :=
  match j.get? name with
  | some v => (f v).map some
  | none => some none

end Querent.Json
