import Querent.DbApi.Error
import Querent.Value.Text

/-!
# Placeholders

A statement with placeholders `%s`, `%d` and `%f` is a list of tokens; values
take the places of the placeholders in order. `%%` is a percent sign, and so is
a percent sign before anything else. Values are inserted as they are, without
quotes.
-/

namespace Querent.Statement

/-- How a value is written in the place of a placeholder. -/
inductive Conversion where
  | text
  | integer
  | float
  deriving DecidableEq, Repr

def Conversion.letter : Conversion → Char
  | text => 's'
  | integer => 'd'
  | float => 'f'

def Conversion.ofLetter? (c : Char) : Option Conversion :=
  match c with
  | 's' => some text
  | 'd' => some integer
  | 'f' => some float
  | _ => none

inductive Token where
  | char (c : Char)
  /-- two percent signs, for one -/
  | percent
  | place (conv : Conversion)
  deriving DecidableEq, Repr

/-- Reads a statement as tokens from left to right. -/
def tokens : List Char → List Token
  | [] => []
  | '%' :: c :: rest =>
    if c = '%' then .percent :: tokens rest
    else match Conversion.ofLetter? c with
      | some conv => .place conv :: tokens rest
      | none => .char '%' :: tokens (c :: rest)
  | c :: rest => .char c :: tokens rest

/-- The text of a value in the place of a placeholder. -/
def Conversion.write (conv : Conversion) (v : Value) : Except DbApi.Error String :=
  match conv, v with
  | .text, v => .ok v.display
  | .integer, .int n | .integer, .date n | .integer, .time n => .ok (toString n.toInt)
  | .integer, .bool b => .ok (if b then "1" else "0")
  | .integer, .uint n => .ok (toString n.toNat)
  | .integer, .float x => .ok (toString x.toInt64Clamp.toInt)
  | .float, v =>
    match v.asFloat? with
    | some x => .ok (Decimal.withPlaces 6 x)
    | none => .error (.numberRequired 'f' v.type)
  | .integer, v => .error (.numberRequired 'd' v.type)

/-- Writes the tokens with values for the placeholders. `used` values have been
written before. -/
def fill (used : Nat) : List Token → List Value → Except DbApi.Error (List Char)
  | [], [] => .ok []
  | [], params => .error (.tooManyParameters params.length)
  | .char c :: rest, params => (fill used rest params).map (c :: ·)
  | .percent :: rest, params => (fill used rest params).map ('%' :: ·)
  | .place _ :: _, [] => .error (.tooFewParameters used)
  | .place conv :: rest, v :: params => do
    let text ← conv.write v
    let more ← fill (used + 1) rest params
    return text.toList ++ more

/-- The statement with the values in the places of its placeholders. -/
def substitute (s : String) (params : List Value) : Except DbApi.Error String :=
  (fill 0 (tokens s.toList) params).map String.ofList

end Querent.Statement
