import Querent.Value.Basic
import Querent.Number.Text
import Querent.Calendar.Printer
import Querent.Calendar.Reader
import Querent.Json.Basic

/-!
# Values in writing

The display form of a value, its JSON form, and the reading of dates and times.
-/

namespace Querent.Value

/-- The written form of an instant, or its count where there is no date for it. -/
def instantText (write : Int → String) (n : Int) : String :=
  match Calendar.moment? n with
  | some _ => write n
  | none => toString n

/-- The display form: texts as they are, doubles without exponents. -/
def display : Value → String
  | null => "NULL"
  | text s => s
  | date n => instantText Calendar.dateText n.toInt
  | time n => instantText Calendar.timeText n.toInt
  | float x => Decimal.plain.write x
  | int n => toString n.toInt
  | uint n => toString n.toNat
  | bool b => if b then "true" else "false"

/-- Doubles in JSON: whole numbers end in `.0`, and decimal exponents below -5
or above 15 are written as such. There is no NaN and no infinity. -/
def jsonStyle : Decimal.Style where
  tie := .even
  positional := some (-5, 16)
  pointZero := true
  nan := "null"
  infinite := fun _ => "null"

/-- The JSON form: dates and times as strings in their display form. -/
def toJson : Value → Json
  | null => .null
  | text s => .string s
  | float x => if x.isFinite then .number (jsonStyle.write x) else .null
  | int n => .ofInt n.toInt
  | uint n => .ofNat n.toNat
  | bool b => .bool b
  | v => .string v.display

/-- Reads a date. -/
def readDate? (s : String) : Option Value := Calendar.readDate? s >>= dateAt?

/-- Reads a date and time, or a date, which is its first instant. -/
def readTime? (s : String) : Option Value :=
  match Calendar.readDateTime? s with
  | some n => timeAt? n
  | none => Calendar.readDate? s >>= timeAt?

end Querent.Value
