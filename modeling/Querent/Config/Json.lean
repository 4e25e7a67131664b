import Querent.Config.Basic
import Querent.Json.Printer
import Querent.Json.Reader

/-!
# Configurations as JSON

An object with a member for each field, or an array of the fields in order. In
reading, a field that is missing has its default and members of other names
are passed over, but no field may occur twice.
-/

namespace Querent.Config

/-- The fields, in the order of their declaration. -/
def fieldNames : List String :=
  ["library", "host", "port", "user", "password", "database", "encoding"]

def optionalJson : Option String → Json
  | some s => .string s
  | none => .null

def toJson (c : Config) : Json :=
  .object [("library", .string c.library), ("host", .string c.host),
    ("port", .ofNat c.port.toNat), ("user", optionalJson c.user),
    ("password", optionalJson c.password), ("database", optionalJson c.database),
    ("encoding", .string c.encoding.name)]

def readText? : Json → Option String
  | .string s => some s
  | _ => none

def readOptional? : Json → Option (Option String)
  | .null => some none
  | .string s => some (some s)
  | _ => none

/-- A whole number without sign, fraction and exponent. -/
def readPortNumber? : Json → Option UInt16
  | .number lexeme =>
    match Decimal.nat? lexeme.toList with
    | some n => if n < 65536 then some (UInt16.ofNat n) else none
    | none => none
  | _ => none

/-- The name of an encoding, or an object with the name alone and null under it. -/
def readEncoding? : Json → Option Encoding
  | .string s => Encoding.ofName? s
  | .object [(name, .null)] => Encoding.ofName? name
  | _ => none

/-- `c` with a field set to what the JSON says. -/
def setField? (c : Config) (name : String) (j : Json) : Option Config :=
  match name with
  | "library" => (readText? j).map fun library => { c with library }
  | "host" => (readText? j).map fun host => { c with host }
  | "port" => (readPortNumber? j).map fun port => { c with port }
  | "user" => (readOptional? j).map fun user => { c with user }
  | "password" => (readOptional? j).map fun password => { c with password }
  | "database" => (readOptional? j).map fun database => { c with database }
  | "encoding" => (readEncoding? j).map fun encoding => { c with encoding }
  | _ => some c

/-- Sets fields one after the other. A field in `seen` was set before. -/
def setFields? (c : Config) (seen : List String) : List (String × Json) → Option Config
  | [] => some c
  | (name, j) :: rest =>
    if name ∈ fieldNames then
      if name ∈ seen then none
      else do
        let c ← c.setField? name j
        c.setFields? (name :: seen) rest
    else c.setFields? seen rest

def ofJson? : Json → Option Config
  | .object members => setFields? {} [] members
  | .array elements =>
    if elements.length ≤ fieldNames.length then setFields? {} [] (fieldNames.zip elements)
    else none
  | _ => none

/-- Reads the JSON text of a configuration. -/
def readJson? (s : String) : Option Config := Json.read? s >>= ofJson?

/-- The JSON text of a configuration. -/
def printJson (c : Config) : String := c.toJson.print

end Querent.Config
