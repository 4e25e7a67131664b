import Querent.Error
import Querent.Number.Digits
import Querent.Text.Blank

/-!
# Client configuration

Everything needed to open a connection, with defaults, and the reading of
configurations from the environment.
-/

namespace Querent

/-- The encoding a session asks for. -/
inductive Encoding where
  /-- binary, in the byte order of the library -/
  | binary
  | text
  | littleEndian
  | bigEndian
  deriving DecidableEq, Repr, Inhabited

namespace Encoding

/-- The flags that stand for the encoding in a connect call. -/
def flags : Encoding → Int32
  | binary => 0
  | text => 1
  | littleEndian => 2
  | bigEndian => 4

def name : Encoding → String
  | binary => "binary"
  | text => "text"
  | littleEndian => "littleendian"
  | bigEndian => "bigendian"

def ofName? (s : String) : Option Encoding :=
  [binary, text, littleEndian, bigEndian].find? (·.name = s)

end Encoding

structure Config where
  /-- path or file name of the client library -/
  library : String := "libnowdbclient.so"
  host : String := "127.0.0.1"
  port : UInt16 := 55505
  user : Option String := none
  password : Option String := none
  /-- the database to use right after connecting -/
  database : Option String := none
  encoding : Encoding := .binary
  deriving DecidableEq, Repr, Inhabited

/-- The path of the library for procedures, if none is given. -/
def hostLibrary : String := "libnowdb.so"

namespace Config

/-- The address that the configuration leads to. -/
def peer (c : Config) : String := c.host ++ ":" ++ toString c.port.toNat

end Config

/-- A port as decimal digits, perhaps after a plus sign. -/
def portOfChars? (l : List Char) : Option UInt16 :=
  let digits := match l with
    | '+' :: rest => rest
    | _ => l
  match Decimal.nat? digits with
  | some n => if n < 65536 then some (UInt16.ofNat n) else none
  | none => none

/-- A port, with blanks around it. -/
def readPort (s : String) : Except Error UInt16 :=
  match portOfChars? (Text.trim s.toList) with
  | some port => .ok port
  | none => .error (.config (.port s))

/-- The variables of an environment by name. -/
abbrev Environment := String → Option String

/-- The configuration of an environment: the variables that are set, and
defaults for all else. -/
def Config.ofEnvironment (env : Environment) : Except Error Config := do
  let d : Config := {}
  let port ← match env "NOWDB_PORT" with
    | some text => readPort text
    | none => .ok d.port
  return { d with
    library := (env "NOWDB_LIBRARY").getD d.library
    host := (env "NOWDB_HOST").getD d.host
    port
    user := env "NOWDB_USER"
    password := env "NOWDB_PASSWORD"
    database := env "NOWDB_DATABASE" }

end Querent
