import Querent.Code
import Querent.Kind
import Querent.Value.Basic
import Querent.Text.Utf8

/-!
# Errors

What can go wrong between a program and the server, by cause. A failure on the
client's side has the code that the library returned; a failure on the server's
side has the code and the details of a result.
-/

namespace Querent

/-- An argument that cannot be used. -/
inductive BadArgument where
  /-- a text with a NUL, at this position in bytes, where the library needs one without -/
  | nul (position : Nat)
  | nullDatabase
  | unterminatedString
  | unterminatedStatement (rest : String)
  /-- any other, in its own words -/
  | other (reason : String)
  deriving DecidableEq, Repr

def BadArgument.message : BadArgument → String
  | nul position => s!"string contains a NUL byte at position {position}"
  | nullDatabase => "database handle is null"
  | unterminatedString => "unterminated string in statement"
  | unterminatedStatement rest => "statement not terminated by ';': " ++ rest
  | other reason => reason

/-- A configuration that cannot be used. -/
inductive BadConfig where
  | scheme (url : String)
  | port (text : String)
  /-- any other, in its own words -/
  | other (reason : String)
  deriving DecidableEq, Repr

def BadConfig.message : BadConfig → String
  | scheme url => "Unsupported URL scheme: " ++ url
  | port text => "invalid port: " ++ text
  | other reason => reason

/-- What a result was asked for that its kind does not have. -/
inductive WrongType where
  | notReport (kind : ResultKind)
  | notCursor (kind : ResultKind)
  | notRows (kind : ResultKind)
  /-- any other, in its own words -/
  | other (reason : String)
  deriving DecidableEq, Repr

def WrongType.message : WrongType → String
  | notReport kind => s!"result is {kind.name}, not a report"
  | notCursor kind => s!"result is {kind.name}, not a cursor"
  | notRows kind => s!"result is {kind.name}, not a cursor nor a row"
  | other reason => reason

/-- Why a row takes no more. -/
inductive RowFull where
  | noRoom (type : ValueType) (left : Int32)
  | cannotClose (code : Code)
  /-- any other, in its own words -/
  | other (reason : String)
  deriving DecidableEq, Repr

def RowFull.message : RowFull → String
  | noRoom type left => s!"no room for a {type.name} value ({left.toInt} bytes left)"
  | cannotClose code => s!"cannot close row (code {code.text})"
  | other reason => reason

inductive Error where
  /-- the library cannot be loaded -/
  | library (reason : String)
  | client (code : Code) (text : String)
  | server (code : Code) (details : String)
  | wrongType (what : WrongType)
  | connectionClosed
  | invalidArgument (what : BadArgument)
  | rowFull (what : RowFull)
  | config (what : BadConfig)
  | io (reason : String)
  deriving DecidableEq, Repr

namespace Error

def message : Error → String
  | library reason => "Library error: " ++ reason
  | client code text => s!"Client error {code.text}: {text}"
  | server code details => s!"{code.text}: {details}"
  | wrongType what => "Wrong result type: " ++ what.message
  | connectionClosed => "Connection closed"
  | invalidArgument what => "Invalid argument: " ++ what.message
  | rowFull what => "Row is full: " ++ what.message
  | config what => "Configuration error: " ++ what.message
  | io reason => "I/O error: " ++ reason

/-- The code of a failure of the client's or the server's side. -/
def code? : Error → Option Code
  | client code _ | server code _ => some code
  | _ => none

/-- The server's failure has this code. -/
def hasServerCode (e : Error) (c : Code) : Bool :=
  match e with
  | server code _ => code = c
  | _ => false

def isEndOfData (e : Error) : Bool := e.hasServerCode Code.endOfData

def isDuplicateKey (e : Error) : Bool := e.hasServerCode Code.duplicateKey

def isTimeout (e : Error) : Bool := e.hasServerCode Code.timeout

end Error

/-- The text as the library takes it: one without NUL. -/
def passable? (s : String) : Except Error String :=
  match Text.Utf8.nulPosition? s.toList with
  | some position => .error (.invalidArgument (.nul position))
  | none => .ok s

end Querent
