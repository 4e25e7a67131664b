import Querent.Error
import Querent.Number.Text

/-!
# DB-API errors

The errors of the DB-API surface by cause, each in one of the classes that the
DB-API has for them. A call that fetches or counts may end in another way: in a
panic, which is no error that is returned, and unwinds its callers until one of
them catches it.
-/

namespace Querent.DbApi

/-- The classes of DB-API errors. -/
inductive ErrorClass where
  | warning
  /-- the binding itself rather than the database -/
  | interface
  | database
  /-- the data: invalid values, out of range -/
  | data
  /-- the operation of the database, beyond the caller's control -/
  | operational
  /-- relational integrity, such as a duplicate key -/
  | integrity
  | internal
  /-- a wrong statement, or wrong use -/
  | programming
  | notSupported
  deriving DecidableEq, Repr

namespace ErrorClass

def name : ErrorClass → String
  | warning => "Warning"
  | interface => "InterfaceError"
  | database => "DatabaseError"
  | data => "DataError"
  | operational => "OperationalError"
  | integrity => "IntegrityError"
  | internal => "InternalError"
  | programming => "ProgrammingError"
  | notSupported => "NotSupportedError"

def ofName? (s : String) : Option ErrorClass :=
  [warning, interface, database, data, operational, integrity, internal, programming,
    notSupported].find? (·.name = s)

/-- The class of a code of the server. -/
def ofCode (c : Code) : ErrorClass :=
  match c.toInt with
  | 26 | 27 | 28 | 29 => integrity
  | 4 | 6 | 7 | 14 | 15 | 16 | 17 | 36 | 64 | 65 | 69 => operational
  | 11 | 59 | 60 | 73 => programming
  | 9 => notSupported
  | 2 | 5 | 22 => data
  | 1 | 20 | 21 => internal
  | _ => database

/-- The class of a failure of the layer below. -/
def ofError : Querent.Error → ErrorClass
  | .server code _ => ofCode code
  | .client .. | .library _ | .connectionClosed | .config _ => interface
  | .io _ => operational
  | .wrongType _ => programming
  | .invalidArgument _ | .rowFull _ => data

end ErrorClass

inductive Error where
  /-- a failure of the layer below, classed by itself -/
  | failure (e : Querent.Error)
  /-- a result with an error -/
  | refused (code : Code) (details : String)
  | cannotConnect (e : Querent.Error)
  /-- the `use` of the database could not be sent -/
  | cannotSendUse (e : Querent.Error)
  | cannotUse (database : String)
  /-- the query for the columns of a table failed -/
  | cannotDescribe (e : Querent.Error)
  | describeRefused (details : String)
  | noConnection
  | notExecuted
  | noProcedures
  | tooFewParameters (given : Nat)
  | tooManyParameters (left : Nat)
  | numberRequired (conversion : Char) (type : ValueType)
  | invalidDate (year : Int) (month day : Nat)
  | invalidTimestamp (year : Int) (month day hour minute second : Nat)
  | ticksOutOfRange (ticks : Binary64)
  /-- any other, in its own words -/
  | raised (cls : ErrorClass) (text : String)
  deriving DecidableEq, Repr

namespace Error

def cls : Error → ErrorClass
  | failure e => .ofError e
  | refused code _ => .ofCode code
  | cannotConnect _ | noConnection | notExecuted => .interface
  | cannotSendUse _ | cannotDescribe _ | describeRefused _ => .database
  | cannotUse _ => .internal
  | noProcedures => .notSupported
  | tooFewParameters _ | tooManyParameters _ | numberRequired .. => .programming
  | invalidDate .. | invalidTimestamp .. | ticksOutOfRange _ => .data
  | raised cls _ => cls

def message : Error → String
  | failure e | cannotConnect e | cannotSendUse e | cannotDescribe e => e.message
  | refused _ details | describeRefused details => details
  | cannotUse database => "cannot use " ++ database
  | noConnection => "no connection"
  | notExecuted => "not executed"
  | noProcedures => "callproc is not supported, use execute"
  | tooFewParameters given => s!"not enough parameters for the statement ({given} given)"
  | tooManyParameters left => s!"not all parameters were used ({left} left)"
  | numberRequired conversion type =>
    s!"%{conversion} format: a number is required, not {type.name}"
  | invalidDate year month day => s!"invalid date {year}-{month}-{day}"
  | invalidTimestamp year month day hour minute second =>
    s!"invalid timestamp {year}-{month}-{day} {hour}:{minute}:{second}"
  | ticksOutOfRange ticks => "ticks out of range: " ++ Decimal.plain.write ticks
  | raised _ text => text

/-- Every class but warnings. -/
def isError (e : Error) : Bool := e.cls ≠ .warning

def display (e : Error) : String := e.cls.name ++ ": " ++ e.message

end Error

/-- Why a call panics. -/
inductive Panic where
  /-- a sum is no machine word -/
  | overflow
  /-- room is asked for that no allocation can have -/
  | capacity
  deriving DecidableEq, Repr

/-- How a call fails. -/
inductive Failure where
  | error (e : Error)
  | panic (p : Panic)
  deriving DecidableEq, Repr

end Querent.DbApi
