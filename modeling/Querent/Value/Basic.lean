import Querent.Number.Binary64
import Querent.Number.Word
import Querent.Calendar.Instant

/-!
# Field values

The eight types of a field, their tags, and the views of a value as another
type. Dates and times count nanoseconds from the start of 1970.
-/

namespace Querent

/-- The type of a field. -/
inductive ValueType where
  | nothing
  | text
  | date
  | time
  | float
  | int
  | uint
  | bool
  deriving DecidableEq, Repr

namespace ValueType

/-- The tag that stands next to a field. -/
def tag : ValueType → Int32
  | nothing => 0
  | text => 1
  | date => 2
  | time => 3
  | float => 4
  | int => 5
  | uint => 6
  | bool => 9

def ofTag? (tag : Int32) : Option ValueType :=
  match tag.toInt with
  | 0 => some nothing
  | 1 => some text
  | 2 => some date
  | 3 => some time
  | 4 => some float
  | 5 => some int
  | 6 => some uint
  | 9 => some bool
  | _ => none

def name : ValueType → String
  | nothing => "NOTHING"
  | text => "TEXT"
  | date => "DATE"
  | time => "TIME"
  | float => "FLOAT"
  | int => "INT"
  | uint => "UINT"
  | bool => "BOOL"

end ValueType

inductive Value where
  | null
  | text (s : String)
  | date (nanos : Int64)
  | time (nanos : Int64)
  | float (x : Binary64)
  | int (n : Int64)
  | uint (n : UInt64)
  | bool (b : Bool)
  deriving DecidableEq, Repr, Inhabited

namespace Value

def type : Value → ValueType
  | null => .nothing
  | text _ => .text
  | date _ => .date
  | time _ => .time
  | float _ => .float
  | int _ => .int
  | uint _ => .uint
  | bool _ => .bool

def isNull (v : Value) : Bool := v.type = .nothing

/-- Equal as values: of one type, and floating numbers as numbers. -/
def equals : Value → Value → Bool
  | float x, float y => x.equals y
  | v, w => v == w

/-- Integers that fit, truth values as 0 and 1, dates and times by their count. -/
def asInt64? : Value → Option Int64
  | int n | date n | time n => some n
  | uint n => int64? n.toNat
  | bool b => some (if b then 1 else 0)
  | _ => none

def asUInt64? : Value → Option UInt64
  | uint n => some n
  | int n => uint64? n.toInt
  | _ => none

/-- Numbers, rounded to the nearest double. -/
def asFloat? : Value → Option Binary64
  | float x => some x
  | int n => some (.ofInt n.toInt)
  | uint n => some (.ofInt n.toNat)
  | _ => none

def asText? : Value → Option String
  | text s => some s
  | _ => none

def asBool? : Value → Option Bool
  | bool b => some b
  | _ => none

/-- Seconds from the epoch and nanoseconds above them, of a date or time. -/
def asInstant? : Value → Option (Int × Nat)
  | date n | time n => Calendar.moment? n.toInt
  | _ => none

/-- The instant as a time, if its count of nanoseconds fits. -/
def timeAt? (nanos : Int) : Option Value := (int64? nanos).map time

/-- The instant as a date, if its count of nanoseconds fits. -/
def dateAt? (nanos : Int) : Option Value := (int64? nanos).map date

end Value

end Querent
