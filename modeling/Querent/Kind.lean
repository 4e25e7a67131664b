/-!
# Kinds of results

A reply of the server is a status, a report, a row or a cursor; a tag says
which.
-/

namespace Querent

inductive ResultKind where
  | nothing
  | status
  | report
  | row
  | cursor
  | unknown (tag : Int32)
  deriving DecidableEq, Repr

namespace ResultKind

def ofTag (tag : Int32) : ResultKind :=
  match tag.toInt with
  | 0 => nothing
  | 0x21 => status
  | 0x22 => report
  | 0x23 => row
  | 0x24 => cursor
  | _ => unknown tag

def tag : ResultKind → Int32
  | nothing => 0
  | status => 0x21
  | report => 0x22
  | row => 0x23
  | cursor => 0x24
  | unknown tag => tag

/-- Rows can be read from a result of this kind. -/
def hasRows (k : ResultKind) : Bool := k = row || k = cursor

/-- The name of a kind. An unknown tag is shown as an unsigned word, in hexadecimal. -/
def name : ResultKind → String
  | nothing => "NOTHING"
  | status => "STATUS"
  | report => "REPORT"
  | row => "ROW"
  | cursor => "CURSOR"
  | unknown tag => "UNKNOWN(0x" ++ String.ofList (Nat.toDigits 16 tag.toUInt32.toNat) ++ ")"

end ResultKind

/-- The counters of a report: what was done, what failed, and the running time
in microseconds. -/
structure Report where
  affected : UInt64
  errors : UInt64
  runtime : UInt64
  deriving DecidableEq, Repr, Inhabited

/-- The report of a result that carries none. -/
def Report.zero : Report := ⟨0, 0, 0⟩

end Querent
