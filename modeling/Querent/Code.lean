/-!
# Status codes

The codes that results of the server carry, with their short names, and the
codes that calls of the client library return.
-/

namespace Querent

/-- A status code, as results carry it and as library calls return it. -/
abbrev Code := Int32

namespace Code

def ok : Code := 0
def noMemory : Code := 1
def invalid : Code := 2
def noResource : Code := 3
def tooBig : Code := 5
/-- End of data. It ends a cursor and is never an error. -/
def endOfData : Code := 8
def duplicateKey : Code := 27
def timeout : Code := 36
def parser : Code := 60

/-- The short name of a code of the server. -/
def name (c : Code) : String :=
  match c.toInt with
  | 0 => "ok"
  | 1 => "out of memory"
  | 2 => "invalid"
  | 3 => "no resource"
  | 4 => "busy"
  | 5 => "too big"
  | 6 | 7 => "lock"
  | 8 => "end of file"
  | 9 => "not supported"
  | 10 => "bad path"
  | 11 => "bad name"
  | 14 => "read"
  | 15 => "write"
  | 16 => "open"
  | 17 => "close"
  | 20 => "panic"
  | 21 => "catalog"
  | 22 => "time"
  | 23 => "no such scope"
  | 24 => "no such context"
  | 25 => "no such index"
  | 26 => "key not found"
  | 27 => "duplicated key"
  | 28 => "duplicated name"
  | 29 => "collision"
  | 36 => "timeout"
  | 59 => "not found"
  | 60 => "parser"
  | 64 => "protocol"
  | 65 => "socket"
  | 69 => "server"
  | 73 => "unknown symbol"
  | 74 => "user error"
  | _ => "unknown"

/-- A code in writing. -/
def text (c : Code) : String := toString c.toInt

/-! ## Codes of the client library -/

namespace Client

def ok : Code := 0
def noConnection : Code := 2
def noResult : Code := 3
def noRead : Code := 6
def noWrite : Code := 7

end Client

end Code

end Querent
