import Querent.Foreign.Host

/-!
# Scripts of foreign libraries

A foreign library can be played back from a script: what its functions return,
and what its results hold. The script tells the results of statements, and of
each result the batches that fetching it delivers.
-/

namespace Querent.Playback

open Foreign

/-- The side that a library is for. -/
inductive Side where
  | client
  | host
  deriving DecidableEq, Repr

/-- The status of a result that is in order. -/
def Side.success : Side → Int64
  | client => 0
  | host => 1

/-- The status of a result at the end of its data. -/
def Side.ended : Side → Int64
  | client => 8
  | host => 0

/-- A field: its tag, and the bytes of its value unless the pointer is null. -/
structure RawField where
  tag : Int64
  payload : Option Memory
  deriving DecidableEq, Repr

abbrev RawRow := List RawField

/-- What a result holds at a time. -/
structure Content where
  kind : Int64
  status : Int64
  errorCode : Int32
  details : Option Memory
  report : Report
  atEnd : Int64
  /-- what opening it returns -/
  openCode : Int64
  /-- the rows at hand -/
  rows : Option (List RawRow)
  /-- the count of fields that is told in place of the true one -/
  count : Option Int64
  /-- each index past the last field gives the last field -/
  endless : Bool
  /-- a copy of its rows is null -/
  nullCopy : Bool
  deriving DecidableEq, Repr

/-- A result in order that holds nothing. -/
def Content.empty (side : Side) (kind : Int64) : Content :=
  ⟨kind, side.success, 0, none, .zero, 0, 0, none, none, false, false⟩

/-- What a fetch returns, and how it changes the result. -/
structure Step where
  code : Int64
  change : Content → Content

/-- A result: what it holds, and what the fetches to come do. -/
structure ScriptedResult where
  content : Content
  steps : List Step

/-- The end of data, where no fetch is left. -/
def ScriptedResult.exhausted (side : Side) (c : Content) : Content :=
  { c with status := side.ended, errorCode := 8, atEnd := 1, rows := none }

/-- The result after a fetch, and what the fetch returns. -/
def ScriptedResult.fetch (side : Side) (r : ScriptedResult) : Int64 × ScriptedResult :=
  match r.steps with
  | step :: rest => (step.code, ⟨step.change r.content, rest⟩)
  | [] => (8, ⟨exhausted side r.content, []⟩)

/-- What executing a statement returns, and the result that it makes. -/
structure Outcome where
  code : Int64
  result : Option ScriptedResult

/-- The functions that make an object. -/
inductive Maker where
  | connect
  | wrap
  | success
  | error
  | report
  | row
  deriving DecidableEq, Repr

def Maker.ofName? (s : String) : Option Maker :=
  match s with
  | "connect" => some connect
  | "wrap" => some wrap
  | "success" => some success
  | "error" => some error
  | "report" => some report
  | "row" => some row
  | _ => none

structure Script where
  side : Side
  outcomes : List (String × Outcome)
  connectCode : Int64
  closeCode : Int64
  explanations : List (Int64 × Memory)
  /-- the functions that make a null pointer -/
  failing : List Maker
  /-- of every row that is built -/
  capacity : Int32
  addCode : Int64
  closeRowCode : Int64

end Querent.Playback
