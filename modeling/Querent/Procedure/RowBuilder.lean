import Querent.Procedure.Basic

/-!
# Building rows

A procedure builds a row result value by value. A value is refused before the
library is asked if the row has no room for it and for the mark that ends the
row.
-/

namespace Querent

structure RowBuilder where
  result : QueryResult
  deriving DecidableEq, Repr

/-- The bytes that a row needs for a value: its type, its content, and the end
of the row. -/
def requiredCapacity : Value → Int32
  | .null | .bool _ => 3
  | .text s =>
    let n := s.utf8ByteSize + 4
    if n < 0x80000000 then Int32.ofNat n else Int32.maxValue
  | _ => 10

namespace RowBuilder

variable {σ : Type} (L : Library σ)

/-- Starts a row result. -/
def start : Action σ (Except Error RowBuilder) := do
  return (Procedure.made .row (← call L.host.makeRow)).map RowBuilder.mk

variable (b : RowBuilder)

/-- The bytes left. -/
def capacity : Action σ Int32 := call (L.host.capacity b.result.handle)

/-- There is room for the value. -/
def fits (v : Value) : Action σ Bool := do
  let capacity ← b.capacity L
  return capacity > 0 && capacity ≥ requiredCapacity v

/-- Adds a value to the row at hand. -/
def push (v : Value) : Action σ (Except Error Unit) := do
  if ← b.fits L v then
    let code ← call (L.host.add b.result.handle v)
    if code = Code.ok then return .ok ()
    else return .error (.server code s!"cannot add {v.type.name} value to row")
  else return .error (.rowFull (.noRoom v.type (← b.capacity L)))

/-- Ends the row at hand. -/
def closeRow : Action σ (Except Error Unit) := do
  let code ← call (L.host.closeRow b.result.handle)
  if code = Code.ok then return .ok ()
  else return .error (.rowFull (.cannotClose code))

/-- The result, with the rows that were ended. -/
def finish : QueryResult := b.result

def drop : Action σ Unit := b.result.drop L

end RowBuilder

end Querent
