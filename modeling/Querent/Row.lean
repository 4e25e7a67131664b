import Querent.Value.Text

/-!
# Rows

A row is a list of values. Its display form has semicolons between the fields,
its JSON form is an array.
-/

namespace Querent

/-- One row of values, each out of one field. -/
abbrev Row := List Value

namespace Row

def display (row : Row) : String := ";".intercalate (row.map Value.display)

def toJson (row : Row) : Json := .array (row.map Value.toJson)

/-- Equal field by field. A row that holds NaN is not even equal to itself. -/
def equals (row other : Row) : Bool :=
  row.length == other.length && (row.zip other).all fun (v, w) => v.equals w

end Row

end Querent
