import Querent.Row

/-!
# Shaped rows

A fetched row in the form that the cursor is set to: a dictionary with the
names of the columns, in order and with repetitions, a tuple or a list.
-/

namespace Querent.DbApi

inductive RowFormat where
  | dict
  | tuple
  | list
  deriving DecidableEq, Repr, Inhabited

inductive ShapedRow where
  | dict (fields : List (String × Value))
  | tuple (values : List Value)
  | list (values : List Value)
  deriving DecidableEq, Repr

namespace ShapedRow

/-- The values, in order. -/
def values : ShapedRow → List Value
  | dict fields => fields.map (·.2)
  | tuple values | list values => values

/-- The value under the first column of that name. Only dictionaries have names. -/
def get? (r : ShapedRow) (name : String) : Option Value :=
  match r with
  | dict fields => (fields.find? (·.1 = name)).map (·.2)
  | _ => none

def at? (r : ShapedRow) (i : Nat) : Option Value := r.values[i]?

def length (r : ShapedRow) : Nat := r.values.length

def toJson : ShapedRow → Json
  | dict fields => .object (fields.map fun f => (f.1, f.2.toJson))
  | tuple values | list values => .array (values.map Value.toJson)

/-- The name of column `i`, `col<i>` if the description has none. -/
def columnName (description : List String) (i : Nat) : String :=
  description[i]?.getD s!"col{i}"

/-- A row in a format, with the names of a description. -/
def ofRow (format : RowFormat) (description : List String) (row : Row) : ShapedRow :=
  match format with
  | .dict => dict (row.mapIdx fun i v => (columnName description i, v))
  | .tuple => tuple row
  | .list => list row

end ShapedRow

end Querent.DbApi
