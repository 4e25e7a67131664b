/-!
# The level of the DB-API

What the DB-API asks a module to tell about itself.
-/

namespace Querent.DbApi

/-- The version of the interface. -/
def apiLevel : String := "2.0"

/-- Threads may share the module and connections. -/
def threadSafety : Nat := 2

/-- Placeholders are written as in format strings: `%s`, `%d`, `%f`. -/
def parameterStyle : String := "format"

/-- The type code of every column in a description: the types are not known. -/
def unknownType : Int32 := 0

end Querent.DbApi
