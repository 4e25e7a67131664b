import Querent.Statement.TopLevel
import Querent.Text.Blank

/-!
# Column names of a select

The names of the columns that a select delivers, as far as its text tells:
the alias of a field, or the field itself.
-/

namespace Querent.Statement

open Text

/-- The columns of a statement. -/
inductive Columns where
  | named (names : List String)
  /-- all columns of a table: their names are the server's to tell -/
  | star (table : String)
  /-- not a select, or one that does not tell -/
  | unknown
  deriving DecidableEq, Repr

/-- The trimmed fields of a field list. -/
def splitFieldChars (l : List Char) : List (List Char) :=
  (cutCommas .outside l).map trim

def splitFields (s : String) : List String := (splitFieldChars s.toList).map String.ofList

/-- What follows the last `as` of `l`. Each is looked for in what follows the one
before, starting outside quotes and parentheses there. -/
def afterLastAs? (l : List Char) : Option (List Char) :=
  match h : cutKeyword? ['a', 's'] .outside false l with
  | some (_, behind) =>
    have : behind.length < l.length := by
      have := length_of_cutKeyword? h
      simp only [List.length_cons, List.length_nil] at this
      omega
    some ((afterLastAs? behind).getD behind)
  | none => none
termination_by l.length

/-- The name of a field: its alias, if it has one that is not blank. -/
def fieldNameChars (l : List Char) : List Char :=
  let field := trim l
  match afterLastAs? field with
  | some behind => if (trim behind).isEmpty then field else trim behind
  | none => field

def fieldName (s : String) : String := String.ofList (fieldNameChars s.toList)

/-- A statement without the blanks around it and the semicolons at its end. -/
def statementCore (l : List Char) : List Char :=
  trimEnd (dropEndWhile (· = ';') (trim l))

/-- The columns that a list of fields and the text after `from` tell of. -/
def columnsOf (fields : List Char) (table : List Char) : Columns :=
  match trim fields with
  | [] => .unknown
  | '*' :: _ => if table.isEmpty then .unknown else .star (String.ofList table)
  | fields => .named ((splitFieldChars fields).map fun f => String.ofList (fieldNameChars f))

/-- The columns of `select <fields> from <table> ...`. -/
def selectColumns (s : String) : Columns :=
  match cutKeyword? "select".toList .outside false (statementCore s.toList) with
  | some ([], rest) =>
    match cutKeyword? "from".toList .outside false rest with
    | some (fields, behind) => columnsOf fields (firstWord behind)
    | none => columnsOf rest []
  | _ => .unknown

end Querent.Statement
