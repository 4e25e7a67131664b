import Querent.Error
import Querent.Text.Blank

/-!
# Scripts

A script is a list of statements that each end with a semicolon. Between single
quotes a semicolon is text; outside of them two dashes begin a comment that
runs to the end of the line.
-/

namespace Querent.Script

open Text

/-- Where a scan stands. -/
inductive Place where
  | plain
  | quoted
  | comment
  deriving DecidableEq, Repr

/-- Scans a script. `current` holds the characters of the statement at hand in
reverse order; the answer lists the statements, not yet trimmed, and what
remains after the last semicolon, with the place where the scan ends. -/
def scan : Place → (current : List Char) → List Char → List (List Char) × List Char × Place
  | place, current, [] => ([], current.reverse, place)
  | .comment, current, c :: rest =>
    if c = '\n' then scan .plain ('\n' :: current) rest else scan .comment current rest
  | .quoted, current, c :: rest =>
    scan (if c = '\'' then .plain else .quoted) (c :: current) rest
  | .plain, current, c :: rest =>
    if c = '\'' then scan .quoted (c :: current) rest
    else if c = '-' ∧ rest.head? = some '-' then scan .comment current rest
    else if c = ';' then
      let (statements, last) := scan .plain [] rest
      (current.reverse :: statements, last)
    else scan .plain (c :: current) rest

/-- The statements of a script, trimmed, without those that are blank. -/
def statements (script : String) : Except Error (List String) :=
  let (parts, rest, place) := scan .plain [] script.toList
  let trimmed := parts.map trim |>.filter (!·.isEmpty)
  if place = .quoted then .error (.invalidArgument .unterminatedString)
  else
    let rest := trim rest
    if rest.isEmpty then .ok (trimmed.map String.ofList)
    else .error (.invalidArgument (.unterminatedStatement (String.ofList rest)))

end Querent.Script
