/-!
# Splitting at a separator

A text cut at the first or at the last of its separators, the separator itself
left out.
-/

namespace Querent.Text

/-- The parts before and after the first `sep`. -/
def splitFirst? (sep : Char) : List Char → Option (List Char × List Char)
  | [] => none
  | c :: rest =>
    if c = sep then some ([], rest)
    else (splitFirst? sep rest).map fun (a, b) => (c :: a, b)

/-- The parts before and after the last `sep`. -/
def splitLast? (sep : Char) : List Char → Option (List Char × List Char)
  | [] => none
  | c :: rest =>
    match splitLast? sep rest with
    | some (a, b) => some (c :: a, b)
    | none => if c = sep then some ([], rest) else none

/-- What follows `start` at the front of `l`. -/
def dropStart? : (start l : List Char) → Option (List Char)
  | [], l => some l
  | _ :: _, [] => none
  | s :: start, c :: l => if s = c then dropStart? start l else none

end Querent.Text
