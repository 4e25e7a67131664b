import Querent.Statement.Select
import Querent.Text.Utf8

/-!
# Scanning a statement by offsets

The scans of a statement as they go over its bytes. A place is an offset in bytes, and
a part of a text is what stands between two offsets. There is no part between offsets
in the wrong order, past the end, or inside of a character, and no byte past the end:
a scan that asks for one has no answer.
-/

namespace Querent.Statement.Offsets

open Text

/-- The bytes of a text, each one as the character with its number. So what is asked of
a character is asked of a byte. -/
def bytes (l : List Char) : List Char := (Utf8.encode l).map fun b => Char.ofNat b.toNat

/-- The text between the offsets `i` and `j`. -/
def slice? (s : String) (i j : Nat) : Option String :=
  if h : i ≤ j ∧ String.Pos.Raw.IsValid s ⟨i⟩ ∧ String.Pos.Raw.IsValid s ⟨j⟩ then
    some (s.extract (s.pos ⟨i⟩ h.2.1) (s.pos ⟨j⟩ h.2.2))
  else none

example : slice? "aä" 1 3 = some "ä" ∧ slice? "aä" 1 2 = none ∧ slice? "aä" 1 4 = none := by
  decide +kernel

/-- The bytes between the offsets `i` and `j`. -/
def byteSlice? (bs : List Char) (i j : Nat) : Option (List Char) :=
  if i ≤ j ∧ j ≤ bs.length then some ((bs.drop i).take (j - i)) else none

/-- The offsets at top level of bytes, the first of which stands at the offset `i`. -/
def topLevel (n : Nesting) (i : Nat) : List Char → List Nat
  | [] => []
  | b :: rest =>
    let more := topLevel (n.step b) (i + 1) rest
    if n.isTop b then i :: more else more

/-- A letter, digit or underscore stands before the offset `i`. -/
def wordBefore (bs : List Char) (i : Nat) : Option Bool :=
  if i = 0 then some false else bs[i - 1]?.map isWordChar

/-- A letter, digit or underscore stands behind the offset `i`. -/
def wordBehind (bs : List Char) (i : Nat) : Option Bool :=
  if i = bs.length then some false else bs[i]?.map isWordChar

/-- The keyword `kw` stands at the offset `i` of `bs`, in any case of letters and as a
whole word. -/
def standsAt (kw bs : List Char) (i : Nat) : Option Bool :=
  let stop := i + kw.length
  if stop ≤ bs.length then do
    let word ← byteSlice? bs i stop
    if word.map Char.toLower = kw then
      let before ← wordBefore bs i
      if before then return false
      else return !(← wordBehind bs stop)
    else return false
  else some false

/-- The offset of the first keyword `kw`, in lower case, that stands at top level. -/
def findKeyword (s kw : String) : Option (Option Nat) :=
  let bs := bytes s.toList
  (topLevel .outside 0 bs).findM? (standsAt (bytes kw.toList) bs)

def trimmed (s : String) : String := String.ofList (trim s.toList)

/-- The fields from the offset `start` on, given the offsets at top level from there on. -/
def splitFrom (s : String) (start : Nat) : List Nat → Option (List String)
  | [] => do
    let field ← slice? s start s.utf8ByteSize
    return [trimmed field]
  | i :: offsets => do
    let b ← (bytes s.toList)[i]?
    if b = ',' then
      let field ← slice? s start i
      let fields ← splitFrom s (i + 1) offsets
      return trimmed field :: fields
    else splitFrom s start offsets

def splitFields (s : String) : Option (List String) :=
  splitFrom s 0 (topLevel .outside 0 (bytes s.toList))

theorem le_of_slice? {s t : String} {i j : Nat} (h : slice? s i j = some t) : i ≤ j := by
  unfold slice? at h
  split at h
  · next hij => exact hij.1
  · cases h

/-- The offset of the last `as` of a field from the offset `start` on, or the one found
before. Each is looked for in what follows the one before. -/
def aliasFrom (field : String) (start : Nat) (found? : Option Nat) : Option (Option Nat) :=
  match h : slice? field start field.utf8ByteSize with
  | none => none
  | some rest =>
    match findKeyword rest "as" with
    | none => none
    | some none => some found?
    | some (some i) =>
      have := le_of_slice? h
      aliasFrom field (start + i + 2) (some (start + i))
termination_by field.utf8ByteSize + 1 - start

def fieldName (s : String) : Option String := do
  let field := trimmed s
  match ← aliasFrom field 0 none with
  | some i =>
    let behind ← slice? field (i + 2) field.utf8ByteSize
    return if (trimmed behind).isEmpty then field else trimmed behind
  | none => return field

/-- The columns that the text between `select` and `from` and the table tell of. -/
def columnsOf (fields table : String) : Option Columns :=
  match trim fields.toList with
  | [] => some .unknown
  | '*' :: _ => some (if table.isEmpty then .unknown else .star table)
  | fields => do
    let parts ← splitFields (String.ofList fields)
    let names ← parts.mapM fieldName
    return .named names

/-- The columns that the text behind `select` tells of. -/
def columnsBehind (rest : String) : Option Columns := do
  match ← findKeyword rest "from" with
  | some i =>
    let behind ← slice? rest (i + 4) rest.utf8ByteSize
    let fields ← slice? rest 0 i
    columnsOf fields (String.ofList (firstWord behind.toList))
  | none => columnsOf rest ""

/-- The columns of `select <fields> from <table> ...`. -/
def selectColumns (s : String) : Option Columns := do
  let op := String.ofList (statementCore s.toList)
  if (← findKeyword op "select") = some 0 then
    let rest ← slice? op 6 op.utf8ByteSize
    columnsBehind rest
  else return .unknown

end Querent.Statement.Offsets
