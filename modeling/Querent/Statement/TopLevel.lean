/-!
# The top level of a statement

A position of a text is at top level if it is outside single quotes and outside
parentheses. Quotes count inside parentheses, parentheses do not count inside
quotes, and a closing parenthesis without an opening one is passed over.
-/

namespace Querent.Statement

/-- How deep a scan is in parentheses, and whether it is in quotes. -/
structure Nesting where
  depth : Nat
  quoted : Bool
  deriving DecidableEq, Repr

namespace Nesting

/-- Outside of everything. -/
def outside : Nesting := ⟨0, false⟩

/-- The nesting after the character `c`. -/
def step (n : Nesting) (c : Char) : Nesting :=
  if c = '\'' then { n with quoted := !n.quoted }
  else if n.quoted then n
  else if c = '(' then { n with depth := n.depth + 1 }
  else if c = ')' then { n with depth := n.depth - 1 }
  else n

/-- The character `c` met at this nesting is at top level. Quotes and
parentheses that count are not. -/
def isTop (n : Nesting) (c : Char) : Bool :=
  !n.quoted && n.depth == 0 && c != '\'' && c != '(' && c != ')'

/-- The nesting after a text. -/
def after (n : Nesting) (l : List Char) : Nesting := l.foldl step n

end Nesting

/-- A text that ends outside of quotes and parentheses if it starts there. -/
def IsClosed (l : List Char) : Prop := Nesting.outside.after l = Nesting.outside

/-- Letters and digits of ASCII and the underscore. -/
def isWordChar (c : Char) : Bool := c.isAlphanum || c = '_'

/-- What follows the keyword `kw` at the front of `l`, in any case of letters. -/
def dropKeyword? : (kw l : List Char) → Option (List Char)
  | [], l => some l
  | _ :: _, [] => none
  | k :: kw, c :: l => if c.toLower = k then dropKeyword? kw l else none

/-- The keyword `kw`, in lower case, as a whole word at the front of `l`: what
follows it. -/
def wholeWord? (kw : List Char) (afterWord : Bool) (l : List Char) : Option (List Char) :=
  if afterWord then none
  else match dropKeyword? kw l with
    | some rest => if rest.head?.any isWordChar then none else some rest
    | none => none

/-- Cuts `l` around the first whole word `kw` at top level. `afterWord` says
that a letter, digit or underscore stands before `l`. -/
def cutKeyword? (kw : List Char) (n : Nesting) (afterWord : Bool) :
    List Char → Option (List Char × List Char)
  | [] => none
  | c :: rest =>
    let here := if n.isTop c then wholeWord? kw afterWord (c :: rest) else none
    match here with
    | some tail => some ([], tail)
    | none => (cutKeyword? kw (n.step c) (isWordChar c) rest).map fun (a, b) => (c :: a, b)

/-- The parts of `l` between the commas at top level. -/
def cutCommas (n : Nesting) : List Char → List (List Char)
  | [] => [[]]
  | c :: rest =>
    let parts := cutCommas (n.step c) rest
    if c = ',' ∧ n.isTop c then [] :: parts
    else match parts with
      | first :: more => (c :: first) :: more
      | [] => [[c]]

theorem length_le_of_dropKeyword? {kw l rest : List Char} (h : dropKeyword? kw l = some rest) :
    rest.length + kw.length = l.length := by
  induction kw generalizing l with
  | nil => simp_all [dropKeyword?]
  | cons k kw ih =>
    cases l with
    | nil => simp [dropKeyword?] at h
    | cons c l =>
      simp only [dropKeyword?] at h
      split at h
      · have := ih h
        simp only [List.length_cons]
        omega
      · simp at h

theorem dropKeyword?_of_wholeWord? {kw l rest : List Char} {w : Bool}
    (h : wholeWord? kw w l = some rest) : dropKeyword? kw l = some rest := by
  unfold wholeWord? at h
  split at h
  · simp at h
  · split at h
    · next heq =>
      split at h
      · simp at h
      · rw [heq, h]
    · simp at h

/-- A cut loses the keyword and nothing else. -/
theorem length_of_cutKeyword? {kw l before behind : List Char} {n : Nesting} {w : Bool}
    (h : cutKeyword? kw n w l = some (before, behind)) :
    before.length + kw.length + behind.length = l.length := by
  induction l generalizing n w before with
  | nil => simp [cutKeyword?] at h
  | cons c rest ih =>
    simp only [cutKeyword?] at h
    split at h
    · next tail heq =>
      obtain ⟨rfl, rfl⟩ := by simpa using h
      split at heq
      · have := length_le_of_dropKeyword? (dropKeyword?_of_wholeWord? heq)
        simp only [List.length_nil]
        omega
      · simp at heq
    · obtain ⟨⟨a, b⟩, hab, he⟩ := Option.map_eq_some_iff.1 h
      obtain ⟨rfl, rfl⟩ := by simpa using he
      have := ih hab
      simp only [List.length_cons]
      omega

end Querent.Statement
