/-!
# Blank characters

The white space of Unicode (the property `White_Space`), and what depends on
it: trimming a text and finding its first word.
-/

namespace Querent.Text

/-- A character with the Unicode property `White_Space`. -/
def isBlank (c : Char) : Bool :=
  let n := c.toNat
  (9 ≤ n && n ≤ 13) || n == 0x20 || n == 0x85 || n == 0xA0 || n == 0x1680 ||
    (0x2000 ≤ n && n ≤ 0x200A) || n == 0x2028 || n == 0x2029 || n == 0x202F ||
    n == 0x205F || n == 0x3000

/-- `l` without the longest suffix of characters that satisfy `p`. -/
def dropEndWhile (p : Char → Bool) (l : List Char) : List Char :=
  (l.reverse.dropWhile p).reverse

def trimStart (l : List Char) : List Char := l.dropWhile isBlank

def trimEnd (l : List Char) : List Char := dropEndWhile isBlank l

/-- `l` without the blanks at either end. -/
def trim (l : List Char) : List Char := trimEnd (trimStart l)

/-- The first maximal run of non-blank characters, empty if there is none. -/
def firstWord (l : List Char) : List Char := (trimStart l).takeWhile (!isBlank ·)

example : isBlank '\x0c' = true ∧ isBlank '\u00a0' = true ∧ isBlank '\u200b' = false := by decide

end Querent.Text
