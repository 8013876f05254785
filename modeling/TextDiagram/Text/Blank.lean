/-!
# Blank characters

Texts are handled as lists of characters. This module fixes which characters count as blank and
how blanks are taken off the ends of a text.

Main statement: `trimStart_idem`, the start of a trimmed text needs no second pass.
-/

namespace TextDiagram

/-- One line of a diagram text, without its line break. -/
abbrev Line := List Char

namespace Text

/-- The blank characters: the white space of the Unicode standard together with the four
information separators U+001C to U+001F. -/
def isBlank (c : Char) : Bool :=
  let n := c.toNat
  (9 ≤ n && n ≤ 13) || (28 ≤ n && n ≤ 32) || n == 0x85 || n == 0xA0 || n == 0x1680 ||
    (0x2000 ≤ n && n ≤ 0x200A) || n == 0x2028 || n == 0x2029 || n == 0x202F || n == 0x205F ||
    n == 0x3000

/-- A text without the longest final run of characters that satisfy the test. -/
def dropEndWhile (p : Char → Bool) (t : List Char) : List Char :=
  (t.reverse.dropWhile p).reverse

/-- A text without its leading blanks. -/
def trimStart (t : List Char) : List Char := t.dropWhile isBlank

/-- A text without its trailing blanks. -/
def trimEnd (t : List Char) : List Char := dropEndWhile isBlank t

/-- A text without the blanks at its two ends. -/
def trim (t : List Char) : List Char := trimEnd (trimStart t)

/-- A trimmed text, or nothing when only blanks were written. -/
def trimmed? (t : List Char) : Option (List Char) :=
  let s := trim t
  if s.isEmpty then none else some s

/-! ## Elementary facts -/

theorem trim_nil : trim [] = [] := rfl

theorem trimStart_idem (t : List Char) : trimStart (trimStart t) = trimStart t := by
  unfold trimStart
  induction t with
  | nil => rfl
  | cons c r ih => by_cases h : isBlank c <;> simp [h, ih]

end Text

end TextDiagram
