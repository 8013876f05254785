import TextDiagram.Text.Blank
/-!
# Lines of a text

A text is cut into lines at every line boundary of the Unicode standard and at the control
characters that separate records. `significantLines` keeps what a diagram reader looks at: the
trimmed lines that are neither blank nor comments.
-/

namespace TextDiagram.Text

/-- The characters that end a line. -/
def isLineBreak (c : Char) : Bool :=
  let n := c.toNat
  (10 ≤ n && n ≤ 13) || (28 ≤ n && n ≤ 30) || n == 0x85 || n == 0x2028 || n == 0x2029

/-- The lines of a text. A carriage return and the line feed after it end one line, and a break at
the very end of the text opens no further line. -/
def splitLines : List Char → List Line
  | [] => []
  | '\r' :: '\n' :: rest => [] :: splitLines rest
  | c :: rest =>
    if isLineBreak c then [] :: splitLines rest
    else
      match splitLines rest with
      | [] => [[c]]
      | line :: lines => (c :: line) :: lines

/-- A comment line starts with two percent signs. -/
def isComment (line : Line) : Bool := "%%".toList.isPrefixOf line

/-- The trimmed lines of a text that are neither blank nor comments, in order. -/
def significantLines (text : List Char) : List Line :=
  ((splitLines (trim text)).map trim).filter fun line => !(line.isEmpty || isComment line)

/-! ## Elementary facts -/

theorem isBlank_of_isLineBreak {c : Char} (h : isLineBreak c = true) : isBlank c = true := by
  simp only [isLineBreak, isBlank, Bool.or_eq_true, Bool.and_eq_true, decide_eq_true_eq,
    beq_iff_eq] at h ⊢
  omega

end TextDiagram.Text
