import TextDiagram.Drawing.Pen
/-!
# Striped bars

The stripes of a bar lie on the lines `x + y = c` eight units apart, clipped to the bar.
-/

namespace TextDiagram.Pen

variable {α : Type} [Scalar α]

/-- The stripe at an offset from the upper left corner of a bar, measured along a side; none if the
bar leaves nothing of it. -/
def stripe? (bar : Rect α) (offset : α) : Option (Segment α) :=
  let startX := bar.left + Scalar.max 0 (offset - bar.height)
  let stopX := bar.left + Scalar.min offset bar.width
  if startX < stopX then
    let base := bar.bottom + bar.left + offset - bar.height
    some ⟨⟨startX, base - startX⟩, ⟨stopX, base - stopX⟩⟩
  else none

/-- The stripes of a bar from an offset on. The number bounds how many offsets are tried. -/
def stripesFrom (bar : Rect α) : Nat → α → List (Segment α)
  | 0, _ => []
  | n + 1, offset =>
    if offset < bar.width + bar.height then
      (stripe? bar offset).toList ++ stripesFrom bar n (offset + 8)
    else []

/-- All stripes of a bar. -/
def stripes (bar : Rect α) : List (Segment α) :=
  stripesFrom bar ((Scalar.ceil ((bar.width + bar.height) / 8)).toNat + 1) 0

/-- The stripes as lines in the colour of the background. -/
def drawStripes (pen : Pen) (bar : Rect α) : List (Call α) :=
  (stripes bar).map fun s =>
    pen.strokeSegment s.start s.stop pen.config.backgroundColor (pen.width 2)

end TextDiagram.Pen
