import TextDiagram.Drawing.Pen
/-!
# Arrowheads and crosses

The marks at the end of edges and messages. A mark is placed in pixels, from the pixel places of
the two ends of the last piece of a line.
-/

namespace TextDiagram.Pen

variable {α : Type} [Scalar α]

/-- The three points of an arrowhead at the end of a line: a tip between two wings that lean back
by a fifth of half a turn. -/
def arrowhead [Trig α] (pen : Pen) (line : Segment α) : List (Point α) :=
  let a := pen.point line.start
  let b := pen.point line.stop
  let size : α := 8 * pen.factor
  let angle := Trig.atan2 (b.y - a.y) (b.x - a.x)
  -- The wings point backward, a fifth of half a turn off the line.
  let lean : α := Trig.pi * (4 / 5)
  let wing := fun (angle : α) =>
    Point.mk (b.x + size * Trig.cos angle) (b.y + size * Trig.sin angle)
  [wing (angle + lean), b, wing (angle - lean)]

/-- A filled arrowhead. -/
def drawArrow [Trig α] (pen : Pen) (line : Segment α) (fill : Color) : Call α :=
  .polygon (pen.arrowhead line) (Paint.filled fill)

/-- An open arrowhead. -/
def drawOpenArrow [Trig α] (pen : Pen) (line : Segment α) (fill : Color) : Call α :=
  .line (pen.arrowhead line) fill (pen.width 3)

/-- A cross over a point. -/
def drawCross (pen : Pen) (center : Point α) (fill : Color) : List (Call α) :=
  let p := pen.point center
  let size : α := 5 * pen.factor
  [.line [⟨p.x - size, p.y - size⟩, ⟨p.x + size, p.y + size⟩] fill (pen.width 4),
    .line [⟨p.x - size, p.y + size⟩, ⟨p.x + size, p.y - size⟩] fill (pen.width 4)]

/-- The direction from the start of a segment to its stop, of length one; no direction at all for a
segment of no length. -/
def direction [Trig α] (line : Segment α) : Point α :=
  let dx := line.stop.x - line.start.x
  let dy := line.stop.y - line.start.y
  let length := Trig.hypot dx dy
  let length := if length == 0 then 1 else length
  ⟨dx / length, dy / length⟩

end TextDiagram.Pen
