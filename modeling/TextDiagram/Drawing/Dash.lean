import TextDiagram.Drawing.Pen
/-!
# Dashed lines

A dashed line is drawn as six units of line and four units of gap in turn; the last dash ends where
the line ends.
-/

namespace TextDiagram.Pen

variable {α : Type} [Scalar α]

/-- The dashes of a line of the given length from a position on, each from its start to its stop.
The number bounds how many there may be. -/
def dashesFrom (dash gap length : α) : Nat → α → List (α × α)
  | 0, _ => []
  | n + 1, position =>
    if position < length then
      let stop := Scalar.min (position + dash) length
      (position, stop) :: dashesFrom dash gap length n (stop + gap)
    else []

/-- The dashes of a line of the given length in pixels. There are not more than there are steps of
a dash and a gap in the line, up to rounding. -/
def dashes (scale length : α) : List (α × α) :=
  dashesFrom (6 * scale) (4 * scale) length
    ((Scalar.ceil (length / (10 * scale))).toNat + 1) 0

/-- The point of a line at a distance from its start. -/
def along (start direction : Point α) (distance : α) : Point α :=
  ⟨start.x + direction.x * distance, start.y + direction.y * distance⟩

/-- One straight piece of a dashed line; a piece of no length is not drawn. -/
def strokeDashedLeg [Trig α] (pen : Pen) (leg : Segment α) (fill : Color) (width : Int) :
    List (Call α) :=
  let a := pen.point leg.start
  let b := pen.point leg.stop
  let length := Trig.hypot (b.x - a.x) (b.y - a.y)
  if length == 0 then []
  else
    let direction : Point α := ⟨(b.x - a.x) / length, (b.y - a.y) / length⟩
    (dashes pen.factor length).map fun (position, stop) =>
      .line [along a direction position, along a direction stop] fill width

/-- A dashed path. -/
def strokeDashed [Trig α] (pen : Pen) (path : Path α) (fill : Color) (width : Int) :
    List (Call α) :=
  path.legs.flatMap fun leg => pen.strokeDashedLeg leg fill width

/-- A path that is dashed or not. -/
def stroke [Trig α] (pen : Pen) (isDashed : Bool) (path : Path α) (fill : Color) (width : Int) :
    List (Call α) :=
  if isDashed then pen.strokeDashed path fill width else pen.strokePath path fill width

end TextDiagram.Pen
