import TextDiagram.Geometry.Basic
/-!
# Connectors between boxes

Boxes that stand on a grid are joined by one straight segment between two of their sides. The
longer axis of the way from centre to centre decides which sides.
-/

namespace TextDiagram

variable {α : Type} [Scalar α]

/-- The segment between the facing sides of two boxes. -/
def Rect.connector (a b : Rect α) : Segment α :=
  let dx := b.center.x - a.center.x
  let dy := b.center.y - a.center.y
  if Scalar.abs dy < Scalar.abs dx then
    if 0 < dx then ⟨a.rightMiddle, b.leftMiddle⟩ else ⟨a.leftMiddle, b.rightMiddle⟩
  else if 0 < dy then ⟨a.bottomCenter, b.topCenter⟩
  else ⟨a.topCenter, b.bottomCenter⟩

/-- The place of a label above a connector. -/
def Segment.labelPosition (s : Segment α) : Point α := s.midpoint.lifted 10

/-- The place of a label beside the start of a connector, moved toward its other end. -/
def Segment.startLabelPosition (s : Segment α) : Point α :=
  ⟨if s.start.x < s.stop.x then s.start.x + 15 else s.start.x + -15, s.start.y - 12⟩

end TextDiagram
