import TextDiagram.Number.Scalar
/-!
# Points, lines and rectangles

Canvas coordinates: `x` grows to the right and `y` grows downward. Everything is written for an
arbitrary scalar type.
-/

namespace TextDiagram

/-- A point of the canvas. -/
structure Point (α : Type) where
  x : α
  y : α
  deriving DecidableEq, Repr, Inhabited

/-- A straight line between two points. -/
structure Segment (α : Type) where
  start : Point α
  stop : Point α
  deriving DecidableEq, Repr, Inhabited

/-- A line through corners, from its start to its stop. -/
structure Path (α : Type) where
  start : Point α
  corners : List (Point α)
  stop : Point α
  deriving DecidableEq, Repr, Inhabited

/-- A width and a height. -/
structure Size (α : Type) where
  width : α
  height : α
  deriving DecidableEq, Repr, Inhabited

/-- A rectangle with sides parallel to the axes. -/
structure Rect (α : Type) where
  left : α
  top : α
  right : α
  bottom : α
  deriving DecidableEq, Repr, Inhabited

variable {α : Type} [Scalar α]

/-- The point halfway along a segment. -/
def Segment.midpoint (s : Segment α) : Point α :=
  ⟨(s.start.x + s.stop.x) / 2, (s.start.y + s.stop.y) / 2⟩

/-- The segment walked the other way. -/
def Segment.reversed {α : Type} (s : Segment α) : Segment α := ⟨s.stop, s.start⟩

/-- A point moved up. -/
def Point.lifted (p : Point α) (distance : α) : Point α := ⟨p.x, p.y - distance⟩

namespace Path

variable {α : Type}

/-- The path without corners along a segment. -/
def straight (s : Segment α) : Path α := ⟨s.start, [], s.stop⟩

/-- All points of the path, from end to end. -/
def points (p : Path α) : List (Point α) := p.start :: p.corners ++ [p.stop]

/-- The straight line between the two ends. -/
def ends (p : Path α) : Segment α := ⟨p.start, p.stop⟩

/-- The straight pieces of the path, in order. -/
def legs (p : Path α) : List (Segment α) :=
  (p.points.zip (p.corners ++ [p.stop])).map fun (a, b) => ⟨a, b⟩

/-- The last straight piece. -/
def lastLeg (p : Path α) : Segment α := ⟨p.corners.getLastD p.start, p.stop⟩

end Path

namespace Rect

/-- The rectangle of the given size with its upper left corner at the given point. -/
def ofSize (x y : α) (size : Size α) : Rect α := ⟨x, y, x + size.width, y + size.height⟩

/-- The square around a point that reaches `r` to each side. -/
def around (center : Point α) (r : α) : Rect α :=
  ⟨center.x - r, center.y - r, center.x + r, center.y + r⟩

/-- The extent along x. -/
def width (r : Rect α) : α := r.right - r.left

/-- The extent along y. -/
def height (r : Rect α) : α := r.bottom - r.top

/-- The middle of the rectangle. -/
def center (r : Rect α) : Point α := ⟨(r.left + r.right) / 2, (r.top + r.bottom) / 2⟩

/-- The middle of the upper side. -/
def topCenter (r : Rect α) : Point α := ⟨r.center.x, r.top⟩

/-- The middle of the lower side. -/
def bottomCenter (r : Rect α) : Point α := ⟨r.center.x, r.bottom⟩

/-- The middle of the left side. -/
def leftMiddle (r : Rect α) : Point α := ⟨r.left, r.center.y⟩

/-- The middle of the right side. -/
def rightMiddle (r : Rect α) : Point α := ⟨r.right, r.center.y⟩

/-- The rectangle with every side moved outward. -/
def padded (r : Rect α) (amount : α) : Rect α :=
  ⟨r.left - amount, r.top - amount, r.right + amount, r.bottom + amount⟩

/-- The rectangle moved as a whole. -/
def shifted (r : Rect α) (dx dy : α) : Rect α :=
  ⟨r.left + dx, r.top + dy, r.right + dx, r.bottom + dy⟩

/-- The smallest rectangle around two rectangles. -/
def union (a b : Rect α) : Rect α :=
  ⟨Scalar.min a.left b.left, Scalar.min a.top b.top, Scalar.max a.right b.right,
    Scalar.max a.bottom b.bottom⟩

end Rect

/-- The size of a canvas that holds the frames and leaves the padding free on the right and at the
bottom. -/
def canvasSize (frames : List (Rect α)) (padding : α) : Size α :=
  match frames with
  | [] => ⟨2 * padding, 2 * padding⟩
  | first :: others =>
    ⟨Scalar.maximum first.right (others.map (·.right)) + padding,
      Scalar.maximum first.bottom (others.map (·.bottom)) + padding⟩

end TextDiagram
