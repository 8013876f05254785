import TextDiagram.Geometry.Basic
/-!
# Meeting of a segment and a rectangle

The points of a segment are `start + t * (stop - start)` for `t` from zero to one. Each side of the
rectangle bounds `t` from one end, and the segment meets the rectangle when some `t` satisfies all
four bounds.
-/

namespace TextDiagram.Segment

variable {α : Type} [Scalar α]

/-- An interval of the parameter, from the first number to the second. -/
abbrev Span (α : Type) := α × α

/-- The part of an interval on which `p * t ≤ q` holds; nothing when no point is left. -/
def clip (p q : α) (span : Span α) : Option (Span α) :=
  -- A segment along this side is on one side of it for all `t`.
  if p == 0 then if q < 0 then none else some span
  else
    let t := q / p
    if p < 0 then if span.2 < t then none else some (Scalar.max span.1 t, span.2)
    else if t < span.1 then none
    else some (span.1, Scalar.min span.2 t)

/-- The parameters of the segment's points inside the rectangle. -/
def spanWithin? (s : Segment α) (r : Rect α) : Option (Span α) :=
  let dx := s.stop.x - s.start.x
  let dy := s.stop.y - s.start.y
  (clip (-dx) (s.start.x - r.left) (0, 1)).bind fun span =>
  (clip dx (r.right - s.start.x) span).bind fun span =>
  (clip (-dy) (s.start.y - r.top) span).bind fun span =>
  clip dy (r.bottom - s.start.y) span

/-- Whether the segment has a point in the rectangle. -/
def meets (s : Segment α) (r : Rect α) : Bool :=
  match spanWithin? s r with
  | some span => span.1 ≤ span.2
  | none => false

end TextDiagram.Segment
