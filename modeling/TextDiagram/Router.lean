import TextDiagram.Geometry.Clip
import TextDiagram.Keyed
/-!
# Edge routes

An edge is drawn straight unless it would cross a box other than the two it joins. Otherwise it
takes a detour of three legs, the middle one beside everything that it would cross.
-/

namespace TextDiagram

/-- The boxes that edges keep clear of, with the distances they keep. -/
structure Router (α : Type) where
  obstaclePadding : α
  detourOffset : α
  boxes : List (String × Rect α)
  deriving DecidableEq, Repr

/-- The way of one edge and the boxes that made it bend. -/
structure Route (α : Type) where
  source : String
  target : String
  path : Path α
  obstacles : List String
  deriving DecidableEq, Repr

namespace Route

variable {α : Type}

/-- Whether the way bends. -/
def isDetour (r : Route α) : Bool := !r.path.corners.isEmpty

/-- The place of the label, above the middle between the two ends. -/
def labelPosition [Scalar α] (r : Route α) : Point α := r.path.ends.midpoint.lifted 10

end Route

namespace Router

variable {α : Type} [Scalar α]

/-- A router that keeps the usual distances, without boxes so far. -/
def usual : Router α := ⟨4, 20, []⟩

/-- The router with other boxes in place of its own. -/
def setBoxes (router : Router α) (boxes : List (String × Rect α)) : Router α :=
  { router with boxes := boxes }

/-- A router that keeps the usual distances from some boxes. -/
def ofBoxes (boxes : List (String × Rect α)) : Router α := usual.setBoxes boxes

/-- The padded boxes, other than those the edge joins, that the straight line meets. -/
def obstacles (router : Router α) (source target : String) (line : Segment α) :
    List (String × Rect α) :=
  router.boxes.filterMap fun (name, frame) =>
    let padded := frame.padded router.obstaclePadding
    if name = source ∨ name = target then none
    else if line.meets padded then some (name, padded)
    else none

/-- The coordinate of the middle leg beside an extent from `low` to `high`: the offset beyond the
boundary that is nearer to the start, the high one on a tie. -/
def bend (router : Router α) (start low high : α) : α :=
  if Scalar.abs (start - low) < Scalar.abs (start - high) then low - router.detourOffset
  else high + router.detourOffset

/-- The corners of a detour around some boxes. Travel that is at least as steep as wide bends
sideways. -/
def corners (router : Router α) (line : Segment α) (first : Rect α) (others : List (Rect α)) :
    List (Point α) :=
  let start := line.start
  let stop := line.stop
  if Scalar.abs (stop.x - start.x) ≤ Scalar.abs (stop.y - start.y) then
    -- Down or up beside the boxes.
    let low := Scalar.minimum first.left (others.map (·.left))
    let high := Scalar.maximum first.right (others.map (·.right))
    let x := router.bend start.x low high
    [⟨x, start.y⟩, ⟨x, stop.y⟩]
  else
    -- Across above or below the boxes.
    let low := Scalar.minimum first.top (others.map (·.top))
    let high := Scalar.maximum first.bottom (others.map (·.bottom))
    let y := router.bend start.y low high
    [⟨start.x, y⟩, ⟨stop.x, y⟩]

/-- Routes one edge along a straight line between its two boxes. -/
def route (router : Router α) (source target : String) (line : Segment α) : Route α :=
  match router.obstacles source target line with
  | [] => ⟨source, target, Path.straight line, []⟩
  | (name, first) :: others =>
    let corners := router.corners line first (others.map (·.2))
    ⟨source, target, ⟨line.start, corners, line.stop⟩, name :: others.map (·.1)⟩

end Router

end TextDiagram
