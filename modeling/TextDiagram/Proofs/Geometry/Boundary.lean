import Mathlib.Tactic.Linarith
import TextDiagram.Geometry.Connector
import TextDiagram.Placement
import TextDiagram.Router
/-!
# Lines that start and stop on boundaries

The lines of edges and the connectors of boxes run between middles of sides, and a route keeps the
ends of its line. In exact arithmetic the middle of a side lies on the boundary of a rectangle whose
sides are in order.

Main statements:

* `Rect.connector_mem_sideMiddles`, `Rect.anchors_mem_sideMiddles`: both ends are middles of sides.
* `Rect.Valid.onBoundary`: the middles of the sides lie on the boundary.
* `Router.ends_route`: a detour has the ends of the straight line.
-/

namespace TextDiagram

namespace Rect

/-- The left side is not right of the right one, and the upper side not below the lower one. -/
structure Valid (r : Rect Rat) : Prop where
  width : r.left ≤ r.right
  height : r.top ≤ r.bottom

/-- The point lies on one of the four sides. -/
def OnBoundary (r : Rect Rat) (p : Point Rat) : Prop :=
  (r.left ≤ p.x ∧ p.x ≤ r.right ∧ (p.y = r.top ∨ p.y = r.bottom)) ∨
    (r.top ≤ p.y ∧ p.y ≤ r.bottom ∧ (p.x = r.left ∨ p.x = r.right))

theorem valid_ofSize (x y : Rat) {size : Size Rat} (hwidth : 0 ≤ size.width)
    (hheight : 0 ≤ size.height) : (ofSize x y size).Valid := by
  constructor
  · simp only [ofSize]
    linarith
  · simp only [ofSize]
    linarith

theorem Valid.shifted {r : Rect Rat} (h : r.Valid) (dx dy : Rat) : (r.shifted dx dy).Valid := by
  have hwidth := h.width
  have hheight := h.height
  constructor
  · simp only [Rect.shifted]
    linarith
  · simp only [Rect.shifted]
    linarith

theorem Valid.center_x {r : Rect Rat} (h : r.Valid) :
    r.left ≤ r.center.x ∧ r.center.x ≤ r.right := by
  have hwidth := h.width
  simp only [center]
  constructor <;> linarith

theorem Valid.center_y {r : Rect Rat} (h : r.Valid) :
    r.top ≤ r.center.y ∧ r.center.y ≤ r.bottom := by
  have hheight := h.height
  simp only [center]
  constructor <;> linarith

/-- The middles of the four sides. -/
def sideMiddles {α : Type} [Scalar α] (r : Rect α) : List (Point α) :=
  [r.topCenter, r.bottomCenter, r.leftMiddle, r.rightMiddle]

/-- The middle of a side lies on the boundary. -/
theorem Valid.onBoundary {r : Rect Rat} (h : r.Valid) {p : Point Rat} (hp : p ∈ r.sideMiddles) :
    r.OnBoundary p := by
  simp only [sideMiddles, List.mem_cons, List.not_mem_nil, or_false] at hp
  -- Top, bottom, left and right.
  rcases hp with rfl | rfl | rfl | rfl
  · exact Or.inl ⟨h.center_x.1, h.center_x.2, Or.inl rfl⟩
  · exact Or.inl ⟨h.center_x.1, h.center_x.2, Or.inr rfl⟩
  · exact Or.inr ⟨h.center_y.1, h.center_y.2, Or.inl rfl⟩
  · exact Or.inr ⟨h.center_y.1, h.center_y.2, Or.inr rfl⟩

section

variable {α : Type} [Scalar α] (a b : Rect α)

/-- A connector runs from the middle of a side to the middle of a side. -/
theorem connector_mem_sideMiddles :
    (a.connector b).start ∈ a.sideMiddles ∧ (a.connector b).stop ∈ b.sideMiddles := by
  simp only [connector]
  split <;> split <;> simp [sideMiddles]

/-- So does the line of an edge, whatever the direction. -/
theorem anchors_mem_sideMiddles (grid : CellGrid α) :
    (grid.anchors a b).start ∈ a.sideMiddles ∧ (grid.anchors a b).stop ∈ b.sideMiddles := by
  unfold CellGrid.anchors
  split <;> simp [sideMiddles]

end

end Rect

/-- A route starts and stops where its straight line does. -/
theorem Router.ends_route {α : Type} [Scalar α] (router : Router α) (source target : String)
    (line : Segment α) : (router.route source target line).path.ends = line := by
  unfold route
  split <;> rfl

end TextDiagram
