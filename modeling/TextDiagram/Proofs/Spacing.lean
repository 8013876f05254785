import Mathlib.Data.Rat.Cast.Order
import Mathlib.Tactic.Linarith
import TextDiagram.Proofs.Geometry.Axis
import TextDiagram.Proofs.Placement
/-!
# Room between placed nodes

Two nodes of a placed graph stand in different cells, so their cells have different numbers on one
of the axes. A frame that is not larger than its cell leaves the spacing free on that axis.

Main statements:

* `Rect.Apart.beside`: what is apart but at the height of a point is left or right of it.
* `CellGrid.slot_ne`: different places are different cells.
* `CellGrid.high_add_spacing_le_low`: the spacing is free between an earlier and a later cell.
* `CellGrid.apart_of_mem_nodes_place`: the frames of two nodes leave the spacing free.
-/

namespace TextDiagram

/-! ## Rectangles with a gap between them -/

namespace Rect

/-- On one of the axes the rectangles leave the extent of the gap between them. -/
def Apart (a b : Rect Rat) (gap : Size Rat) : Prop :=
  ∃ axis : Axis, axis.high a + axis.extent gap ≤ axis.low b ∨
    axis.high b + axis.extent gap ≤ axis.low a

namespace Apart

variable {a b : Rect Rat} {gap : Size Rat}

theorem shifted (h : a.Apart b gap) (dx dy : Rat) :
    (a.shifted dx dy).Apart (b.shifted dx dy) gap := by
  rcases h with ⟨axis, h⟩
  refine ⟨axis, ?_⟩
  rw [Axis.low_shifted, Axis.high_shifted, Axis.low_shifted, Axis.high_shifted]
  rcases h with h | h
  · left
    linarith
  · right
    linarith

/-- If a rectangle reaches on one axis to a point of another one, up to less than the gap, then it
leaves the gap between itself and the point on the axis across. -/
theorem beside (h : a.Apart b gap) {p : Point Rat} (hp : b.Covers p) {axis : Axis} {pad : Rat}
    (hroom : pad < axis.other.extent gap) (hlow : axis.other.low a - pad ≤ axis.other.coord p)
    (hhigh : axis.other.coord p ≤ axis.other.high a + pad) :
    axis.high a + axis.extent gap ≤ axis.coord p ∨
      axis.coord p + axis.extent gap ≤ axis.low a := by
  rcases h with ⟨found, h⟩
  have hcovers := Axis.covers_iff.1 hp found
  by_cases hfound : found = axis
  · subst hfound
    rcases h with h | h
    · left
      linarith
    · right
      linarith
  · have hother : found = axis.other := by
      cases found <;> cases axis <;> first | rfl | exact absurd rfl hfound
    subst hother
    rcases h with h | h <;> linarith

end Apart

end Rect

/-! ## Cells -/

/-- Two extents in the middle of slots of a row, the first in an earlier slot than the second. -/
theorem slots_before {start slot gap a b : Rat} {i j : Int} (hlt : i < j) (hstep : 0 ≤ slot + gap)
    (ha : a ≤ slot) (hb : b ≤ slot) :
    start + i * (slot + gap) + (slot - a) / 2 + a + gap ≤
      start + j * (slot + gap) + (slot - b) / 2 := by
  have hle : (i : Rat) + 1 ≤ j := by exact_mod_cast hlt
  have hmul := mul_le_mul_of_nonneg_right hle hstep
  linarith

namespace CellGrid

section

variable {α : Type} (grid : CellGrid α)

/-- The number of a cell along an axis: that of its layer, counted from the far side if the
direction says so, or its position in the layer. -/
def slot (layerCount layer position : Nat) : Axis → Int
  | .x =>
    if grid.direction.isHorizontal then
      if grid.direction.isReversed then layerCount - 1 - layer else layer
    else position
  | .y =>
    if grid.direction.isHorizontal then position
    else if grid.direction.isReversed then layerCount - 1 - layer else layer

theorem slot_ne (layerCount : Nat) {layer layer' position position' : Nat}
    (h : layer ≠ layer' ∨ position ≠ position') :
    ∃ axis, grid.slot layerCount layer position axis ≠
      grid.slot layerCount layer' position' axis := by
  by_contra hsame
  rw [not_exists] at hsame
  have hx := hsame .x
  have hy := hsame .y
  rw [not_not] at hx hy
  revert hx hy
  unfold slot
  cases grid.direction <;> simp [Direction.isHorizontal, Direction.isReversed] <;> omega

end

variable (grid : CellGrid Rat)

theorem coord_origin (axis : Axis) (layerCount layer position : Nat) :
    axis.coord (grid.origin layerCount layer position) =
      axis.coord ⟨grid.padding, grid.padding⟩ + grid.slot layerCount layer position axis *
        (axis.extent grid.cell + axis.extent grid.spacing) := by
  unfold origin slot
  cases grid.direction <;> cases axis <;> rfl

theorem low_frame (axis : Axis) (layerCount layer position : Nat) (size : Size Rat) :
    axis.low (grid.frame layerCount layer position size) =
      axis.coord (grid.origin layerCount layer position) +
        (axis.extent grid.cell - axis.extent size) / 2 := by
  cases axis <;> rfl

theorem high_frame (axis : Axis) (layerCount layer position : Nat) (size : Size Rat) :
    axis.high (grid.frame layerCount layer position size) =
      axis.low (grid.frame layerCount layer position size) + axis.extent size := by
  cases axis <;> rfl

variable {grid} {names : List String} {edges : List (String × String)}
  {sizes : List (String × Size Rat)}

/-- A node is not larger than its cell. -/
def FitsCell (grid : CellGrid Rat) (sizes : List (String × Size Rat)) (name : String) : Prop :=
  ∀ axis : Axis, axis.extent (grid.nodeSize sizes name) ≤ axis.extent grid.cell

section

variable {n m : PlacedNode Rat}
  (hstep : ∀ axis : Axis, 0 ≤ axis.extent grid.cell + axis.extent grid.spacing)
  (hn : n ∈ (grid.place names edges sizes).nodes) (hm : m ∈ (grid.place names edges sizes).nodes)
  (hnsize : grid.FitsCell sizes n.name) (hmsize : grid.FitsCell sizes m.name)

include hstep hn hm hnsize hmsize

/-- From a node in an earlier cell of an axis to one in a later cell the spacing is free. -/
theorem high_add_spacing_le_low {axis : Axis}
    (hlt : grid.slot (grid.place names edges sizes).layers.length n.layer n.position axis <
      grid.slot (grid.place names edges sizes).layers.length m.layer m.position axis) :
    axis.high n.frame + axis.extent grid.spacing ≤ axis.low m.frame := by
  rcases (mem_nodes_place_iff grid names edges sizes).1 hn with ⟨_, -, -, hframe⟩
  rcases (mem_nodes_place_iff grid names edges sizes).1 hm with ⟨_, -, -, hframe'⟩
  rw [hframe, hframe', high_frame, low_frame, low_frame, coord_origin, coord_origin]
  exact slots_before hlt (hstep axis) (hnsize axis) (hmsize axis)

/-- The frames of two nodes of a placed graph leave the spacing free on one axis, if neither is
larger than a cell. -/
theorem apart_of_mem_nodes_place (hne : n.name ≠ m.name) : n.frame.Apart m.frame grid.spacing := by
  have hplace : n.layer ≠ m.layer ∨ n.position ≠ m.position := by
    rcases (mem_nodes_place_iff grid names edges sizes).1 hn with ⟨row, hrow, hname, -⟩
    rcases (mem_nodes_place_iff grid names edges sizes).1 hm with ⟨row', hrow', hname', -⟩
    by_contra hsame
    rw [not_or, not_not, not_not] at hsame
    -- One place holds one name.
    rw [hsame.1, hrow'] at hrow
    cases hrow
    rw [hsame.2, hname'] at hname
    exact hne (Option.some.inj hname).symm
  rcases grid.slot_ne (grid.place names edges sizes).layers.length hplace with ⟨axis, hslot⟩
  refine ⟨axis, ?_⟩
  rcases lt_or_gt_of_ne hslot with hlt | hlt
  · exact Or.inl (high_add_spacing_le_low hstep hn hm hnsize hmsize hlt)
  · exact Or.inr (high_add_spacing_le_low hstep hm hn hmsize hnsize hlt)

end

end CellGrid

end TextDiagram
