import Mathlib.Algebra.Order.Field.Basic
import Mathlib.Tactic.Linarith
import Mathlib.Tactic.Ring
import TextDiagram.Proofs.Geometry.Axis
import TextDiagram.Proofs.Geometry.Boundary
import TextDiagram.Proofs.Number.Extremes
/-!
# Connectors and the insides of boxes

A connector leaves one box and arrives at another one. It stays outside of both if on the axis that
it joins them along one box ends before the other begins. Boxes that begin at the same height can be
joined along the other axis, from the lower side of the one to the upper side of the other; then the
connector runs through the shorter box.

Main statements:

* `Segment.not_enters_of_beside`: what stays beside a box does not enter it.
* `Rect.coord_connector`: the ends of a connector on the axis that it joins boxes along.
* `Rect.not_enters_connector`: connectors that stay outside.
* `Rect.enters_connector`: connectors that run through the shorter box.
* `Rect.OnGrid.connector_clear_iff`: which of the two, for boxes on a grid.
-/

namespace TextDiagram

/-! ## Insides -/

/-- The point lies in the rectangle and on none of its sides. -/
structure Rect.Surrounds (r : Rect Rat) (p : Point Rat) : Prop where
  left : r.left < p.x
  right : p.x < r.right
  top : r.top < p.y
  bottom : p.y < r.bottom

instance (r : Rect Rat) (p : Point Rat) : Decidable (r.Surrounds p) :=
  decidable_of_iff (r.left < p.x ∧ p.x < r.right ∧ r.top < p.y ∧ p.y < r.bottom)
    ⟨fun h => ⟨h.1, h.2.1, h.2.2.1, h.2.2.2⟩, fun h => ⟨h.left, h.right, h.top, h.bottom⟩⟩

theorem Axis.surrounds_iff {r : Rect Rat} {p : Point Rat} :
    r.Surrounds p ↔ ∀ axis : Axis, axis.low r < axis.coord p ∧ axis.coord p < axis.high r := by
  constructor
  · intro h axis
    cases axis with
    | x => exact ⟨h.left, h.right⟩
    | y => exact ⟨h.top, h.bottom⟩
  · intro h
    exact ⟨(h x).1, (h x).2, (h y).1, (h y).2⟩

namespace Segment

/-- Some point of the segment lies inside the rectangle. -/
def Enters (s : Segment Rat) (r : Rect Rat) : Prop :=
  ∃ t, 0 ≤ t ∧ t ≤ 1 ∧ r.Surrounds (s.pointAt t)

variable {s : Segment Rat} {r : Rect Rat}

theorem not_enters_of_beside (axis : Axis)
    (h : (axis.high r ≤ axis.coord s.start ∧ axis.high r ≤ axis.coord s.stop) ∨
      (axis.coord s.start ≤ axis.low r ∧ axis.coord s.stop ≤ axis.low r)) : ¬s.Enters r := by
  rintro ⟨t, hfirst, hlast, hinside⟩
  have hpoint := Axis.surrounds_iff.1 hinside axis
  rw [Axis.coord_pointAt] at hpoint
  rcases h with ⟨hstart, hstop⟩ | ⟨hstart, hstop⟩
  · linarith [mul_nonneg (sub_nonneg.2 hlast) (sub_nonneg.2 hstart),
      mul_nonneg hfirst (sub_nonneg.2 hstop)]
  · linarith [mul_nonneg (sub_nonneg.2 hlast) (sub_nonneg.2 hstart),
      mul_nonneg hfirst (sub_nonneg.2 hstop)]

theorem enters_of_reversed (h : s.reversed.Enters r) : s.Enters r := by
  rcases h with ⟨t, hfirst, hlast, hinside⟩
  refine ⟨1 - t, sub_nonneg.2 hlast, sub_le_self 1 hfirst, ?_⟩
  have hsame : s.pointAt (1 - t) = s.reversed.pointAt t := by
    simp only [pointAt, reversed, Point.mk.injEq]
    constructor <;> ring
  rwa [hsame]

/-- A segment from the middle of the lower side up to the height of the upper one runs through the
rectangle, however far it leads to the side. -/
theorem enters_of_bottomCenter (hwidth : r.left < r.right) (hheight : r.top < r.bottom)
    (hstart : s.start = r.bottomCenter) (hstop : s.stop.y = r.top) : s.Enters r := by
  -- A point so near to the start that it is still between the left and the right side.
  have hnear : ∃ t : Rat, 0 < t ∧ t < 1 ∧ t * |s.stop.x - r.center.x| < (r.right - r.left) / 2 := by
    have haway := abs_nonneg (s.stop.x - r.center.x)
    have hextent := sub_pos.2 hwidth
    refine ⟨(r.right - r.left) / (2 * (|s.stop.x - r.center.x| + (r.right - r.left))), ?_, ?_, ?_⟩
    · exact div_pos hextent (by linarith)
    · rw [div_lt_one (by linarith)]
      linarith
    · rw [div_mul_eq_mul_div, div_lt_div_iff₀ (by linarith) two_pos]
      linarith [mul_pos hextent hextent]
  rcases hnear with ⟨t, hfirst, hlast, hside⟩
  have habs : |t * (s.stop.x - r.center.x)| < (r.right - r.left) / 2 := by
    rwa [abs_mul, abs_of_pos hfirst]
  have hsides := abs_lt.1 habs
  have hcenter : r.center.x = (r.left + r.right) / 2 := rfl
  have hdown := mul_pos hfirst (sub_pos.2 hheight)
  have hup := mul_pos (sub_pos.2 hlast) (sub_pos.2 hheight)
  refine ⟨t, hfirst.le, hlast.le, ?_⟩
  constructor <;> simp only [pointAt, hstart, hstop, Rect.bottomCenter] <;> linarith

end Segment

/-! ## Connectors -/

namespace Rect

/-- The axis along which a connector joins two boxes: that of the longer way from centre to centre,
y if both are equally long. -/
def joinAxis (a b : Rect Rat) : Axis :=
  if |b.center.y - a.center.y| < |b.center.x - a.center.x| then .x else .y

theorem coord_center (axis : Axis) (r : Rect Rat) :
    axis.coord r.center = (axis.low r + axis.high r) / 2 := by
  cases axis <;> rfl

/-- A connector leads from the end of one box to the beginning of the other one if the centre of the
other one is further along, and from the beginning to the end otherwise. -/
theorem coord_connector (a b : Rect Rat) :
    let axis := a.joinAxis b
    (axis.coord a.center < axis.coord b.center ∧
        axis.coord (a.connector b).start = axis.high a ∧
        axis.coord (a.connector b).stop = axis.low b) ∨
      (axis.coord b.center ≤ axis.coord a.center ∧
        axis.coord (a.connector b).start = axis.low a ∧
        axis.coord (a.connector b).stop = axis.high b) := by
  simp only [connector, joinAxis, Scalar.abs_eq]
  split
  · split
    · next hforward => exact Or.inl ⟨sub_pos.1 hforward, rfl, rfl⟩
    · next hforward => exact Or.inr ⟨sub_nonpos.1 (not_lt.1 hforward), rfl, rfl⟩
  · split
    · next hforward => exact Or.inl ⟨sub_pos.1 hforward, rfl, rfl⟩
    · next hforward => exact Or.inr ⟨sub_nonpos.1 (not_lt.1 hforward), rfl, rfl⟩

variable {a b : Rect Rat}

/-- A connector stays outside of both boxes if one ends before the other begins on its axis. -/
theorem not_enters_connector (ha : a.Valid) (hb : b.Valid)
    (hapart : (a.joinAxis b).high a ≤ (a.joinAxis b).low b ∨
      (a.joinAxis b).high b ≤ (a.joinAxis b).low a) :
    ¬(a.connector b).Enters a ∧ ¬(a.connector b).Enters b := by
  have hjoin := coord_connector a b
  simp only [coord_center] at hjoin
  generalize a.joinAxis b = axis at hapart hjoin
  have ha' : axis.low a ≤ axis.high a := by
    cases axis
    · exact ha.width
    · exact ha.height
  have hb' : axis.low b ≤ axis.high b := by
    cases axis
    · exact hb.width
    · exact hb.height
  rcases hjoin with ⟨hforward, hstart, hstop⟩ | ⟨hbackward, hstart, hstop⟩
  · have hle : axis.high a ≤ axis.low b := by
      rcases hapart with hle | hle
      · exact hle
      · linarith
    constructor
    · exact Segment.not_enters_of_beside axis (Or.inl ⟨hstart.ge, hstop.ge.trans' hle⟩)
    · exact Segment.not_enters_of_beside axis (Or.inr ⟨hstart.le.trans hle, hstop.le⟩)
  · have hle : axis.high b ≤ axis.low a := by
      rcases hapart with hle | hle
      · linarith
      · exact hle
    constructor
    · exact Segment.not_enters_of_beside axis (Or.inr ⟨hstart.le, hstop.le.trans hle⟩)
    · exact Segment.not_enters_of_beside axis (Or.inl ⟨hstart.ge.trans' hle, hstop.ge⟩)

/-- A connector that joins boxes along y although they begin at one height runs through the shorter
of them. -/
theorem enters_connector (ha : a.left < a.right ∧ a.top < a.bottom)
    (hb : b.left < b.right ∧ b.top < b.bottom) (htop : a.top = b.top)
    (haxis : a.joinAxis b = .y) : (a.connector b).Enters a ∨ (a.connector b).Enters b := by
  have hnot : ¬Scalar.abs (b.center.y - a.center.y) < Scalar.abs (b.center.x - a.center.x) := by
    rw [Scalar.abs_eq, Scalar.abs_eq]
    intro hlt
    rw [joinAxis, if_pos hlt] at haxis
    cases haxis
  simp only [connector, if_neg hnot]
  split
  · exact Or.inl (Segment.enters_of_bottomCenter ha.1 ha.2 rfl htop.symm)
  · exact Or.inr (Segment.enters_of_reversed
      (Segment.enters_of_bottomCenter hb.1 hb.2 rfl htop))

/-! ## Boxes on a grid -/

/-- Two boxes of a grid. They begin at one height or one is below the other; and they begin at one
abscissa or one is beside the other. -/
structure OnGrid (a b : Rect Rat) : Prop where
  row : a.top = b.top ∨ a.bottom ≤ b.top ∨ b.bottom ≤ a.top
  column : a.left = b.left ∨ a.right ≤ b.left ∨ b.right ≤ a.left
  ne : a.top = b.top → a.left ≠ b.left
  width : a.right - a.left = b.right - b.left
  width_pos : a.left < a.right
  height_pos : a.top < a.bottom ∧ b.top < b.bottom

/-- The boxes stand in one row, and their heights differ at least twice as much as their
abscissas. -/
def Overtops (a b : Rect Rat) : Prop :=
  a.top = b.top ∧ 2 * |b.left - a.left| ≤ |b.height - a.height|

namespace OnGrid

/-- Overtopping boxes are those in one row that are joined along y. -/
theorem overtops_iff (h : a.OnGrid b) : a.Overtops b ↔ a.top = b.top ∧ a.joinAxis b = .y := by
  refine and_congr_right fun htop => ?_
  have hwidth := h.width
  have hx : b.center.x - a.center.x = b.left - a.left := by
    simp only [center]
    linarith
  have hy : b.center.y - a.center.y = (b.height - a.height) / 2 := by
    simp only [center, height]
    linarith
  rw [joinAxis, hx, hy, abs_div, abs_two]
  constructor
  · intro hle
    rw [if_neg (not_lt.2 (by linarith))]
  · intro haxis
    by_contra hlt
    rw [if_pos (by linarith)] at haxis
    cases haxis

/-- Between two boxes of a grid a connector stays outside of both unless one overtops the other. -/
theorem connector_clear_iff (h : a.OnGrid b) :
    (¬(a.connector b).Enters a ∧ ¬(a.connector b).Enters b) ↔ ¬a.Overtops b := by
  have hwidth := h.width
  have hpos := h.width_pos
  rw [h.overtops_iff]
  constructor
  · rintro ⟨ha, hb⟩ ⟨htop, haxis⟩
    have henters := enters_connector ⟨hpos, h.height_pos.1⟩ ⟨by linarith, h.height_pos.2⟩ htop haxis
    exact henters.elim ha hb
  · intro hnot
    refine not_enters_connector ⟨hpos.le, h.height_pos.1.le⟩ ⟨by linarith, h.height_pos.2.le⟩ ?_
    cases haxis : a.joinAxis b with
    | y => exact h.row.resolve_left fun htop => hnot ⟨htop, haxis⟩
    | x =>
      -- Boxes of one column are joined along y.
      refine h.column.resolve_left fun hleft => ?_
      have hx : b.center.x - a.center.x = 0 := by
        simp only [center]
        linarith
      rw [joinAxis, hx, abs_zero, if_neg (not_lt.2 (abs_nonneg _))] at haxis
      cases haxis

end OnGrid

end Rect

end TextDiagram
