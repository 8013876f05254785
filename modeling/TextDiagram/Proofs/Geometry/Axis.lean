import Mathlib.Tactic.Linarith
import TextDiagram.Proofs.Geometry.Clip
/-!
# The two axes

Most facts about rectangles with sides parallel to the axes are one fact for each axis. Here the
parts of points, sizes and rectangles are read off by axis, so that such a fact is stated once.

Main statements:

* `Axis.covers_iff`: a rectangle covers a point when it does so on both axes.
* `Segment.Crosses.reach`: a segment reaches a rectangle that it crosses on both axes.
* `Segment.not_crosses_of_beside`: a segment does not cross what it stays beside.
-/

namespace TextDiagram

/-- The axes of the canvas. -/
inductive Axis where
  | x | y
  deriving DecidableEq, Repr

namespace Axis

section

variable {α : Type}

/-- The axis across. -/
def other : Axis → Axis
  | x => y
  | y => x

/-- The coordinate of a point. -/
def coord : Axis → Point α → α
  | x, p => p.x
  | y, p => p.y

/-- The point with one coordinate on this axis and one on the axis across. -/
def point : Axis → α → α → Point α
  | x, a, b => ⟨a, b⟩
  | y, a, b => ⟨b, a⟩

/-- The coordinate at which a rectangle starts. -/
def low : Axis → Rect α → α
  | x, r => r.left
  | y, r => r.top

/-- The coordinate at which a rectangle ends. -/
def high : Axis → Rect α → α
  | x, r => r.right
  | y, r => r.bottom

/-- The extent of a size. -/
def extent : Axis → Size α → α
  | x, s => s.width
  | y, s => s.height

/-- What holds of the width and of the height holds on both axes. -/
theorem forall_extent_iff {p : α → Prop} {size : Size α} :
    (∀ axis : Axis, p (axis.extent size)) ↔ p size.width ∧ p size.height := by
  refine ⟨fun h => ⟨h x, h y⟩, fun h axis => ?_⟩
  cases axis with
  | x => exact h.1
  | y => exact h.2

@[simp] theorem coord_point (axis : Axis) (a b : α) : axis.coord (axis.point a b) = a := by
  cases axis <;> rfl

@[simp] theorem coord_other_point (axis : Axis) (a b : α) :
    axis.other.coord (axis.point a b) = b := by
  cases axis <;> rfl

variable [Scalar α] (axis : Axis)

@[simp] theorem low_padded (r : Rect α) (amount : α) :
    axis.low (r.padded amount) = axis.low r - amount := by
  cases axis <;> rfl

@[simp] theorem high_padded (r : Rect α) (amount : α) :
    axis.high (r.padded amount) = axis.high r + amount := by
  cases axis <;> rfl

@[simp] theorem low_shifted (r : Rect α) (dx dy : α) :
    axis.low (r.shifted dx dy) = axis.low r + axis.coord ⟨dx, dy⟩ := by
  cases axis <;> rfl

@[simp] theorem high_shifted (r : Rect α) (dx dy : α) :
    axis.high (r.shifted dx dy) = axis.high r + axis.coord ⟨dx, dy⟩ := by
  cases axis <;> rfl

end

theorem covers_iff {r : Rect Rat} {p : Point Rat} :
    r.Covers p ↔ ∀ axis : Axis, axis.low r ≤ axis.coord p ∧ axis.coord p ≤ axis.high r := by
  constructor
  · intro h axis
    cases axis with
    | x => exact ⟨h.left, h.right⟩
    | y => exact ⟨h.top, h.bottom⟩
  · intro h
    exact ⟨(h x).1, (h x).2, (h y).1, (h y).2⟩

theorem coord_pointAt (axis : Axis) (s : Segment Rat) (t : Rat) :
    axis.coord (s.pointAt t) =
      axis.coord s.start + t * (axis.coord s.stop - axis.coord s.start) := by
  cases axis <;> rfl

end Axis

/-! ## Segments that cross rectangles -/

namespace Segment

theorem between_le {a b k t : Rat} (hfirst : 0 ≤ t) (hlast : t ≤ 1) (h : a + t * (b - a) ≤ k) :
    a ≤ k ∨ b ≤ k := by
  rcases le_total a b with hab | hab
  · left
    linarith [mul_nonneg hfirst (sub_nonneg.2 hab)]
  · right
    linarith [mul_nonneg (sub_nonneg.2 hlast) (sub_nonneg.2 hab)]

theorem le_between {a b k t : Rat} (hfirst : 0 ≤ t) (hlast : t ≤ 1) (h : k ≤ a + t * (b - a)) :
    k ≤ a ∨ k ≤ b := by
  have hneg : -a + t * (-b - -a) ≤ -k := by linarith
  rcases between_le hfirst hlast hneg with hle | hle
  · left
    linarith
  · right
    linarith

variable {s : Segment Rat} {r : Rect Rat}

/-- A segment does not stay on one side of a rectangle that it crosses. -/
theorem Crosses.reach (h : s.Crosses r) (axis : Axis) :
    (axis.low r ≤ axis.coord s.start ∨ axis.low r ≤ axis.coord s.stop) ∧
      (axis.coord s.start ≤ axis.high r ∨ axis.coord s.stop ≤ axis.high r) := by
  rcases h with ⟨t, hfirst, hlast, hcovers⟩
  have hpoint := Axis.covers_iff.1 hcovers axis
  rw [Axis.coord_pointAt] at hpoint
  exact ⟨le_between hfirst hlast hpoint.1, between_le hfirst hlast hpoint.2⟩

theorem not_crosses_of_beside (axis : Axis)
    (h : (axis.high r < axis.coord s.start ∧ axis.high r < axis.coord s.stop) ∨
      (axis.coord s.start < axis.low r ∧ axis.coord s.stop < axis.low r)) : ¬s.Crosses r := by
  intro hcross
  rcases h with ⟨hstart, hstop⟩ | ⟨hstart, hstop⟩
  · exact (hcross.reach axis).2.elim (not_le.2 hstart) (not_le.2 hstop)
  · exact (hcross.reach axis).1.elim (not_le.2 hstart) (not_le.2 hstop)

end Segment

end TextDiagram
