import TextDiagram.Proofs.Geometry.Boundary
import TextDiagram.Proofs.Geometry.Clip
import TextDiagram.Proofs.Number.Extremes
/-!
# Rectangles in rectangles

Containment is the order of rectangles in which the union is the least upper bound.

Main statements:

* `contains_union_iff`, `contains_foldl_union_iff`: what holds a union holds all of its parts.
* `Contains.crosses`: a segment that crosses the inner rectangle crosses the outer one.
-/

namespace TextDiagram

namespace Rect

/-- The middles of the sides belong to the rectangle. -/
theorem Valid.covers {r : Rect Rat} (h : r.Valid) {p : Point Rat} (hp : p ∈ r.sideMiddles) :
    r.Covers p := by
  have hwidth := h.width
  have hheight := h.height
  rcases h.onBoundary hp with ⟨hleft, hright, htop | hbottom⟩ | ⟨htop, hbottom, hleft | hright⟩
  · exact ⟨hleft, hright, by linarith, by linarith⟩
  · exact ⟨hleft, hright, by linarith, by linarith⟩
  · exact ⟨by linarith, by linarith, htop, hbottom⟩
  · exact ⟨by linarith, by linarith, htop, hbottom⟩

/-- The inner rectangle lies in the outer one; their boundaries may touch. -/
structure Contains (outer inner : Rect Rat) : Prop where
  left : outer.left ≤ inner.left
  top : outer.top ≤ inner.top
  right : inner.right ≤ outer.right
  bottom : inner.bottom ≤ outer.bottom

theorem contains_iff {outer inner : Rect Rat} : outer.Contains inner ↔
    outer.left ≤ inner.left ∧ outer.top ≤ inner.top ∧ inner.right ≤ outer.right ∧
      inner.bottom ≤ outer.bottom :=
  ⟨fun h => ⟨h.left, h.top, h.right, h.bottom⟩, fun h => ⟨h.1, h.2.1, h.2.2.1, h.2.2.2⟩⟩

instance (outer inner : Rect Rat) : Decidable (outer.Contains inner) :=
  decidable_of_iff _ contains_iff.symm

namespace Contains

variable {a b c : Rect Rat}

theorem refl (a : Rect Rat) : a.Contains a := ⟨le_rfl, le_rfl, le_rfl, le_rfl⟩

theorem trans (hab : a.Contains b) (hbc : b.Contains c) : a.Contains c :=
  ⟨hab.left.trans hbc.left, hab.top.trans hbc.top, hbc.right.trans hab.right,
    hbc.bottom.trans hab.bottom⟩

theorem shifted (h : a.Contains b) (dx dy : Rat) : (a.shifted dx dy).Contains (b.shifted dx dy) :=
  ⟨add_le_add_left h.left dx, add_le_add_left h.top dy, add_le_add_left h.right dx,
    add_le_add_left h.bottom dy⟩

theorem covers (h : a.Contains b) {p : Point Rat} (hp : b.Covers p) : a.Covers p :=
  ⟨h.left.trans hp.left, hp.right.trans h.right, h.top.trans hp.top, hp.bottom.trans h.bottom⟩

theorem crosses (h : a.Contains b) {s : Segment Rat} (hs : s.Crosses b) : s.Crosses a := by
  rcases hs with ⟨t, hfirst, hlast, hcovers⟩
  exact ⟨t, hfirst, hlast, h.covers hcovers⟩

end Contains

theorem contains_padded (r : Rect Rat) {amount : Rat} (h : 0 ≤ amount) :
    (r.padded amount).Contains r :=
  ⟨sub_le_self _ h, sub_le_self _ h, le_add_of_nonneg_right h, le_add_of_nonneg_right h⟩

theorem contains_union_iff {outer a b : Rect Rat} :
    outer.Contains (a.union b) ↔ outer.Contains a ∧ outer.Contains b := by
  constructor
  · intro h
    have hleft := Scalar.le_min_iff.1 h.left
    have htop := Scalar.le_min_iff.1 h.top
    have hright := Scalar.max_le_iff.1 h.right
    have hbottom := Scalar.max_le_iff.1 h.bottom
    exact ⟨⟨hleft.1, htop.1, hright.1, hbottom.1⟩, ⟨hleft.2, htop.2, hright.2, hbottom.2⟩⟩
  · rintro ⟨ha, hb⟩
    exact ⟨Scalar.le_min_iff.2 ⟨ha.left, hb.left⟩, Scalar.le_min_iff.2 ⟨ha.top, hb.top⟩,
      Scalar.max_le_iff.2 ⟨ha.right, hb.right⟩, Scalar.max_le_iff.2 ⟨ha.bottom, hb.bottom⟩⟩

theorem contains_foldl_union_iff {outer first : Rect Rat} {others : List (Rect Rat)} :
    outer.Contains (others.foldl union first) ↔ ∀ r ∈ first :: others, outer.Contains r := by
  induction others generalizing first with
  | nil => simp
  | cons r rest ih =>
    rw [List.foldl_cons, ih]
    simp only [List.forall_mem_cons, contains_union_iff, and_assoc]

end Rect

end TextDiagram
