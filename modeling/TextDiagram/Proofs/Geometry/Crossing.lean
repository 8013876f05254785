import Mathlib.Data.Real.Basic
import TextDiagram.Proofs.Geometry.Clip
/-!
# Crossings at irrational parameters

The sides of a rectangle and the ends of a segment are fractions. The points of the segment are not
all: a real parameter gives a real point. Clipping takes away no parameter whose point lies in the
rectangle, of whatever ordered field it is, so the test for a crossing is exact for all of them.

Main statements:

* `Segment.spanWithin?_keeps`: what all four sides leave.
* `Segment.meets_iff_exists_parameter`: the segment meets a rectangle exactly when it has a point in
  it.
-/

namespace TextDiagram.Segment

variable {K : Type} [Field K] [LinearOrder K] [IsStrictOrderedRing K]

/-- Clipping by all four sides keeps the parameters whose points lie in the rectangle. -/
theorem spanWithin?_keeps {s : Segment Rat} {r : Rect Rat} {t : K} (hfirst : 0 ≤ t) (hlast : t ≤ 1)
    (hleft : (r.left : K) ≤ s.start.x + t * (s.stop.x - s.start.x))
    (hright : s.start.x + t * (s.stop.x - s.start.x) ≤ (r.right : K))
    (htop : (r.top : K) ≤ s.start.y + t * (s.stop.y - s.start.y))
    (hbottom : s.start.y + t * (s.stop.y - s.start.y) ≤ (r.bottom : K)) :
    ∃ kept, s.spanWithin? r = some kept ∧ (kept.1 : K) ≤ t ∧ t ≤ kept.2 := by
  have hstart : (((0, 1) : Span Rat).1 : K) ≤ t := by simpa using hfirst
  have hstop : t ≤ (((0, 1) : Span Rat).2 : K) := by simpa using hlast
  rcases clip_keeps (p := -(s.stop.x - s.start.x)) (q := s.start.x - r.left) hstart hstop
    (by push_cast; linarith) with ⟨a, ha, hfirst, hlast⟩
  rcases clip_keeps (p := s.stop.x - s.start.x) (q := r.right - s.start.x) hfirst hlast
    (by push_cast; linarith) with ⟨b, hb, hfirst, hlast⟩
  rcases clip_keeps (p := -(s.stop.y - s.start.y)) (q := s.start.y - r.top) hfirst hlast
    (by push_cast; linarith) with ⟨c, hc, hfirst, hlast⟩
  rcases clip_keeps (p := s.stop.y - s.start.y) (q := r.bottom - s.start.y) hfirst hlast
    (by push_cast; linarith) with ⟨d, hd, hfirst, hlast⟩
  exact ⟨d, by simp only [spanWithin?, ha, hb, hc, hd, Option.bind_some], hfirst, hlast⟩

/-- The segment meets a rectangle exactly when the point at some parameter from zero to one lies in
it, whether the parameter is a fraction or any other number. Points, lines along an axis, and
rectangles without extent or with their sides in the wrong order are no exceptions. -/
theorem meets_iff_exists_parameter (K : Type) [Field K] [LinearOrder K] [IsStrictOrderedRing K]
    (s : Segment Rat) (r : Rect Rat) :
    s.meets r = true ↔ ∃ t : K, (0 ≤ t ∧ t ≤ 1) ∧
      ((r.left : K) ≤ s.start.x + t * (s.stop.x - s.start.x) ∧
        s.start.x + t * (s.stop.x - s.start.x) ≤ (r.right : K)) ∧
      (r.top : K) ≤ s.start.y + t * (s.stop.y - s.start.y) ∧
        s.start.y + t * (s.stop.y - s.start.y) ≤ (r.bottom : K) := by
  constructor
  · intro hmeets
    rcases meets_iff.1 hmeets with ⟨t, hfirst, hlast, hcovers⟩
    have hleft := hcovers.left
    have hright := hcovers.right
    have htop := hcovers.top
    have hbottom := hcovers.bottom
    simp only [pointAt] at hleft hright htop hbottom
    exact ⟨t, ⟨by exact_mod_cast hfirst, by exact_mod_cast hlast⟩,
      ⟨by exact_mod_cast hleft, by exact_mod_cast hright⟩, by exact_mod_cast htop,
      by exact_mod_cast hbottom⟩
  · rintro ⟨t, ⟨hfirst, hlast⟩, ⟨hleft, hright⟩, htop, hbottom⟩
    rcases spanWithin?_keeps hfirst hlast hleft hright htop hbottom with
      ⟨kept, hkept, hafter, hbefore⟩
    have hle : kept.1 ≤ kept.2 := by exact_mod_cast hafter.trans hbefore
    simp only [meets, hkept, hle, decide_true]

/-- A segment that touches a corner, at a real parameter. -/
theorem meets_iff_exists_parameter_corner :
    IsStrictOrderedRing ℝ ∧ (⟨⟨0, 2⟩, ⟨2, 0⟩⟩ : Segment Rat).meets ⟨1, 1, 3, 3⟩ = true ∧
      ∃ t : ℝ, (0 ≤ t ∧ t ≤ 1) ∧ (1 ≤ 0 + t * (2 - 0) ∧ 0 + t * (2 - 0) ≤ 3) ∧
        1 ≤ 2 + t * (0 - 2) ∧ 2 + t * (0 - 2) ≤ 3 := by
  have hmeets : (⟨⟨0, 2⟩, ⟨2, 0⟩⟩ : Segment Rat).meets ⟨1, 1, 3, 3⟩ = true := by decide +kernel
  have h := (meets_iff_exists_parameter ℝ ⟨⟨0, 2⟩, ⟨2, 0⟩⟩ ⟨1, 1, 3, 3⟩).1 hmeets
  simp only [Rat.cast_zero, Rat.cast_one, Rat.cast_ofNat] at h
  exact ⟨inferInstance, hmeets, h⟩

end TextDiagram.Segment
