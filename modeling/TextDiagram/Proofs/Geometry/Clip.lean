import Mathlib.Algebra.Order.Field.Basic
import Mathlib.Data.Rat.Cast.Order
import Mathlib.Tactic.Linarith
import TextDiagram.Geometry.Clip
import TextDiagram.Proofs.Number.Extremes
/-!
# What the test for a crossing decides

A segment crosses a rectangle when one of its points lies in the rectangle, the boundary included.
In exact arithmetic clipping the parameter interval decides this: each side of the rectangle takes
away the parameters of the points beyond it.

Main statements:

* `Segment.clip_keeps`, `Segment.within_clip_iff`: what one side leaves and what it takes away.
* `Segment.meets_iff`: the segment meets a rectangle exactly when it crosses it.
-/

namespace TextDiagram

/-- The point lies in the rectangle or on its boundary. -/
structure Rect.Covers (r : Rect Rat) (p : Point Rat) : Prop where
  left : r.left ≤ p.x
  right : p.x ≤ r.right
  top : r.top ≤ p.y
  bottom : p.y ≤ r.bottom

namespace Segment

/-- The point at a parameter: the start at zero, the stop at one. -/
def pointAt (s : Segment Rat) (t : Rat) : Point Rat :=
  ⟨s.start.x + t * (s.stop.x - s.start.x), s.start.y + t * (s.stop.y - s.start.y)⟩

/-- Some point of the segment lies in the rectangle. -/
def Crosses (s : Segment Rat) (r : Rect Rat) : Prop :=
  ∃ t, 0 ≤ t ∧ t ≤ 1 ∧ r.Covers (s.pointAt t)

/-- The parameter lies in what is left of an interval. -/
def Within (t : Rat) (span? : Option (Span Rat)) : Prop :=
  ∃ span, span? = some span ∧ span.1 ≤ t ∧ t ≤ span.2

theorem within_some_iff {t : Rat} {span : Span Rat} :
    Within t (some span) ↔ span.1 ≤ t ∧ t ≤ span.2 := by
  simp [Within]

theorem not_within_none {t : Rat} : ¬Within t none := by
  simp [Within]

section

variable {K : Type} [Field K] [LinearOrder K] [IsStrictOrderedRing K]

/-- Clipping keeps the parameters that satisfy the bound, those of larger fields included. -/
theorem clip_keeps {p q : Rat} {t : K} {span : Span Rat} (hfirst : (span.1 : K) ≤ t)
    (hlast : t ≤ span.2) (hbound : (p : K) * t ≤ q) :
    ∃ kept, clip p q span = some kept ∧ (kept.1 : K) ≤ t ∧ t ≤ kept.2 := by
  unfold clip
  split
  · next hp =>
    have hp0 : p = 0 := by simpa using hp
    subst hp0
    have hq : 0 ≤ q := by
      rw [Rat.cast_zero, zero_mul] at hbound
      exact_mod_cast hbound
    rw [if_neg (not_lt.2 hq)]
    exact ⟨span, rfl, hfirst, hlast⟩
  · next hp =>
    have hp0 : p ≠ 0 := by simpa using hp
    simp only
    split
    · next hneg =>
      have hnegK : (p : K) < 0 := by exact_mod_cast hneg
      have hquotient : ((q / p : Rat) : K) ≤ t := by
        rw [Rat.cast_div]
        exact (div_le_iff_of_neg' hnegK).2 hbound
      have hle : q / p ≤ span.2 := by exact_mod_cast hquotient.trans hlast
      rw [if_neg (not_lt.2 hle)]
      refine ⟨_, rfl, ?_, hlast⟩
      rw [Scalar.max_eq]
      split
      · exact hquotient
      · exact hfirst
    · next hneg =>
      have hpos : 0 < p := lt_of_le_of_ne (not_lt.1 hneg) (Ne.symm hp0)
      have hposK : (0 : K) < p := by exact_mod_cast hpos
      have hquotient : t ≤ ((q / p : Rat) : K) := by
        rw [Rat.cast_div]
        exact (le_div_iff₀' hposK).2 hbound
      have hle : span.1 ≤ q / p := by exact_mod_cast hfirst.trans hquotient
      rw [if_neg (not_lt.2 hle)]
      refine ⟨_, rfl, hfirst, ?_⟩
      rw [Scalar.min_eq]
      split
      · exact hquotient
      · exact hlast

end

/-- Clipping takes away the parameters that violate the bound. -/
theorem of_within_clip {p q t : Rat} {span : Span Rat} (h : Within t (clip p q span)) :
    (span.1 ≤ t ∧ t ≤ span.2) ∧ p * t ≤ q := by
  unfold clip at h
  split at h
  · next hp =>
    -- Along the side the bound does not depend on the parameter.
    have hp0 : p = 0 := by simpa using hp
    subst hp0
    split at h
    · exact absurd h not_within_none
    · next hq => exact ⟨within_some_iff.1 h, by rw [zero_mul]; exact not_lt.1 hq⟩
  · next hp =>
    have hp0 : p ≠ 0 := by simpa using hp
    simp only at h
    split at h
    · next hneg =>
      split at h
      · exact absurd h not_within_none
      · rw [within_some_iff, Scalar.max_le_iff] at h
        exact ⟨⟨h.1.1, h.2⟩, (div_le_iff_of_neg' hneg).1 h.1.2⟩
    · next hneg =>
      have hpos : 0 < p := lt_of_le_of_ne (not_lt.1 hneg) (Ne.symm hp0)
      split at h
      · exact absurd h not_within_none
      · rw [within_some_iff, Scalar.le_min_iff] at h
        exact ⟨⟨h.1, h.2.1⟩, (le_div_iff₀' hpos).1 h.2.2⟩

/-- Clipping takes away exactly the parameters that violate the bound. -/
theorem within_clip_iff {p q t : Rat} {span : Span Rat} :
    Within t (clip p q span) ↔ (span.1 ≤ t ∧ t ≤ span.2) ∧ p * t ≤ q := by
  refine ⟨of_within_clip, ?_⟩
  rintro ⟨⟨hfirst, hlast⟩, hbound⟩
  exact clip_keeps (K := Rat) hfirst hlast hbound

theorem within_bind_clip_iff {p q t : Rat} {span? : Option (Span Rat)} :
    Within t (span?.bind (clip p q)) ↔ Within t span? ∧ p * t ≤ q := by
  cases span? with
  | none => exact ⟨fun h => absurd h not_within_none, fun h => absurd h.1 not_within_none⟩
  | some span => rw [Option.bind_some, within_clip_iff, within_some_iff]

/-- What is left after all four sides are the parameters of the points in the rectangle. -/
theorem within_spanWithin?_iff {s : Segment Rat} {r : Rect Rat} {t : Rat} :
    Within t (s.spanWithin? r) ↔ (0 ≤ t ∧ t ≤ 1) ∧ r.Covers (s.pointAt t) := by
  have hspan : s.spanWithin? r =
      (((clip (-(s.stop.x - s.start.x)) (s.start.x - r.left) (0, 1)).bind
        (clip (s.stop.x - s.start.x) (r.right - s.start.x))).bind
        (clip (-(s.stop.y - s.start.y)) (s.start.y - r.top))).bind
        (clip (s.stop.y - s.start.y) (r.bottom - s.start.y)) := by
    simp only [spanWithin?, Option.bind_assoc]
  rw [hspan, within_bind_clip_iff, within_bind_clip_iff, within_bind_clip_iff, within_clip_iff]
  constructor
  · rintro ⟨⟨⟨⟨ht, hleft⟩, hright⟩, htop⟩, hbottom⟩
    refine ⟨ht, ?_, ?_, ?_, ?_⟩ <;> simp only [pointAt] <;> linarith
  · rintro ⟨ht, hcovers⟩
    have hleft := hcovers.left
    have hright := hcovers.right
    have htop := hcovers.top
    have hbottom := hcovers.bottom
    simp only [pointAt] at hleft hright htop hbottom
    refine ⟨⟨⟨⟨ht, ?_⟩, ?_⟩, ?_⟩, ?_⟩ <;> linarith

/-- The segment meets the rectangle exactly when one of its points lies in it. -/
theorem meets_iff {s : Segment Rat} {r : Rect Rat} : s.meets r = true ↔ s.Crosses r := by
  have hcrosses : s.Crosses r ↔ ∃ t, Within t (s.spanWithin? r) := by
    simp only [within_spanWithin?_iff, Crosses, and_assoc]
  rw [hcrosses, meets]
  cases s.spanWithin? r with
  | none => simp [not_within_none]
  | some span =>
    simp only [decide_eq_true_eq, within_some_iff]
    exact ⟨fun h => ⟨span.1, le_refl _, h⟩, fun ⟨_, hfirst, hlast⟩ => hfirst.trans hlast⟩

instance (s : Segment Rat) (r : Rect Rat) : Decidable (s.Crosses r) := decidable_of_iff _ meets_iff

end Segment

end TextDiagram
