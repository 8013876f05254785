import TextDiagram.Drawing.Stripe
import TextDiagram.Proofs.Geometry.Clip
import TextDiagram.Proofs.Loop
import TextDiagram.Proofs.Number.Ceiling
/-!
# Stripes stay inside their bar

A stripe is the part of a line `x + y = c` that lies in the bar. It comes in over the left side or the
lower one and goes out over the upper side or the right one, whichever the line meets. A line that meets
the bar in a corner only, or a bar without width or height, leaves no stripe.

Main statements:

* `IsStripe.unique`: a line leaves one stripe at most.
* `stripe?_eq_some_iff`: clipping finds the stripe if there is one.
* `stripes_loop`: the loop over the offsets ends.
* `stripes_inside`: the stripes of a bar are those of the lines eight units apart, in order.
-/

namespace TextDiagram

/-- The segment is what a bar leaves of the line at an offset from its upper left corner: it runs from the
left or lower side to the upper or right one, and it has a length. -/
structure IsStripe (bar : Rect Rat) (offset : Rat) (s : Segment Rat) : Prop where
  startLine : s.start.x + s.start.y = bar.left + bar.top + offset
  stopLine : s.stop.x + s.stop.y = bar.left + bar.top + offset
  startInside : bar.Covers s.start
  stopInside : bar.Covers s.stop
  startSide : s.start.x = bar.left ∨ s.start.y = bar.bottom
  stopSide : s.stop.y = bar.top ∨ s.stop.x = bar.right
  length : s.start ≠ s.stop

/-- Points of a line across are told apart by one coordinate. -/
theorem Point.eq_of_sum_eq {p q : Point Rat} (hx : p.x = q.x) (hsum : p.x + p.y = q.x + q.y) :
    p = q := by
  obtain ⟨px, py⟩ := p
  obtain ⟨qx, qy⟩ := q
  obtain rfl : px = qx := hx
  obtain rfl : py = qy := add_left_cancel hsum
  rfl

variable {bar : Rect Rat} {offset : Rat} {s : Segment Rat}

namespace IsStripe

/-- No point that the bar has on the line lies before the start of the stripe. -/
theorem start_le (h : IsStripe bar offset s) {p : Point Rat} (hp : bar.Covers p)
    (hline : p.x + p.y = bar.left + bar.top + offset) : s.start.x ≤ p.x := by
  obtain hleft | hbottom := h.startSide
  · rw [hleft]
    exact hp.left
  · have hlow := hp.bottom
    have hstart := h.startLine
    linarith

/-- Nor does one lie behind its stop. -/
theorem le_stop (h : IsStripe bar offset s) {p : Point Rat} (hp : bar.Covers p)
    (hline : p.x + p.y = bar.left + bar.top + offset) : p.x ≤ s.stop.x := by
  obtain htop | hright := h.stopSide
  · have hhigh := hp.top
    have hstop := h.stopLine
    linarith
  · rw [hright]
    exact hp.right

theorem start_lt_stop (h : IsStripe bar offset s) : s.start.x < s.stop.x := by
  refine lt_of_le_of_ne (h.start_le h.stopInside h.stopLine) fun hx => h.length ?_
  exact Point.eq_of_sum_eq hx (h.startLine.trans h.stopLine.symm)

/-- A line leaves one stripe at most. -/
theorem unique {t : Segment Rat} (hs : IsStripe bar offset s) (ht : IsStripe bar offset t) :
    s = t := by
  have hstart : s.start = t.start := by
    refine Point.eq_of_sum_eq ?_ (hs.startLine.trans ht.startLine.symm)
    exact le_antisymm (hs.start_le ht.startInside ht.startLine)
      (ht.start_le hs.startInside hs.startLine)
  have hstop : s.stop = t.stop := by
    refine Point.eq_of_sum_eq ?_ (hs.stopLine.trans ht.stopLine.symm)
    exact le_antisymm (ht.le_stop hs.stopInside hs.stopLine)
      (hs.le_stop ht.stopInside ht.stopLine)
  obtain ⟨start, stop⟩ := s
  obtain rfl : start = t.start := hstart
  obtain rfl : stop = t.stop := hstop
  rfl

/-- The line passes below the upper left corner. -/
theorem offset_pos (h : IsStripe bar offset s) : 0 < offset := by
  have htop := h.stopInside.top
  have hstop := h.stopLine
  have hleft := h.startInside.left
  have hlt := h.start_lt_stop
  linarith

/-- The line passes above the lower right corner. -/
theorem offset_lt (h : IsStripe bar offset s) : offset < bar.width + bar.height := by
  have hbottom := h.startInside.bottom
  have hstart := h.startLine
  have hright := h.stopInside.right
  have hlt := h.start_lt_stop
  simp only [Rect.width, Rect.height]
  linarith

end IsStripe

namespace Pen

/-! ## One stripe -/

theorem isStripe_of_stripe? (h : stripe? bar offset = some s) : IsStripe bar offset s := by
  simp only [stripe?] at h
  split at h
  · next hlt =>
    obtain rfl := Option.some.inj h
    -- Where the stripe starts and stops along the bar, measured from its left side.
    have hfirst := Scalar.max_le_iff.1 (le_refl (Scalar.max 0 (offset - bar.height)))
    have hlast := Scalar.le_min_iff.1 (le_refl (Scalar.min offset bar.width))
    have hside : Scalar.max 0 (offset - bar.height) = 0 ∨
        Scalar.max 0 (offset - bar.height) = offset - bar.height :=
      (ite_eq_or_eq _ _ _).symm
    have hother : Scalar.min offset bar.width = offset ∨
        Scalar.min offset bar.width = bar.width :=
      (ite_eq_or_eq _ _ _).symm
    generalize Scalar.max 0 (offset - bar.height) = first at *
    generalize Scalar.min offset bar.width = last at *
    simp only [Rect.width, Rect.height] at *
    constructor
    · simp only
      ring
    · simp only
      ring
    · constructor <;> simp only <;> linarith
    · constructor <;> simp only <;> linarith
    · obtain rfl | rfl := hside
      · left
        simp only
        linarith
      · right
        simp only
        linarith
    · obtain rfl | rfl := hother
      · left
        simp only
        linarith
      · right
        simp only
        linarith
    · intro heq
      exact hlt.ne (congrArg Point.x heq)
  · cases h

/-- Clipping finds the stripe on a line exactly if there is one. -/
theorem stripe?_eq_some_iff : stripe? bar offset = some s ↔ IsStripe bar offset s := by
  refine ⟨isStripe_of_stripe?, fun h => ?_⟩
  -- The stripe fits between the places that clipping compares, so these are in order.
  have hstart : Scalar.max 0 (offset - bar.height) ≤ s.start.x - bar.left := by
    have hleft := h.startInside.left
    have hbottom := h.startInside.bottom
    have hline := h.startLine
    refine Scalar.max_le_iff.2 ⟨sub_nonneg.2 hleft, ?_⟩
    simp only [Rect.height]
    linarith
  have hstop : s.stop.x - bar.left ≤ Scalar.min offset bar.width := by
    have hright := h.stopInside.right
    have htop := h.stopInside.top
    have hline := h.stopLine
    refine Scalar.le_min_iff.2 ⟨by linarith, ?_⟩
    simp only [Rect.width]
    linarith
  have hlt := h.start_lt_stop
  have hfound : ∃ t, stripe? bar offset = some t := by
    refine ⟨_, if_pos ?_⟩
    linarith
  obtain ⟨t, ht⟩ := hfound
  rw [ht, h.unique (isStripe_of_stripe? ht)]

/-! ## All stripes -/

/-- The loop that draws stripes from an offset on ends, with these stripes. -/
def StripesFrom (bar : Rect Rat) : Rat → List (Segment Rat) → Prop :=
  Loop (fun offset => offset < bar.width + bar.height) (fun offset => (stripe? bar offset).toList)
    (fun offset => offset + 8)

/-- The stripes are those of the loop, which ends by itself. -/
theorem stripes_loop (bar : Rect Rat) : StripesFrom bar 0 (stripes bar) := by
  refine Loop.of_countdown (stripesFrom bar)
    (fun n offset => bar.width + bar.height ≤ offset + 8 * n) (fun _ => rfl) (fun _ _ => rfl) ?_ ?_ ?_
  · intro offset henough
    simp only [Nat.cast_zero] at henough
    linarith
  · intro n offset henough _
    push_cast at henough
    linarith
  · -- The number of rounds is enough for the last offset to lie beyond the bar.
    have hceil : (bar.width + bar.height) / 8 ≤ (⌈(bar.width + bar.height) / 8⌉.toNat : Rat) := by
      refine (Int.le_ceil _).trans ?_
      exact_mod_cast Int.self_le_toNat _
    rw [Scalar.ceil_rat]
    push_cast
    linarith

/-- The loop gives the stripes at every eighth offset. -/
theorem mem_of_loop {lines : List (Segment Rat)} (h : StripesFrom bar offset lines) :
    s ∈ lines ↔ ∃ k : Nat, offset + 8 * k < bar.width + bar.height ∧
      stripe? bar (offset + 8 * k) = some s := by
  induction h with
  | @stop offset hstop =>
    simp only [List.not_mem_nil, false_iff, not_exists, not_and]
    intro k hk
    exact absurd (lt_of_le_of_lt (le_add_of_nonneg_right (by positivity)) hk) hstop
  | @round offset rest hgo _ ih =>
    -- A stripe of the rest is one of the whole, a round later.
    have hshift : ∀ k : Nat, offset + 8 + 8 * (k : Rat) = offset + 8 * ((k + 1 : Nat) : Rat) := by
      intro k
      push_cast
      ring
    rw [List.mem_append, Option.mem_toList, ih]
    constructor
    · rintro (hfirst | ⟨k, hk, hlater⟩)
      · exact ⟨0, by simpa using hgo, by simpa using hfirst⟩
      · rw [hshift] at hk hlater
        exact ⟨k + 1, hk, hlater⟩
    · rintro ⟨k, hk, hfound⟩
      cases k with
      | zero => exact .inl (by simpa using hfound)
      | succ k =>
        rw [← hshift] at hk hfound
        exact .inr ⟨k, hk, hfound⟩

theorem pairwise_of_loop {lines : List (Segment Rat)} (h : StripesFrom bar offset lines) :
    lines.Pairwise fun a b => a.start.x + a.start.y < b.start.x + b.start.y := by
  induction h with
  | stop => exact .nil
  | @round offset rest _ hrest ih =>
    refine List.pairwise_append.2 ⟨?_, ih, ?_⟩
    · cases stripe? bar offset with
      | none => exact .nil
      | some a => exact List.pairwise_singleton _ a
    · intro a ha b hb
      have hfirst := isStripe_of_stripe? (Option.mem_toList.1 ha)
      obtain ⟨k, -, hlater⟩ := (mem_of_loop hrest).1 hb
      have hk : (0 : Rat) ≤ k := Nat.cast_nonneg k
      -- Stripes are ordered by the sum of their coordinates, which is that of their offset.
      rw [hfirst.startLine, (isStripe_of_stripe? hlater).startLine]
      linarith

/-- The stripes of a bar are drawn by a loop that ends. They are what the bar leaves of the lines
`x + y = c` at the multiples of eight from its upper left corner to its lower right one: each stripe runs
from the left or lower side to the upper or right one, both ends belong to the bar, and none is missing
or drawn twice. -/
theorem stripes_inside (pen : Pen) (bar : Rect Rat) :
    (∀ lines, StripesFrom bar 0 lines ↔ lines = stripes bar) ∧
      (∀ s, s ∈ stripes bar ↔ ∃ k : Int, 0 < 8 * (k : Rat) ∧ 8 * (k : Rat) < bar.width + bar.height ∧
        IsStripe bar (8 * k) s) ∧
      (stripes bar).Pairwise (fun a b => a.start.x + a.start.y < b.start.x + b.start.y) ∧
      pen.drawStripes bar = (stripes bar).map fun s =>
        .line [pen.point s.start, pen.point s.stop] pen.config.backgroundColor (pen.width 2) := by
  have hloop := stripes_loop bar
  refine ⟨fun lines => ⟨fun hlines => hlines.unique hloop, ?_⟩, fun s => ?_, pairwise_of_loop hloop,
    rfl⟩
  · rintro rfl
    exact hloop
  · rw [mem_of_loop hloop]
    constructor
    · rintro ⟨k, -, hfound⟩
      rw [zero_add] at hfound
      have hstripe := isStripe_of_stripe? hfound
      refine ⟨k, ?_⟩
      rw [Int.cast_natCast]
      exact ⟨hstripe.offset_pos, hstripe.offset_lt, hstripe⟩
    · rintro ⟨k, hpos, hlt, hstripe⟩
      have hk : 0 ≤ k := by
        by_contra hneg
        have hle : (k : Rat) ≤ 0 := by exact_mod_cast (not_le.1 hneg).le
        linarith
      obtain ⟨n, rfl⟩ := Int.eq_ofNat_of_zero_le hk
      rw [Int.cast_natCast] at hlt hstripe
      refine ⟨n, ?_⟩
      rw [zero_add]
      exact ⟨hlt, stripe?_eq_some_iff.2 hstripe⟩

/-- A bar that is wider than tall: stripes from the left side up, from below up, and from below to the
right side. -/
example : stripes (⟨0, 0, 20, 12⟩ : Rect Rat) =
    [⟨⟨0, 8⟩, ⟨8, 0⟩⟩, ⟨⟨4, 12⟩, ⟨16, 0⟩⟩, ⟨⟨12, 12⟩, ⟨20, 4⟩⟩] := by decide +kernel

end Pen

end TextDiagram
