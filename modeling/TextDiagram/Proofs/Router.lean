import Mathlib.Algebra.Order.Group.Abs
import Mathlib.Tactic.Linarith
import TextDiagram.Proofs.Geometry.Containment
import TextDiagram.Proofs.Spacing
import TextDiagram.Router
/-!
# Which legs of a detour are clear

A line that meets padded boxes bends beyond all of them, so the middle leg of its detour is clear.
The outer legs run at the coordinates of the two ends and are not placed by the boxes. What is said
about them is for boxes of one size with room between them:

* the first leg is clear, because the line bends on the side that is nearer to its start;
* the last leg is clear if the boxes leave enough room for the way that the line travels.

Main statements:

* `mem_obstacles_iff`: the boxes that make a line bend.
* `path_route`: the corners of a detour, on the axis along which it bends.
* `bend_offset`, `bend_beyond`, `bend_clear`: where the bend lies.
* `Spread.first_leg_clear`, `Spread.last_leg_clear`: the outer legs.
* `Spread.detour_clear`: the three legs of a detour.
-/

namespace TextDiagram

open Scalar

/-- The axis along which a line has to leave its way to get around a box: across the axis of the
longer travel, and sideways if it travels as far on both. -/
def Segment.bendAxis (s : Segment Rat) : Axis :=
  if |s.stop.x - s.start.x| ≤ |s.stop.y - s.start.y| then .x else .y

theorem Segment.abs_bendAxis_le (s : Segment Rat) :
    |s.bendAxis.coord s.stop - s.bendAxis.coord s.start| ≤
      |s.bendAxis.other.coord s.stop - s.bendAxis.other.coord s.start| := by
  unfold bendAxis
  split
  · next h => exact h
  · next h => exact (not_le.1 h).le

namespace Router

variable {router : Router Rat} {source target name : String} {line : Segment Rat}
  {first r : Rect Rat} {others : List (Rect Rat)}

/-! ## Obstacles and corners -/

theorem mem_obstacles_iff : (name, r) ∈ router.obstacles source target line ↔
    ∃ frame, (name, frame) ∈ router.boxes ∧ name ≠ source ∧ name ≠ target ∧
      line.Crosses r ∧ frame.padded router.obstaclePadding = r := by
  simp only [obstacles, List.mem_filterMap, Prod.exists]
  constructor
  · rintro ⟨name', frame, hmem, hsome⟩
    split at hsome
    · simp at hsome
    · next hends =>
      rw [not_or] at hends
      split at hsome
      · next hmeets =>
        cases hsome
        exact ⟨frame, hmem, hends.1, hends.2, Segment.meets_iff.1 hmeets, rfl⟩
      · simp at hsome
  · rintro ⟨frame, hmem, hsource, htarget, hcrosses, rfl⟩
    refine ⟨name, frame, hmem, ?_⟩
    rw [if_neg (not_or.2 ⟨hsource, htarget⟩), if_pos (Segment.meets_iff.2 hcrosses)]

/-- The coordinate of the middle leg around some boxes. -/
def bendAround (router : Router Rat) (axis : Axis) (start : Rat) (first : Rect Rat)
    (others : List (Rect Rat)) : Rat :=
  router.bend start (minimum (axis.low first) (others.map axis.low))
    (maximum (axis.high first) (others.map axis.high))

theorem corners_eq (line : Segment Rat) (first : Rect Rat) (others : List (Rect Rat)) :
    let axis := line.bendAxis
    let bend := router.bendAround axis (axis.coord line.start) first others
    router.corners line first others =
      [axis.point bend (axis.other.coord line.start),
        axis.point bend (axis.other.coord line.stop)] := by
  simp only [corners, abs_eq, Segment.bendAxis]
  split <;> rfl

/-- The way of a line that meets something. -/
theorem path_route (h : (router.obstacles source target line).map (·.2) = first :: others) :
    let axis := line.bendAxis
    let bend := router.bendAround axis (axis.coord line.start) first others
    (router.route source target line).path =
      ⟨line.start, [axis.point bend (axis.other.coord line.start),
        axis.point bend (axis.other.coord line.stop)], line.stop⟩ := by
  intro axis bend
  have hcorners : router.corners line first others = _ := corners_eq line first others
  unfold route
  cases hobstacles : router.obstacles source target line with
  | nil => simp [hobstacles] at h
  | cons obstacle rest =>
    rw [hobstacles, List.map_cons] at h
    cases h
    simp only [hcorners, axis, bend]

/-! ## Bends -/

/-- The middle leg keeps the offset from all obstacles. -/
theorem bend_offset (axis : Axis) (start : Rat) (hr : r ∈ first :: others) :
    router.bendAround axis start first others + router.detourOffset ≤ axis.low r ∨
      axis.high r + router.detourOffset ≤ router.bendAround axis start first others := by
  have hlow := minimum_map_le axis.low hr
  have hhigh := le_maximum_map axis.high hr
  unfold bendAround bend
  split
  · left
    linarith
  · right
    linarith

/-- The middle leg runs beyond all obstacles. -/
theorem bend_beyond (hoffset : 0 < router.detourOffset) (axis : Axis) (start : Rat)
    (hr : r ∈ first :: others) :
    axis.high r < router.bendAround axis start first others ∨
      router.bendAround axis start first others < axis.low r := by
  have hoffset' : router.bendAround axis start first others + router.detourOffset ≤ axis.low r ∨
      axis.high r + router.detourOffset ≤ router.bendAround axis start first others :=
    bend_offset axis start hr
  rcases hoffset' with hlow | hhigh
  · right
    linarith
  · left
    linarith

/-- The start and the bend lie on one side of every obstacle that leaves some room beside the start,
if all obstacles have one extent and the line reaches them all. -/
theorem bend_clear {axis : Axis} {start stop extent room : Rat} (hoffset : 0 < router.detourOffset)
    (hextent : 0 < extent) (hroom : 0 < room)
    (hhigh : ∀ q ∈ first :: others, axis.high q = axis.low q + extent)
    (hreach : ∀ q ∈ first :: others, (axis.low q ≤ start ∨ axis.low q ≤ stop) ∧
      (start ≤ axis.high q ∨ stop ≤ axis.high q))
    (hr : r ∈ first :: others)
    (hbeside : axis.high r + room ≤ start ∨ start + room ≤ axis.low r) :
    (axis.high r < start ∧ axis.high r < router.bendAround axis start first others) ∨
      (start < axis.low r ∧ router.bendAround axis start first others < axis.low r) := by
  have hextent' := hhigh r hr
  have hleast := minimum_map_le axis.low hr
  have hgreatest := le_maximum_map axis.high hr
  simp only [bendAround, bend, abs_eq]
  rcases hbeside with hbefore | hafter
  · left
    refine ⟨by linarith, ?_⟩
    -- The line leads back to `r`, so nothing that it meets begins after the start.
    have hback : stop ≤ axis.high r := (hreach r hr).2.resolve_left (by linarith)
    have hnear : maximum (axis.high first) (others.map axis.high) ≤ start + extent := by
      refine maximum_map_le_iff.2 fun q hq => ?_
      rw [hhigh q hq]
      rcases (hreach q hq).1 with h | h <;> linarith
    split
    · next hlt =>
      exfalso
      have hdistance := le_abs_self (start - minimum (axis.low first) (others.map axis.low))
      rcases abs_cases (start - maximum (axis.high first) (others.map axis.high)) with
        ⟨h, -⟩ | ⟨h, -⟩ <;> linarith
    · linarith
  · right
    refine ⟨by linarith, ?_⟩
    -- The line leads on to `r`, so nothing that it meets ends before the start.
    have hon : axis.low r ≤ stop := (hreach r hr).1.resolve_left (by linarith)
    have hnear : start - extent ≤ minimum (axis.low first) (others.map axis.low) := by
      refine le_minimum_map_iff.2 fun q hq => ?_
      have hq' := hhigh q hq
      rcases (hreach q hq).2 with h | h <;> linarith
    split
    · linarith
    · next hle =>
      exfalso
      have hdistance := neg_le_abs (start - maximum (axis.high first) (others.map axis.high))
      rcases abs_cases (start - minimum (axis.low first) (others.map axis.low)) with
        ⟨h, -⟩ | ⟨h, -⟩ <;> linarith

end Router

/-! ## Slopes -/

/-- Along a line, room on the axis of the shorter travel means at least as much on the other. -/
theorem room_le_of_slope {d d' u room reach : Rat} (hu : 0 ≤ u) (hslope : |d| ≤ |d'|)
    (hroom : room ≤ |u * d|) (hreach : |u * d'| ≤ reach) : room ≤ reach := by
  calc room ≤ |u * d| := hroom
    _ = u * |d| := by rw [abs_mul, abs_of_nonneg hu]
    _ ≤ u * |d'| := mul_le_mul_of_nonneg_left hslope hu
    _ = |u * d'| := by rw [abs_mul, abs_of_nonneg hu]
    _ ≤ reach := hreach

/-- A line comes close to a box that its end has beside it, on the axis of the shorter travel, only
if the box reaches as far on the axis of the longer travel. -/
theorem Segment.Crosses.room_le {s : Segment Rat} {r : Rect Rat} {axis : Axis} {pad room : Rat}
    (h : s.Crosses (r.padded pad))
    (hslope : |axis.coord s.stop - axis.coord s.start| ≤
      |axis.other.coord s.stop - axis.other.coord s.start|)
    (hlow : axis.other.low r ≤ axis.other.coord s.stop)
    (hhigh : axis.other.coord s.stop ≤ axis.other.high r)
    (hbeside : axis.high r + room ≤ axis.coord s.stop ∨ axis.coord s.stop + room ≤ axis.low r) :
    room - pad ≤ axis.other.high r - axis.other.low r + pad := by
  rcases h with ⟨t, -, hlast, hcovers⟩
  have hshort := Axis.covers_iff.1 hcovers axis
  have hlong := Axis.covers_iff.1 hcovers axis.other
  rw [Axis.coord_pointAt, Axis.low_padded, Axis.high_padded] at hshort hlong
  -- The way that is left from the point near the box to the end.
  refine room_le_of_slope (sub_nonneg.2 hlast) hslope ?_ (abs_le.2 ⟨by linarith, by linarith⟩)
  rcases hbeside with hbeside | hbeside
  · refine le_trans ?_ (le_abs_self _)
    linarith
  · refine le_trans ?_ (neg_le_abs _)
    linarith

namespace Router

/-! ## Boxes with room between them -/

/-- All boxes have one size and leave more room between them than they are padded by. -/
structure Spread (router : Router Rat) (size gap : Size Rat) : Prop where
  padding_pos : 0 < router.obstaclePadding
  offset_pos : 0 < router.detourOffset
  size_nonneg : ∀ axis : Axis, 0 ≤ axis.extent size
  room : ∀ axis : Axis, router.obstaclePadding < axis.extent gap
  high : ∀ name r, (name, r) ∈ router.boxes →
    ∀ axis : Axis, axis.high r = axis.low r + axis.extent size
  apart : ∀ name r other r', (name, r) ∈ router.boxes → (other, r') ∈ router.boxes →
    name ≠ other → r.Apart r' gap

namespace Spread

variable {router : Router Rat} {size gap : Size Rat} {source target name : String}
  {line : Segment Rat} {r fromBox toBox : Rect Rat}

/-- The usual distances leave room between boxes that are more than four apart. -/
theorem ofBoxes {boxes : List (String × Rect Rat)} (hsize : ∀ axis : Axis, 0 ≤ axis.extent size)
    (hroom : ∀ axis : Axis, 4 < axis.extent gap)
    (hhigh : ∀ name r, (name, r) ∈ boxes →
      ∀ axis : Axis, axis.high r = axis.low r + axis.extent size)
    (hapart : ∀ name r other r', (name, r) ∈ boxes → (other, r') ∈ boxes → name ≠ other →
      r.Apart r' gap) : (Router.ofBoxes boxes).Spread size gap where
  padding_pos := show (0 : Rat) < 4 by decide
  offset_pos := show (0 : Rat) < 20 by decide
  size_nonneg := hsize
  room := hroom
  high := hhigh
  apart := hapart

/-- A line that comes close to a box has obstacles, the padded box among them. They are of one
size. -/
theorem exists_obstacles (h : router.Spread size gap) (hr : (name, r) ∈ router.boxes)
    (hsource : name ≠ source) (htarget : name ≠ target)
    (hcross : line.Crosses (r.padded router.obstaclePadding)) :
    ∃ first others, (router.obstacles source target line).map (·.2) = first :: others ∧
      r.padded router.obstaclePadding ∈ first :: others ∧
      ∀ q ∈ first :: others, line.Crosses q ∧ ∀ axis : Axis,
        axis.high q = axis.low q + (axis.extent size + 2 * router.obstaclePadding) := by
  have hobstacle := mem_obstacles_iff.2 ⟨r, hr, hsource, htarget, hcross, rfl⟩
  have hmem := List.mem_map_of_mem (f := (·.2)) hobstacle
  cases hrects : (router.obstacles source target line).map (·.2) with
  | nil => simp [hrects] at hmem
  | cons first others =>
    refine ⟨first, others, rfl, hrects ▸ hmem, fun q hq => ?_⟩
    rw [← hrects] at hq
    rcases List.mem_map.1 hq with ⟨⟨other, q⟩, hobstacle, rfl⟩
    rcases mem_obstacles_iff.1 hobstacle with ⟨frame, hframe, -, -, hcross, rfl⟩
    refine ⟨hcross, fun axis => ?_⟩
    have hhigh := h.high _ _ hframe axis
    rw [Axis.low_padded, Axis.high_padded]
    linarith

/-- The leg from the start to the bend, at the coordinate of the start. -/
theorem first_leg_clear (h : router.Spread size gap) (axis : Axis) {first : Rect Rat}
    {others : List (Rect Rat)} (hmem : r.padded router.obstaclePadding ∈ first :: others)
    (hall : ∀ q ∈ first :: others, line.Crosses q ∧ ∀ axis : Axis,
      axis.high q = axis.low q + (axis.extent size + 2 * router.obstaclePadding))
    (hapart : r.Apart fromBox gap) (hstart : fromBox.Covers line.start) :
    let bend := router.bendAround axis (axis.coord line.start) first others
    ¬(⟨line.start, axis.point bend (axis.other.coord line.start)⟩ : Segment Rat).Crosses
      (r.padded router.obstaclePadding) := by
  intro bend hleg
  have hlevel := hleg.reach axis.other
  rw [Axis.coord_other_point, or_self, or_self, Axis.low_padded, Axis.high_padded] at hlevel
  have hbeside := hapart.beside hstart (h.room axis.other) hlevel.1 hlevel.2
  have hextent : 0 < axis.extent size + 2 * router.obstaclePadding := by
    linarith [h.size_nonneg axis, h.padding_pos]
  refine Segment.not_crosses_of_beside axis ?_ hleg
  rw [Axis.coord_point]
  refine bend_clear h.offset_pos hextent (sub_pos.2 (h.room axis)) (fun q hq => (hall q hq).2 axis)
    (fun q hq => (hall q hq).1.reach axis) hmem ?_
  rw [Axis.low_padded, Axis.high_padded]
  rcases hbeside with hbeside | hbeside
  · left
    linarith
  · right
    linarith

/-- The leg from the bend to the stop, at the coordinate of the stop. -/
theorem last_leg_clear (h : router.Spread size gap) {axis : Axis}
    (hslope : |axis.coord line.stop - axis.coord line.start| ≤
      |axis.other.coord line.stop - axis.other.coord line.start|)
    (hcross : line.Crosses (r.padded router.obstaclePadding)) (hr : (name, r) ∈ router.boxes)
    (hapart : r.Apart toBox gap) (hstop : toBox.Covers line.stop)
    (hroom : axis.other.extent size + 2 * router.obstaclePadding < axis.extent gap) (bend : Rat) :
    ¬(⟨axis.point bend (axis.other.coord line.stop), line.stop⟩ : Segment Rat).Crosses r := by
  intro hleg
  have hlevel := hleg.reach axis.other
  rw [Axis.coord_other_point, or_self, or_self] at hlevel
  have hpadding := h.padding_pos
  have hbeside := hapart.beside hstop (h.room axis.other) (by linarith [hlevel.1])
    (by linarith [hlevel.2])
  have hle := hcross.room_le hslope hlevel.1 hlevel.2 hbeside
  have hhigh := h.high _ _ hr axis.other
  linarith

/-- A detour around a box that its straight line comes close to: the first two legs are clear even
of the padded box, and the last leg is clear of the box if there is room enough for the travel. -/
theorem detour_clear (h : router.Spread size gap)
    (hfrom : (source, fromBox) ∈ router.boxes) (hstart : fromBox.Covers line.start)
    (hto : (target, toBox) ∈ router.boxes) (hstop : toBox.Covers line.stop)
    (hr : (name, r) ∈ router.boxes) (hsource : name ≠ source) (htarget : name ≠ target)
    (hcross : line.Crosses (r.padded router.obstaclePadding)) :
    ∃ first middle last, (router.route source target line).path.legs = [first, middle, last] ∧
      ¬first.Crosses (r.padded router.obstaclePadding) ∧
      ¬middle.Crosses (r.padded router.obstaclePadding) ∧
      (line.bendAxis.other.extent size + 2 * router.obstaclePadding < line.bendAxis.extent gap →
        ¬last.Crosses r) := by
  rcases h.exists_obstacles hr hsource htarget hcross with ⟨first, others, hboxes, hmem, hall⟩
  have hfromApart := h.apart _ _ _ _ hr hfrom hsource
  have htoApart := h.apart _ _ _ _ hr hto htarget
  rw [path_route hboxes]
  refine ⟨_, _, _, rfl, ?_, ?_, ?_⟩
  · exact h.first_leg_clear _ hmem hall hfromApart hstart
  · refine Segment.not_crosses_of_beside line.bendAxis ?_
    rw [Axis.coord_point, Axis.coord_point, and_self, and_self]
    exact bend_beyond h.offset_pos _ _ hmem
  · intro hroom
    exact h.last_leg_clear line.abs_bendAxis_le hcross hr htoApart hstop hroom _

end Spread

end Router

end TextDiagram
