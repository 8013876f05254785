import TextDiagram.Proofs.Router
/-!
# What a route promises

A route lists the boxes that its straight line comes too close to. Without any it is the straight
line; otherwise it takes two corners, and between them it runs beside all of these boxes.

Main statements:

* `obstacles_eq_map_hits`: the obstacles of a line, in the order of the boxes.
* `goesAround_corners`: where the two corners of a detour are.
* `route_contract`: the obstacles and the points of any route.
-/

namespace TextDiagram

open Scalar

namespace Router

/-- The corners `p` and `q` lead a line around some boxes. The axis is the one along which the line
leaves its way: the middle leg runs along the axis of the longer travel, along y if both travels are
equally long. It keeps the offset from all boxes, on the side of their extent whose boundary is
nearer to the start, on the high side if both are equally near. -/
structure GoesAround (offset : Rat) (line : Segment Rat) (boxes : List (Rect Rat)) (axis : Axis)
    (p q : Point Rat) : Prop where
  axis_eq : axis =
    if |line.stop.x - line.start.x| ≤ |line.stop.y - line.start.y| then .x else .y
  first_leg : axis.other.coord p = axis.other.coord line.start
  middle_leg : axis.coord p = axis.coord q
  last_leg : axis.other.coord q = axis.other.coord line.stop
  beyond : ∀ r ∈ boxes,
    axis.coord p + offset ≤ axis.low r ∨ axis.high r + offset ≤ axis.coord p
  side : ∃ low high, IsLeast {a | ∃ r ∈ boxes, axis.low r = a} low ∧
    IsGreatest {a | ∃ r ∈ boxes, axis.high r = a} high ∧
    axis.coord p =
      if |axis.coord line.start - low| < |axis.coord line.start - high| then low - offset
      else high + offset

variable (router : Router Rat) (source target : String) (line : Segment Rat)

/-- The boxes that a line comes too close to, other than those it joins. -/
def hits : List (String × Rect Rat) :=
  router.boxes.filter fun box => box.1 ≠ source ∧ box.1 ≠ target ∧
    line.Crosses (box.2.padded router.obstaclePadding)

/-- The obstacles are the padded frames of the boxes that the line comes too close to. -/
theorem obstacles_eq_map_hits : router.obstacles source target line =
    (router.hits source target line).map fun box =>
      (box.1, box.2.padded router.obstaclePadding) := by
  unfold obstacles hits
  rw [← List.filterMap_eq_filter, List.map_filterMap]
  refine List.filterMap_congr fun box _ => ?_
  simp only [Option.guard, decide_eq_true_eq, ← Segment.meets_iff, ne_eq, ← and_assoc, ← not_or]
  -- The two ends are never obstacles, other boxes are if the line meets them.
  by_cases hends : box.1 = source ∨ box.1 = target
  · rw [if_pos hends, if_neg fun h => h.1 hends]
    rfl
  · rw [if_neg hends]
    by_cases hmeets : line.meets (box.2.padded router.obstaclePadding) = true
    · rw [if_pos hmeets, if_pos ⟨hends, hmeets⟩]
      rfl
    · rw [if_neg hmeets, if_neg fun h => hmeets h.2]
      rfl

/-- A route lists the names of those boxes. -/
theorem obstacles_route : (router.route source target line).obstacles =
    (router.hits source target line).map (·.1) := by
  have hnames : (router.route source target line).obstacles =
      (router.obstacles source target line).map (·.1) := by
    unfold route
    split <;> simp [*]
  rw [hnames, obstacles_eq_map_hits, List.map_map]
  rfl

variable {router source target line}

/-- Without obstacles the route is straight. -/
theorem points_route_of_hits_eq_nil (h : router.hits source target line = []) :
    (router.route source target line).path.points = [line.start, line.stop] := by
  have hnone : router.obstacles source target line = [] := by
    rw [obstacles_eq_map_hits, h, List.map_nil]
  simp only [route, hnone]
  rfl

/-- The bend is beyond every box, on the side that is nearer to the start. -/
theorem goesAround_corners (first : Rect Rat) (others : List (Rect Rat)) :
    let axis := line.bendAxis
    let bend := router.bendAround axis (axis.coord line.start) first others
    GoesAround router.detourOffset line (first :: others) axis
      (axis.point bend (axis.other.coord line.start))
      (axis.point bend (axis.other.coord line.stop)) := by
  intro axis bend
  refine ⟨rfl, ?_, ?_, ?_, ?_, ?_⟩
  · exact Axis.coord_other_point _ _ _
  · rw [Axis.coord_point, Axis.coord_point]
  · exact Axis.coord_other_point _ _ _
  · intro r hr
    rw [Axis.coord_point]
    -- The bend keeps the offset from each box, as it does from their extent.
    exact bend_offset axis _ hr
  · refine ⟨_, _, isLeast_minimum_map axis.low first others,
      isGreatest_maximum_map axis.high first others, ?_⟩
    rw [Axis.coord_point]
    simp only [bend, bendAround, Router.bend, Scalar.abs_eq]

/-- With obstacles the route goes around all of them. -/
theorem exists_goesAround_of_hits_ne_nil (h : router.hits source target line ≠ []) :
    ∃ axis p q, (router.route source target line).path.points = [line.start, p, q, line.stop] ∧
      GoesAround router.detourOffset line ((router.hits source target line).map fun box =>
        box.2.padded router.obstaclePadding) axis p q := by
  have hrects : (router.obstacles source target line).map (·.2) =
      (router.hits source target line).map fun box => box.2.padded router.obstaclePadding := by
    rw [obstacles_eq_map_hits, List.map_map]
    rfl
  have hsome : (router.obstacles source target line).map (·.2) ≠ [] := by
    rw [hrects]
    simpa using h
  rcases List.exists_cons_of_ne_nil hsome with ⟨first, others, hcons⟩
  rw [← hrects, hcons]
  refine ⟨_, _, _, ?_, goesAround_corners first others⟩
  rw [path_route hcons]
  rfl

/-- A route lists, in their order, the boxes other than its own two whose padded rectangles cross
the straight line. Without any it is the straight line; otherwise it has two corners that lead
around all of them. -/
theorem route_contract (router : Router Rat) (source target : String) (line : Segment Rat) :
    (router.route source target line).obstacles =
        (router.hits source target line).map (·.1) ∧
      (router.hits source target line = [] →
        (router.route source target line).path.points = [line.start, line.stop]) ∧
      (router.hits source target line ≠ [] → ∃ axis p q,
        (router.route source target line).path.points = [line.start, p, q, line.stop] ∧
          GoesAround router.detourOffset line ((router.hits source target line).map fun box =>
            box.2.padded router.obstaclePadding) axis p q) :=
  ⟨obstacles_route router source target line, points_route_of_hits_eq_nil,
    exists_goesAround_of_hits_ne_nil⟩

/-- A line down through the middle of a box, which is as near on the left as on the right, and past
another one. -/
theorem route_contract_on_tie :
    let router : Router Rat :=
      ⟨4, 20, [("A", ⟨-50, -20, 50, 0⟩), ("B", ⟨-30, 40, 30, 60⟩), ("C", ⟨200, 40, 260, 60⟩),
        ("D", ⟨-50, 100, 50, 120⟩)]⟩
    let line : Segment Rat := ⟨⟨0, 0⟩, ⟨0, 100⟩⟩
    (router.route "A" "D" line).obstacles = ["B"] ∧
      (router.route "A" "C" ⟨⟨50, 0⟩, ⟨200, 40⟩⟩).path.points = [⟨50, 0⟩, ⟨200, 40⟩] ∧
      ∃ axis p q, (router.route "A" "D" line).path.points = [⟨0, 0⟩, p, q, ⟨0, 100⟩] ∧
        GoesAround 20 line [⟨-34, 36, 34, 64⟩] axis p q := by
  intro router line
  have hhits : router.hits "A" "D" line = [("B", ⟨-30, 40, 30, 60⟩)] := by decide +kernel
  have hnone : router.hits "A" "C" ⟨⟨50, 0⟩, ⟨200, 40⟩⟩ = [] := by decide +kernel
  have hpadded : (⟨-30, 40, 30, 60⟩ : Rect Rat).padded 4 = ⟨-34, 36, 34, 64⟩ := by decide +kernel
  have h := route_contract router "A" "D" line
  have h' := route_contract router "A" "C" ⟨⟨50, 0⟩, ⟨200, 40⟩⟩
  rw [hhits] at h
  refine ⟨h.1, h'.2.1 hnone, ?_⟩
  rw [← hpadded]
  exact h.2.2 (by simp)

end Router

end TextDiagram
