import Mathlib.Tactic.Ring
import TextDiagram.Proofs.Router
/-!
# What fits a canvas

A canvas is made as large as its frames ask for and leaves a margin on the right and at the bottom.
The ways of edges are not looked at. They leave the frames only to get around a box, and then they
keep to the margin if it is as wide as the distances that a router keeps.

Main statements:

* `contains_of_mem_frames`: the frames that a canvas was made for.
* `Router.bendAround_within`: how far a detour leads beyond its obstacles.
* `Router.Inside.covers_way`: the way of an edge between two frames, and its label.
* `CellGrid.padding_le_low`, `CellGrid.exists_at_padding`: where the cells of a grid begin.
-/

namespace TextDiagram

open TextDiagram.Graph Scalar

/-- The part of a canvas that is at least a margin away from its border. -/
def Size.inner (size : Size Rat) (margin : Rat) : Rect Rat :=
  ⟨margin, margin, size.width - margin, size.height - margin⟩

namespace Axis

@[simp] theorem low_inner (axis : Axis) (size : Size Rat) (margin : Rat) :
    axis.low (size.inner margin) = margin := by
  cases axis <;> rfl

@[simp] theorem high_inner (axis : Axis) (size : Size Rat) (margin : Rat) :
    axis.high (size.inner margin) = axis.extent size - margin := by
  cases axis <;> rfl

/-- A frame contains another one if it does along both axes. -/
theorem contains_iff {outer inner : Rect Rat} : outer.Contains inner ↔
    ∀ axis : Axis, axis.low outer ≤ axis.low inner ∧ axis.high inner ≤ axis.high outer := by
  constructor
  · intro h axis
    cases axis with
    | x => exact ⟨h.left, h.right⟩
    | y => exact ⟨h.top, h.bottom⟩
  · intro h
    exact ⟨(h x).1, (h y).1, (h x).2, (h y).2⟩

/-- A frame covers a point if it does along both axes. -/
theorem covers_point_iff {r : Rect Rat} (axis : Axis) {a b : Rat} :
    r.Covers (axis.point a b) ↔ (axis.low r ≤ a ∧ a ≤ axis.high r) ∧
      axis.other.low r ≤ b ∧ b ≤ axis.other.high r := by
  rw [covers_iff]
  cases axis with
  | x => exact ⟨fun h => ⟨h .x, h .y⟩, fun h axis => by cases axis; exacts [h.1, h.2]⟩
  | y => exact ⟨fun h => ⟨h .y, h .x⟩, fun h axis => by cases axis; exacts [h.2, h.1]⟩

theorem low_le_high {r : Rect Rat} (h : r.Valid) (axis : Axis) : axis.low r ≤ axis.high r := by
  cases axis with
  | x => exact h.width
  | y => exact h.height

end Axis

/-- A smaller margin leaves more of a canvas. -/
theorem Size.inner_contains_inner (size : Size Rat) {margin more : Rat} (h : margin ≤ more) :
    (size.inner margin).Contains (size.inner more) := by
  refine Axis.contains_iff.2 fun axis => ?_
  rw [Axis.low_inner, Axis.low_inner, Axis.high_inner, Axis.high_inner]
  constructor <;> linarith

/-! ## Frames -/

/-- A canvas that is made for some frames leaves the margin behind each of them. -/
theorem high_add_le_extent_canvasSize {frames : List (Rect Rat)} {r : Rect Rat} (hr : r ∈ frames)
    (margin : Rat) (axis : Axis) :
    axis.high r + margin ≤ axis.extent (canvasSize frames margin) := by
  cases frames with
  | nil => simp at hr
  | cons first others =>
    -- The canvas is measured from the top left corner, along each axis up to the farthest frame.
    have hextent : axis.extent (canvasSize (first :: others) margin) =
        maximum (axis.high first) (others.map axis.high) + margin := by
      cases axis <;> rfl
    have hmaximum := le_maximum_map axis.high hr
    rw [hextent]
    linarith

/-- A canvas holds the frames that it was made for, if none of them starts inside the margin. -/
theorem contains_of_mem_frames {frames : List (Rect Rat)} {margin : Rat} {r : Rect Rat}
    (hr : r ∈ frames) (hlow : ∀ axis : Axis, margin ≤ axis.low r) :
    ((canvasSize frames margin).inner margin).Contains r := by
  refine Axis.contains_iff.2 fun axis => ?_
  rw [Axis.low_inner, Axis.high_inner]
  have hhigh := high_add_le_extent_canvasSize hr margin axis
  exact ⟨hlow axis, by linarith⟩

/-! ## Ways around boxes -/

namespace Router

theorem path_route_of_nil {router : Router Rat} {source target : String} {line : Segment Rat}
    (h : (router.obstacles source target line).map (·.2) = []) :
    (router.route source target line).path = Path.straight line := by
  rw [List.map_eq_nil_iff] at h
  unfold route
  rw [h]

/-- A detour leads not farther than the offset beyond the obstacles. -/
theorem bendAround_within {router : Router Rat} (hoffset : 0 ≤ router.detourOffset) {axis : Axis}
    {first : Rect Rat} {others : List (Rect Rat)} {low high : Rat}
    (h : ∀ q ∈ first :: others, low ≤ axis.low q ∧ axis.low q ≤ axis.high q ∧ axis.high q ≤ high)
    (start : Rat) :
    low - router.detourOffset ≤ router.bendAround axis start first others ∧
      router.bendAround axis start first others ≤ high + router.detourOffset := by
  have hfirst := h first List.mem_cons_self
  have hlow : low ≤ minimum (axis.low first) (others.map axis.low) :=
    le_minimum_map_iff.2 fun q hq => (h q hq).1
  have hhigh : maximum (axis.high first) (others.map axis.high) ≤ high :=
    maximum_map_le_iff.2 fun q hq => (h q hq).2.2
  have hleast : minimum (axis.low first) (others.map axis.low) ≤ axis.low first :=
    minimum_map_le axis.low List.mem_cons_self
  have hgreatest : axis.high first ≤ maximum (axis.high first) (others.map axis.high) :=
    le_maximum_map axis.high List.mem_cons_self
  unfold bendAround bend
  split
  · constructor <;> linarith
  · constructor <;> linarith

/-- The boxes of a router leave a margin free on a canvas, as wide as the distances it keeps. -/
structure Inside (router : Router Rat) (canvas : Size Rat) (margin : Rat) : Prop where
  padding_nonneg : 0 ≤ router.obstaclePadding
  offset_nonneg : 0 ≤ router.detourOffset
  room : router.obstaclePadding + router.detourOffset ≤ margin
  valid : ∀ name r, (name, r) ∈ router.boxes → r.Valid
  box : ∀ name r, (name, r) ∈ router.boxes → (canvas.inner margin).Contains r

namespace Inside

variable {router : Router Rat} {canvas : Size Rat} {margin : Rat} {source target : String}
  {line : Segment Rat}

/-- With a margin of 24 there is room for the usual padding and offset of a detour. -/
theorem ofBoxes {boxes : List (String × Rect Rat)} (hmargin : 24 ≤ margin)
    (hvalid : ∀ name r, (name, r) ∈ boxes → r.Valid)
    (hbox : ∀ name r, (name, r) ∈ boxes → (canvas.inner margin).Contains r) :
    (Router.ofBoxes boxes).Inside canvas margin where
  padding_nonneg := show (0 : Rat) ≤ 4 by decide
  offset_nonneg := show (0 : Rat) ≤ 20 by decide
  room := show (4 : Rat) + 20 ≤ margin by linarith
  valid := hvalid
  box := hbox

theorem margin_nonneg (h : router.Inside canvas margin) : 0 ≤ margin := by
  have hpadding := h.padding_nonneg
  have hoffset := h.offset_nonneg
  have hroom := h.room
  linarith

/-- The coordinate at which a line bends is one of the canvas. -/
theorem bendAround_mem (h : router.Inside canvas margin) {first : Rect Rat}
    {others : List (Rect Rat)}
    (hrects : (router.obstacles source target line).map (·.2) = first :: others) (axis : Axis)
    (start : Rat) :
    0 ≤ router.bendAround axis start first others ∧
      router.bendAround axis start first others ≤ axis.extent canvas := by
  -- The bend is taken at padded frames, which reach into the margin by the padding at most.
  have hall : ∀ q ∈ first :: others, margin - router.obstaclePadding ≤ axis.low q ∧
      axis.low q ≤ axis.high q ∧
      axis.high q ≤ axis.extent canvas - margin + router.obstaclePadding := by
    intro q hq
    rw [← hrects] at hq
    rcases List.mem_map.1 hq with ⟨⟨name, q⟩, hobstacle, rfl⟩
    rcases mem_obstacles_iff.1 hobstacle with ⟨frame, hframe, -, -, -, rfl⟩
    have hpadding := h.padding_nonneg
    have hvalid := Axis.low_le_high (h.valid _ _ hframe) axis
    have hbox := Axis.contains_iff.1 (h.box _ _ hframe) axis
    rw [Axis.low_inner, Axis.high_inner] at hbox
    rw [Axis.low_padded, Axis.high_padded]
    refine ⟨?_, ?_, ?_⟩ <;> linarith
  have hwithin := bendAround_within h.offset_nonneg hall start
  have hroom := h.room
  constructor <;> linarith

/-- All points of a way between two points in the margin are points of the canvas. -/
theorem covers_of_mem_points (h : router.Inside canvas margin)
    (hstart : (canvas.inner margin).Covers line.start)
    (hstop : (canvas.inner margin).Covers line.stop) {p : Point Rat}
    (hp : p ∈ (router.route source target line).path.points) : (canvas.inner 0).Covers p := by
  have hinner := canvas.inner_contains_inner h.margin_nonneg
  have hstart' := hinner.covers hstart
  have hstop' := hinner.covers hstop
  cases hrects : (router.obstacles source target line).map (·.2) with
  | nil =>
    rw [path_route_of_nil hrects] at hp
    simp only [Path.points, Path.straight, List.nil_append, List.mem_cons, List.not_mem_nil,
      List.cons_append, or_false] at hp
    rcases hp with rfl | rfl
    · exact hstart'
    · exact hstop'
  | cons first others =>
    rw [path_route hrects] at hp
    simp only [Path.points, List.cons_append, List.nil_append, List.mem_cons, List.not_mem_nil,
      or_false] at hp
    have hbend := h.bendAround_mem hrects line.bendAxis (line.bendAxis.coord line.start)
    -- A corner has one coordinate of the bend and one of an end.
    have hcorner : ∀ q, (canvas.inner 0).Covers q → (canvas.inner 0).Covers
        (line.bendAxis.point
          (router.bendAround line.bendAxis (line.bendAxis.coord line.start) first others)
          (line.bendAxis.other.coord q)) := by
      intro q hq
      refine (Axis.covers_point_iff line.bendAxis).2 ⟨?_, Axis.covers_iff.1 hq _⟩
      rw [Axis.low_inner, Axis.high_inner, sub_zero]
      exact hbend
    rcases hp with rfl | rfl | rfl | rfl
    · exact hstart'
    · exact hcorner _ hstart'
    · exact hcorner _ hstop'
    · exact hstop'

end Inside

/-- The label of a way stands not more than ten above the margin. -/
theorem covers_labelPosition {router : Router Rat} {canvas : Size Rat} {margin : Rat}
    (hmargin : 10 ≤ margin) {source target : String} {line : Segment Rat}
    (hstart : (canvas.inner margin).Covers line.start)
    (hstop : (canvas.inner margin).Covers line.stop) :
    (canvas.inner 0).Covers (router.route source target line).labelPosition := by
  rw [Route.labelPosition, ends_route]
  rcases hstart with ⟨hleft, hright, htop, hbottom⟩
  rcases hstop with ⟨hleft', hright', htop', hbottom'⟩
  simp only [Size.inner] at hleft hright htop hbottom hleft' hright' htop' hbottom'
  constructor <;> simp only [Size.inner, Segment.midpoint, Point.lifted] <;> linarith

/-- The way of an edge between two boxes that leave a margin, and the place of its label if it has one,
are on the canvas. -/
theorem Inside.covers_way {boxes : List (String × Rect Rat)} {canvas : Size Rat} {margin : Rat}
    (h : (Router.ofBoxes boxes).Inside canvas margin) {source target : String} {a b : Rect Rat}
    (hsource : Keyed.value? boxes source = some a) (htarget : Keyed.value? boxes target = some b)
    (grid : CellGrid Rat) (label : Option String) :
    let route := (Router.ofBoxes boxes).route source target (grid.anchors a b)
    (∀ p ∈ route.path.points, (canvas.inner 0).Covers p) ∧
      ∀ p ∈ label.map fun _ => route.labelPosition, (canvas.inner 0).Covers p := by
  intro route
  have hfrom := Keyed.mem_of_value? hsource
  have hto := Keyed.mem_of_value? htarget
  have hsides := Rect.anchors_mem_sideMiddles a b grid
  have hstart := (h.box _ _ hfrom).covers ((h.valid _ _ hfrom).covers hsides.1)
  have hstop := (h.box _ _ hto).covers ((h.valid _ _ hto).covers hsides.2)
  have hmargin : 10 ≤ margin := by
    have hroom : (4 : Rat) + 20 ≤ margin := h.room
    linarith
  refine ⟨fun p hp => h.covers_of_mem_points hstart hstop hp, fun p hp => ?_⟩
  rcases Option.map_eq_some_iff.1 hp with ⟨_, -, rfl⟩
  exact covers_labelPosition hmargin hstart hstop

end Router

/-! ## Cells -/

namespace CellGrid

variable (grid : CellGrid Rat) {names : List String} {edges : List (String × String)}
  {sizes : List (String × Size Rat)}

theorem slot_nonneg {layerCount layer : Nat} (h : layer < layerCount) (position : Nat)
    (axis : Axis) : 0 ≤ grid.slot layerCount layer position axis := by
  unfold slot
  cases axis <;> dsimp only <;> split <;> (try split) <;> omega

/-- No frame starts before the padding ends, if no node is larger than a cell. -/
theorem padding_le_low
    (hstep : ∀ axis : Axis, 0 ≤ axis.extent grid.cell + axis.extent grid.spacing)
    (hsizes : ∀ name, ∀ axis : Axis,
      axis.extent (grid.nodeSize sizes name) ≤ axis.extent grid.cell)
    {node : PlacedNode Rat} (hnode : node ∈ (grid.place names edges sizes).nodes) (axis : Axis) :
    grid.padding ≤ axis.low node.frame := by
  rcases (mem_nodes_place_iff grid names edges sizes).1 hnode with ⟨row, hrow, -, hframe⟩
  have hlayer := (List.getElem?_eq_some_iff.1 hrow).1
  have hslot : (0 : Rat) ≤ grid.slot (grid.place names edges sizes).layers.length node.layer
      node.position axis := by exact_mod_cast grid.slot_nonneg hlayer node.position axis
  have hmul := mul_nonneg hslot (hstep axis)
  have hsize := hsizes node.name axis
  have hpadding : axis.coord (⟨grid.padding, grid.padding⟩ : Point Rat) = grid.padding := by
    cases axis <;> rfl
  rw [hframe, low_frame, coord_origin, hpadding]
  linarith

/-- A node stands in the first cell, counted on both axes. -/
theorem exists_slot_eq_zero (edges : List (String × String)) (sizes : List (String × Size Rat))
    {name : String} (hname : name ∈ names) :
    ∃ node ∈ (grid.place names edges sizes).nodes, ∀ axis : Axis,
      grid.slot (grid.place names edges sizes).layers.length node.layer node.position axis = 0 := by
  have wf := wellFormed_ofEdges names edges
  have hmem := (mem_names_place grid names edges sizes).2 (Or.inl hname)
  rw [names_place] at hmem
  rcases List.mem_flatten.1 hmem with ⟨row, hrow, -⟩
  have hcount := List.length_pos_of_mem hrow
  -- The first layer is the last one if layers are counted from the far side.
  obtain ⟨layer, hlayer, hzero⟩ : ∃ layer,
      layer < (grid.place names edges sizes).layers.length ∧ ∀ axis : Axis,
        grid.slot (grid.place names edges sizes).layers.length layer 0 axis = 0 := by
    by_cases hreversed : grid.direction.isReversed = true
    · refine ⟨(grid.place names edges sizes).layers.length - 1, by omega, fun axis => ?_⟩
      unfold slot
      cases axis <;> simp only [hreversed, if_true] <;> split <;> omega
    · refine ⟨0, hcount, fun axis => ?_⟩
      unfold slot
      cases axis <;> simp [hreversed]
  have hne : (grid.place names edges sizes).layers[layer] ≠ [] := by
    refine (layered_ownLayering wf).layer_ne_nil (nodup_order wf) ?_
    rw [← layers_place grid names edges sizes]
    exact List.getElem_mem hlayer
  rcases List.exists_cons_of_ne_nil hne with ⟨first, others, hfirst⟩
  have hrow : (grid.place names edges sizes).layers[layer]? = some (first :: others) := by
    rw [List.getElem?_eq_getElem hlayer, hfirst]
  refine ⟨⟨first, layer, 0, grid.frame (grid.place names edges sizes).layers.length layer 0
    (grid.nodeSize sizes first)⟩, ?_, hzero⟩
  exact (mem_nodes_place_iff grid names edges sizes).2 ⟨_, hrow, rfl, rfl⟩

/-- A node that fills its cell starts where the padding ends, on both axes. -/
theorem exists_at_padding (edges : List (String × String)) {name : String} (hname : name ∈ names) :
    ∃ node ∈ (grid.place names edges []).nodes, ∀ axis : Axis,
      axis.low node.frame = grid.padding := by
  rcases grid.exists_slot_eq_zero edges [] hname with ⟨node, hnode, hslot⟩
  refine ⟨node, hnode, fun axis => ?_⟩
  rcases (mem_nodes_place_iff grid names edges []).1 hnode with ⟨row, -, -, hframe⟩
  have hpadding : axis.coord (⟨grid.padding, grid.padding⟩ : Point Rat) = grid.padding := by
    cases axis <;> rfl
  rw [hframe, low_frame, coord_origin, hslot axis, hpadding, nodeSize_nil]
  ring

end CellGrid

end TextDiagram
