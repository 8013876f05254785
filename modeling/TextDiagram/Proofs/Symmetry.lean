import Mathlib.Tactic.Ring
import TextDiagram.Proofs.Flow
/-!
# The directions of one placement

The five directions differ only in how a placed graph lies on the canvas. The opposite direction
mirrors it in the middle line of its layers, and a direction across turns rows into columns. Both
are motions of the canvas, and a motion that carries the frames of the nodes carries the lines of
the edges with them.

Main statements:

* `Motion.carries_of`: what has to be checked of a motion, cell by cell.
* `CellGrid.carries_opposite`: the opposite direction is the mirror image.
* `CellGrid.carries_transposed`: the direction across is the transpose, with the widths and heights
  of the grid and of the nodes exchanged.
* `CellGrid.directions_are_symmetries`: how the five directions are related.
-/

namespace TextDiagram

open TextDiagram.Graph

/-! ## Motions -/

/-- A motion of the canvas. Rectangles go where their points go. -/
structure Motion where
  point : Point Rat → Point Rat
  rect : Rect Rat → Rect Rat
  covers_iff : ∀ r p, (rect r).Covers (point p) ↔ r.Covers p

namespace Motion

/-- Nothing is moved. -/
def identity : Motion := ⟨id, id, fun _ _ => Iff.rfl⟩

/-- The mirror image along an axis: a coordinate and that of its image add up to the sum. -/
def mirror : Axis → Rat → Motion
  | .x, sum =>
    { point := fun p => ⟨sum - p.x, p.y⟩
      rect := fun r => ⟨sum - r.right, r.top, sum - r.left, r.bottom⟩
      covers_iff := fun _ _ =>
        ⟨fun h => ⟨(sub_le_sub_iff_left sum).1 h.right, (sub_le_sub_iff_left sum).1 h.left, h.top,
          h.bottom⟩,
        fun h => ⟨sub_le_sub_left h.right sum, sub_le_sub_left h.left sum, h.top, h.bottom⟩⟩ }
  | .y, sum =>
    { point := fun p => ⟨p.x, sum - p.y⟩
      rect := fun r => ⟨r.left, sum - r.bottom, r.right, sum - r.top⟩
      covers_iff := fun _ _ =>
        ⟨fun h => ⟨h.left, h.right, (sub_le_sub_iff_left sum).1 h.bottom,
          (sub_le_sub_iff_left sum).1 h.top⟩,
        fun h => ⟨h.left, h.right, sub_le_sub_left h.bottom sum, sub_le_sub_left h.top sum⟩⟩ }

/-- The two axes are exchanged. -/
def transpose : Motion where
  point p := ⟨p.y, p.x⟩
  rect r := ⟨r.top, r.left, r.bottom, r.right⟩
  covers_iff _ _ :=
    ⟨fun h => ⟨h.top, h.bottom, h.left, h.right⟩, fun h => ⟨h.top, h.bottom, h.left, h.right⟩⟩

/-- A segment goes where its ends go. -/
def segment (m : Motion) (s : Segment Rat) : Segment Rat := ⟨m.point s.start, m.point s.stop⟩

end Motion

namespace Axis

variable (axis found : Axis) (sum : Rat) (r : Rect Rat)

/-- Mirroring makes the low end of a frame the high end, along one axis. -/
theorem low_mirror : axis.low ((Motion.mirror found sum).rect r) =
    if axis = found then sum - axis.high r else axis.low r := by
  cases axis <;> cases found <;> rfl

/-- Mirroring makes the high end of a frame the low end, along one axis. -/
theorem high_mirror : axis.high ((Motion.mirror found sum).rect r) =
    if axis = found then sum - axis.low r else axis.high r := by
  cases axis <;> cases found <;> rfl

/-- Transposing exchanges the axes of the low ends. -/
@[simp] theorem low_transpose : axis.low (Motion.transpose.rect r) = axis.other.low r := by
  cases axis <;> rfl

/-- Transposing exchanges the axes of the high ends. -/
@[simp] theorem high_transpose : axis.high (Motion.transpose.rect r) = axis.other.high r := by
  cases axis <;> rfl

/-- Frames with the same ends along both axes are the same. -/
theorem rect_eq {a b : Rect Rat} (hlow : ∀ axis : Axis, axis.low a = axis.low b)
    (hhigh : ∀ axis : Axis, axis.high a = axis.high b) : a = b := by
  cases a
  cases b
  rw [Rect.mk.injEq]
  exact ⟨hlow x, hlow y, hhigh x, hhigh y⟩

end Axis

/-! ## Moving a placed graph -/

/-- The node on the same layer and position, with its frame moved. -/
def Motion.movedNode (m : Motion) (node : PlacedNode Rat) : PlacedNode Rat :=
  { node with frame := m.rect node.frame }

/-- The placement with every frame moved. -/
def Placement.moved (m : Motion) (p : Placement Rat) : Placement Rat :=
  { p with nodes := p.nodes.map m.movedNode }

/-- Moving a placement moves its frames and keeps their names. -/
theorem Placement.frames_moved (m : Motion) (p : Placement Rat) :
    (p.moved m).frames = p.frames.map fun entry => (entry.1, m.rect entry.2) := by
  simp only [Placement.frames, Placement.moved, List.map_map]
  rfl

/-- The straight line of an edge between the frames of its two ends. -/
def CellGrid.line? {α : Type} [Scalar α] (grid : CellGrid α) (p : Placement α)
    (edge : String × String) : Option (Segment α) :=
  (Keyed.value? p.frames edge.1).bind fun source =>
    (Keyed.value? p.frames edge.2).map fun target => grid.anchors source target

/-- A motion carries a placed graph onto the one with another grid and other sizes: the frames of
all nodes and the lines of all edges. -/
structure Motion.Carries (m : Motion) (names : List String) (edges : List (String × String))
    (grid : CellGrid Rat) (sizes : List (String × Size Rat))
    (grid' : CellGrid Rat) (sizes' : List (String × Size Rat)) : Prop where
  place : grid'.place names edges sizes' = (grid.place names edges sizes).moved m
  line : ∀ edge ∈ edges, ∃ s, grid.line? (grid.place names edges sizes) edge = some s ∧
    grid'.line? (grid'.place names edges sizes') edge = some (m.segment s)

namespace Motion

variable {m : Motion} {grid grid' : CellGrid Rat} {names : List String}
  {edges : List (String × String)} {sizes sizes' : List (String × Size Rat)}

/-- Placements are moved as a whole if the frames of all cells are. -/
theorem place_eq_moved
    (hframe : ∀ layer position name,
      grid'.frame (grid.place names edges sizes).layers.length layer position
          (grid'.nodeSize sizes' name) =
        m.rect (grid.frame (grid.place names edges sizes).layers.length layer position
          (grid.nodeSize sizes name))) :
    grid'.place names edges sizes' = (grid.place names edges sizes).moved m := by
  -- Layer by layer the nodes are those of the other grid, moved.
  have hrow : grid'.placeLayer sizes' (grid.place names edges sizes).layers.length =
      fun layer row =>
        (grid.placeLayer sizes (grid.place names edges sizes).layers.length layer row).map
          (movedNode m) := by
    funext layer row
    simp only [CellGrid.placeLayer, map_mapIdx]
    congr 1
    funext position name
    exact congrArg (PlacedNode.mk name layer position) (hframe layer position name)
  have hnodes : (grid'.place names edges sizes').nodes =
      (grid.place names edges sizes).nodes.map (movedNode m) := by
    calc (grid'.place names edges sizes').nodes
        = ((grid.place names edges sizes).layers.mapIdx
            (grid'.placeLayer sizes' (grid.place names edges sizes).layers.length)).flatten := rfl
      _ = (((grid.place names edges sizes).layers.mapIdx (grid.placeLayer sizes
            (grid.place names edges sizes).layers.length)).map
              (List.map (movedNode m))).flatten := by rw [hrow, map_mapIdx]
      _ = (grid.place names edges sizes).nodes.map (movedNode m) := List.map_flatten.symm
  -- The motion concerns only the nodes.
  exact congrArg (fun nodes => { grid.place names edges sizes with nodes := nodes }) hnodes

/-- A motion carries a placed graph if it carries every node from cell to cell and the anchors of
any two rectangles with the rectangles. -/
theorem carries_of
    (hframe : ∀ layer position name,
      grid'.frame (grid.place names edges sizes).layers.length layer position
          (grid'.nodeSize sizes' name) =
        m.rect (grid.frame (grid.place names edges sizes).layers.length layer position
          (grid.nodeSize sizes name)))
    (hanchors : ∀ a b, grid'.anchors (m.rect a) (m.rect b) = m.segment (grid.anchors a b)) :
    m.Carries names edges grid sizes grid' sizes' := by
  have hplace := place_eq_moved hframe
  refine ⟨hplace, fun edge hedge => ?_⟩
  have wf := wellFormed_ofEdges names edges
  rcases grid.exists_placed sizes (wf.source_mem edge.1 edge.2 hedge) with ⟨n, -, -, hsource⟩
  rcases grid.exists_placed sizes (wf.target_mem edge.1 edge.2 hedge) with ⟨t, -, -, htarget⟩
  refine ⟨grid.anchors n.frame t.frame, ?_, ?_⟩
  · simp only [CellGrid.line?, hsource, htarget, Option.bind_some, Option.map_some]
  · simp only [CellGrid.line?, hplace, Placement.frames_moved, Keyed.value?_map, hsource, htarget,
      Option.map_some, Option.bind_some, hanchors]

end Motion

/-! ## Opposite directions -/

/-- The direction with the layers counted from the other side. -/
def Direction.opposite : Direction → Direction
  | .topDown | .topBottom => .bottomTop
  | .bottomTop => .topDown
  | .leftRight => .rightLeft
  | .rightLeft => .leftRight

namespace CellGrid

variable (grid : CellGrid Rat)

/-- The same grid with its layers in another direction. -/
def along {α : Type} (grid : CellGrid α) (direction : Direction) : CellGrid α :=
  { grid with direction := direction }

/-- The sum of the two ends of some cells in a row, from the first to the last. -/
def endsSum (axis : Axis) (count : Nat) : Rat :=
  2 * grid.padding + ((count : Rat) - 1) * (axis.extent grid.cell + axis.extent grid.spacing) +
    axis.extent grid.cell

/-- Only the layers are counted from the other side. -/
theorem slot_opposite (count layer position : Nat) (axis : Axis) :
    (grid.along grid.direction.opposite).slot count layer position axis =
      if axis = flowAxis grid.direction then (count : Int) - 1 - grid.slot count layer position axis
      else grid.slot count layer position axis := by
  unfold slot along flowAxis
  cases grid.direction <;> cases axis <;>
    simp [Direction.opposite, Direction.isHorizontal, Direction.isReversed]

/-- Against the direction the frames are mirrored between the ends of the grid. -/
theorem low_frame_opposite (count layer position : Nat) (size : Size Rat) (axis : Axis) :
    axis.low ((grid.along grid.direction.opposite).frame count layer position size) =
      if axis = flowAxis grid.direction then
        grid.endsSum axis count - axis.high (grid.frame count layer position size)
      else axis.low (grid.frame count layer position size) := by
  have hpadding : axis.coord ⟨grid.padding, grid.padding⟩ = grid.padding := by cases axis <;> rfl
  rw [low_frame, high_frame, low_frame, coord_origin, coord_origin, slot_opposite]
  show axis.coord ⟨grid.padding, grid.padding⟩ +
    _ * (axis.extent grid.cell + axis.extent grid.spacing) +
      (axis.extent grid.cell - axis.extent size) / 2 = _
  rw [hpadding]
  -- Along the flow the layers are counted from the other end, across it nothing changes.
  split
  · unfold endsSum
    push_cast
    ring
  · rfl

/-- The opposite direction mirrors every frame in the middle of the layers. -/
theorem frame_opposite (count layer position : Nat) (size : Size Rat) :
    (grid.along grid.direction.opposite).frame count layer position size =
      (Motion.mirror (flowAxis grid.direction)
        (grid.endsSum (flowAxis grid.direction) count)).rect
          (grid.frame count layer position size) := by
  refine Axis.rect_eq (fun axis => ?_) fun axis => ?_
  · rw [low_frame_opposite, Axis.low_mirror]
    split
    · next haxis => rw [haxis]
    · rfl
  · rw [high_frame, low_frame_opposite, Axis.high_mirror, high_frame]
    split
    · next haxis => rw [← haxis]; ring
    · rfl

/-- So does it with the anchors of any two rectangles. -/
theorem anchors_opposite (sum : Rat) (a b : Rect Rat) :
    let m := Motion.mirror (flowAxis grid.direction) sum
    (grid.along grid.direction.opposite).anchors (m.rect a) (m.rect b) =
      m.segment (grid.anchors a b) := by
  unfold anchors along flowAxis
  cases grid.direction <;> rfl

/-- The opposite direction is the mirror image in the middle of the layers. -/
theorem carries_opposite (names : List String) (edges : List (String × String))
    (sizes : List (String × Size Rat)) :
    (Motion.mirror (flowAxis grid.direction) (grid.endsSum (flowAxis grid.direction)
      (grid.place names edges sizes).layers.length)).Carries names edges grid sizes
        (grid.along grid.direction.opposite) sizes :=
  Motion.carries_of (fun _ _ _ => grid.frame_opposite _ _ _ _) (grid.anchors_opposite _)

end CellGrid

/-! ## Directions across -/

/-- The direction along the other axis, from the same side. -/
def Direction.transposed : Direction → Direction
  | .topDown | .topBottom => .leftRight
  | .bottomTop => .rightLeft
  | .leftRight => .topDown
  | .rightLeft => .bottomTop

/-- The width taken for the height and the height for the width. -/
def Size.transposed {α : Type} (s : Size α) : Size α := ⟨s.height, s.width⟩

/-- Transposing exchanges the extents of a size. -/
@[simp] theorem Axis.extent_transposed {α : Type} (axis : Axis) (s : Size α) :
    axis.extent s.transposed = axis.other.extent s := by
  cases axis <;> rfl

namespace CellGrid

variable (grid : CellGrid Rat)

/-- The grid with its two axes exchanged. -/
def transposed {α : Type} (grid : CellGrid α) : CellGrid α where
  cell := grid.cell.transposed
  spacing := grid.spacing.transposed
  padding := grid.padding
  direction := grid.direction.transposed

/-- Sizes with their two axes exchanged. -/
def transposedSizes {α : Type} (sizes : List (String × Size α)) : List (String × Size α) :=
  sizes.map fun entry => (entry.1, entry.2.transposed)

/-- Transposing sizes twice changes nothing. -/
theorem transposedSizes_transposedSizes {α : Type} (sizes : List (String × Size α)) :
    transposedSizes (transposedSizes sizes) = sizes := by
  rw [transposedSizes, transposedSizes, List.map_map]
  exact List.map_id sizes

/-- A node has its transposed size in the transposed grid. -/
theorem nodeSize_transposed (sizes : List (String × Size Rat)) (name : String) :
    grid.transposed.nodeSize (transposedSizes sizes) name =
      (grid.nodeSize sizes name).transposed := by
  unfold nodeSize transposedSizes
  rw [Keyed.value?_map]
  cases Keyed.value? sizes name <;> rfl

/-- Cells have their places exchanged in the transposed grid. -/
theorem slot_transposed (count layer position : Nat) (axis : Axis) :
    grid.transposed.slot count layer position axis =
      grid.slot count layer position axis.other := by
  unfold slot transposed
  cases grid.direction <;> cases axis <;> rfl

/-- Exchanging the axes of the grid and of the sizes exchanges those of the frames. -/
theorem frame_transposed (count layer position : Nat) (size : Size Rat) :
    grid.transposed.frame count layer position size.transposed =
      Motion.transpose.rect (grid.frame count layer position size) := by
  have hlow : ∀ axis : Axis,
      axis.low (grid.transposed.frame count layer position size.transposed) =
        axis.other.low (grid.frame count layer position size) := by
    intro axis
    rw [low_frame, low_frame, coord_origin, coord_origin, slot_transposed]
    cases axis <;> rfl
  refine Axis.rect_eq (fun axis => ?_) fun axis => ?_
  · rw [hlow, Axis.low_transpose]
  · rw [high_frame, hlow, Axis.high_transpose, high_frame, Axis.extent_transposed]

/-- Edges are attached to the transposed places. -/
theorem anchors_transposed (a b : Rect Rat) :
    grid.transposed.anchors (Motion.transpose.rect a) (Motion.transpose.rect b) =
      Motion.transpose.segment (grid.anchors a b) := by
  unfold anchors transposed
  cases grid.direction <;> rfl

/-- The direction across is the transpose. -/
theorem carries_transposed (names : List String) (edges : List (String × String))
    (sizes : List (String × Size Rat)) :
    Motion.transpose.Carries names edges grid sizes grid.transposed (transposedSizes sizes) := by
  refine Motion.carries_of (fun layer position name => ?_) grid.anchors_transposed
  rw [nodeSize_transposed]
  exact grid.frame_transposed _ layer position _

/-! ## All directions -/

/-- `TB` is another name for `TD`, `BT` mirrors it in the middle of the layers and `RL` does so with
`LR`; and `LR` is the transpose of `TD` with the widths and heights of cells, spacings and nodes
exchanged. -/
theorem directions_are_symmetries (names : List String) (edges : List (String × String))
    (sizes : List (String × Size Rat)) :
    let count : Rat := (grid.place names edges sizes).layers.length
    Motion.identity.Carries names edges (grid.along .topDown) sizes (grid.along .topBottom) sizes ∧
      (Motion.mirror .y (2 * grid.padding +
        (count - 1) * (grid.cell.height + grid.spacing.height) + grid.cell.height)).Carries
          names edges (grid.along .topDown) sizes (grid.along .bottomTop) sizes ∧
      (Motion.mirror .x (2 * grid.padding +
        (count - 1) * (grid.cell.width + grid.spacing.width) + grid.cell.width)).Carries
          names edges (grid.along .leftRight) sizes (grid.along .rightLeft) sizes ∧
      Motion.transpose.Carries names edges
        ⟨grid.cell.transposed, grid.spacing.transposed, grid.padding, .topDown⟩
        (transposedSizes sizes) (grid.along .leftRight) sizes := by
  refine ⟨?_, ?_, ?_, ?_⟩
  · exact Motion.carries_of (fun _ _ _ => rfl) fun _ _ => rfl
  · exact (grid.along .topDown).carries_opposite names edges sizes
  · exact (grid.along .leftRight).carries_opposite names edges sizes
  · have h := carries_transposed
      ⟨grid.cell.transposed, grid.spacing.transposed, grid.padding, .topDown⟩ names edges
      (transposedSizes sizes)
    rwa [transposedSizes_transposedSizes] at h

/-- A node that is smaller than its cell, on the first of three layers, from the bottom up and from
right to left. -/
example : let grid : CellGrid Rat := ⟨⟨100, 50⟩, ⟨30, 20⟩, 10, .topDown⟩
    (grid.along .bottomTop).frame 3 0 1 ⟨60, 40⟩ = ⟨160, 155, 220, 195⟩ ∧
      (grid.along .rightLeft).frame 3 0 1 ⟨60, 40⟩ = ⟨290, 85, 350, 125⟩ := by
  decide +kernel

end CellGrid

end TextDiagram
