import Mathlib.Order.Bounds.Defs
import TextDiagram.Proofs.Flowchart.Blocks
import TextDiagram.Proofs.Flowchart.Detour
import TextDiagram.Proofs.Geometry.Canvas
/-!
# Flowcharts fit their canvas

The frames of blocks reach above and to the left of their nodes. All frames are shifted by as much as
the one that reaches farthest asks for, so none starts inside the padding and one starts right after
it: before the shift there is a node that does. Detours lead around nodes, which leave the padding
free on all sides.

Main statements:

* `le_low_shifted`, `exists_low_shifted_eq`: what a shift achieves.
* `mem_frames_iff`: the frames in a drawing are those that the canvas was made for.
* `inside_nodeFrames`: the nodes that edges are led around.
* `frames_inside`, `ways_inside`, `isLeast_low`: a drawing and its canvas.
-/

namespace TextDiagram

open Scalar

/-- The frames of the nodes and of the blocks. -/
def FlowchartLayout.frames {α : Type} (l : FlowchartLayout α) : List (Rect α) :=
  l.nodes.map (·.frame) ++ l.subgraphs.map (·.frame)

/-- Nodes have a size, and the padding has room for detours. Spacings and the room of blocks may be
of any size, because the drawing is shifted. -/
structure Config.RoomForFlowcharts (config : Config) : Prop where
  width_nonneg : 0 ≤ config.nodeWidth
  height_nonneg : 0 ≤ config.nodeHeight
  padding : 24 ≤ config.padding

theorem Config.RoomForFlowcharts.padding_cast {config : Config} (h : config.RoomForFlowcharts) :
    (24 : Rat) ≤ config.padding := by
  exact_mod_cast h.padding

namespace Flowchart

/-! ## Shifting -/

section

variable {frames : List (Rect Rat)} {padding : Rat}

theorem coord_shift (axis : Axis) (padding : Rat) (first : Rect Rat) (others : List (Rect Rat)) :
    axis.coord ⟨(shift padding (first :: others)).1, (shift padding (first :: others)).2⟩ =
      Scalar.max 0 (padding - minimum (axis.low first) (others.map axis.low)) := by
  cases axis <;> rfl

/-- After the shift no frame starts inside the padding. -/
theorem le_low_shifted {r : Rect Rat} (hr : r ∈ frames) (axis : Axis) :
    padding ≤ axis.low (r.shifted (shift padding frames).1 (shift padding frames).2) := by
  cases frames with
  | nil => simp at hr
  | cons first others =>
    have hminimum := minimum_map_le axis.low hr
    have hshift : padding - minimum (axis.low first) (others.map axis.low) ≤
        Scalar.max 0 (padding - minimum (axis.low first) (others.map axis.low)) :=
      (max_le_iff.1 le_rfl).2
    rw [Axis.low_shifted, coord_shift]
    linarith

/-- One frame starts right after the padding, if one did not start beyond it before the shift. -/
theorem exists_low_shifted_eq {axis : Axis} (h : ∃ r ∈ frames, axis.low r ≤ padding) :
    ∃ r ∈ frames,
      axis.low (r.shifted (shift padding frames).1 (shift padding frames).2) = padding := by
  rcases h with ⟨r, hr, hlow⟩
  cases frames with
  | nil => simp at hr
  | cons first others =>
    rcases exists_minimum_map_eq axis.low first others with ⟨least, hleast, heq⟩
    have hminimum := minimum_map_le axis.low hr
    refine ⟨least, hleast, ?_⟩
    rw [Axis.low_shifted, coord_shift, heq, max_eq]
    split
    · ring
    · next hle => linarith

end

/-! ## Frames of drawings -/

section

variable {α : Type} [Scalar α] {config : Config} {chart : Flowchart} {l : FlowchartLayout α}

theorem nodup_keys_nodeFrames : (Keyed.keys (nodeFrames α config chart)).Nodup := by
  rw [nodeFrames, keys_shiftFrames, Placement.keys_frames, placement]
  -- The grid places every name once.
  have hperm := CellGrid.perm_names_place (cellGrid config chart.direction : CellGrid α)
    (chart.nodes.map (·.id)) (ends chart.edges) []
  exact hperm.nodup_iff.2 (Graph.wellFormed_ofEdges _ _).nodup

/-- Frames are kept for the nodes of the chart and for no other name. -/
theorem mem_keys_nodeFrames (hlinked : Linked (Keyed.keys chart.nodes) (ends chart.edges))
    {name : String} :
    name ∈ Keyed.keys (nodeFrames α config chart) ↔ name ∈ Keyed.keys chart.nodes := by
  rw [nodeFrames, keys_shiftFrames, Placement.keys_frames, placement]
  refine (CellGrid.mem_names_place _ _ _ _).trans ⟨fun h => ?_, Or.inl⟩
  -- The grid also places the ends of edges, which are nodes of the chart.
  rcases h with hnode | ⟨e, he, rfl | rfl⟩
  · exact hnode
  · exact (hlinked.mem e he).1
  · exact (hlinked.mem e he).2

theorem nodup_keys_blockFrames (nodes : List (String × Rect α)) (blocks : List Subgraph) :
    (Keyed.keys (blockFrames config nodes blocks)).Nodup := by
  induction blocks using List.reverseRecOn with
  | nil => exact .nil
  | append_singleton closed block ih =>
    rw [blockFrames_snoc]
    unfold frameBlock
    split
    · exact Keyed.nodup_keys_put ih
    · exact ih

/-- Every frame that is kept for a node is drawn. -/
theorem exists_node_of_mem_nodeFrames (hl : chart.layout config = .ok l)
    (hlinked : Linked (Keyed.keys chart.nodes) (ends chart.edges)) {name : String} {r : Rect α}
    (hr : (name, r) ∈ nodeFrames α config chart) : ∃ n ∈ l.nodes, n.frame = r := by
  have hname : name ∈ Keyed.keys (nodeFrames α config chart) := List.mem_map_of_mem hr
  rw [mem_keys_nodeFrames hlinked] at hname
  rcases List.mem_map.1 hname with ⟨node, hnode, rfl⟩
  rcases exists_of_mem_entries (of_layout_eq_ok hl).2.1 hnode with ⟨n, hn, hplaced⟩
  rcases placeNode_eq_ok_iff.1 hplaced with ⟨frame, hframe, _, _, rfl⟩
  -- Names are distinct, so the frame that is looked up is this one.
  have hvalue := (Keyed.value?_eq_some_iff nodup_keys_nodeFrames).2 hr
  exact ⟨_, hn, Option.some.inj (hframe.symm.trans hvalue)⟩

/-- Every frame that is kept for a block is drawn. -/
theorem exists_subgraph_of_mem_subgraphFrames (hl : chart.layout config = .ok l) {name : String}
    {r : Rect α} (hr : (name, r) ∈ subgraphFrames α config chart) :
    ∃ s ∈ l.subgraphs, s.frame = r := by
  have hname : name ∈ Keyed.keys (subgraphFrames α config chart) := List.mem_map_of_mem hr
  have hnodup : (Keyed.keys (subgraphFrames α config chart)).Nodup := by
    rw [subgraphFrames, keys_shiftFrames]
    exact nodup_keys_blockFrames _ _
  rw [subgraphFrames, keys_shiftFrames] at hname
  rcases List.mem_map.1 (mem_ids_of_mem_keys_blockFrames hname) with ⟨block, hblock, rfl⟩
  have hvalue := (Keyed.value?_eq_some_iff hnodup).2 hr
  rw [(of_layout_eq_ok hl).2.2]
  exact ⟨_, List.mem_filterMap.2 ⟨block, hblock, Option.map_eq_some_iff.2 ⟨r, hvalue, rfl⟩⟩, rfl⟩

/-- The frames in a drawing are the frames of the nodes and of the blocks, each of them. -/
theorem mem_frames_iff (hl : chart.layout config = .ok l)
    (hlinked : Linked (Keyed.keys chart.nodes) (ends chart.edges)) {r : Rect α} :
    r ∈ l.frames ↔
      r ∈ (nodeFrames α config chart ++ subgraphFrames α config chart).map (·.2) := by
  rw [FlowchartLayout.frames, List.mem_append, List.map_append, List.mem_append]
  constructor
  · rintro (hnode | hblock)
    · left
      rcases List.mem_map.1 hnode with ⟨n, hn, rfl⟩
      -- A placed node has looked up its frame.
      rcases of_mem_mapM_eq_ok (of_layout_eq_ok hl).2.1 hn with ⟨node, -, hplaced⟩
      rcases placeNode_eq_ok_iff.1 hplaced with ⟨frame, hframe, _, _, rfl⟩
      exact List.mem_map.2 ⟨_, Keyed.mem_of_value? hframe, rfl⟩
    · right
      rcases List.mem_map.1 hblock with ⟨s, hs, rfl⟩
      rw [(of_layout_eq_ok hl).2.2] at hs
      rcases List.mem_filterMap.1 hs with ⟨block, -, hplaced⟩
      rcases Option.map_eq_some_iff.1 hplaced with ⟨frame, hframe, rfl⟩
      exact List.mem_map.2 ⟨_, Keyed.mem_of_value? hframe, rfl⟩
  · rintro (hnode | hblock)
    · left
      rcases List.mem_map.1 hnode with ⟨⟨name, r⟩, hr, rfl⟩
      -- A frame that is kept belongs to a node, which has looked it up.
      rcases exists_node_of_mem_nodeFrames hl hlinked hr with ⟨n, hn, rfl⟩
      exact List.mem_map_of_mem hn
    · right
      rcases List.mem_map.1 hblock with ⟨⟨name, r⟩, hr, rfl⟩
      rcases exists_subgraph_of_mem_subgraphFrames hl hr with ⟨s, hs, rfl⟩
      exact List.mem_map_of_mem hs

end

/-! ## Drawings on their canvas -/

section

variable {config : Config} {chart : Flowchart} {l : FlowchartLayout Rat}

/-- The frames of the nodes and of the blocks, before the drawing is shifted. -/
def unshiftedFrames (config : Config) (chart : Flowchart) : List (Rect Rat) :=
  ((placement Rat config chart).frames ++ unshiftedBlocks Rat config chart).map (·.2)

theorem frames_eq_map_shifted (config : Config) (chart : Flowchart) :
    (nodeFrames Rat config chart ++ subgraphFrames Rat config chart).map (·.2) =
      (unshiftedFrames config chart).map fun r =>
        r.shifted (move Rat config chart).1 (move Rat config chart).2 := by
  simp only [nodeFrames, subgraphFrames, shiftFrames, unshiftedFrames, List.map_append,
    List.map_map]
  rfl

theorem move_eq (config : Config) (chart : Flowchart) :
    move Rat config chart = shift (config.padding : Rat) (unshiftedFrames config chart) := rfl

/-- The frames that the canvas was made for leave the padding free on all sides. -/
theorem contains_of_mem {r : Rect Rat}
    (hr : r ∈ (nodeFrames Rat config chart ++ subgraphFrames Rat config chart).map (·.2)) :
    ((canvasSize ((nodeFrames Rat config chart ++ subgraphFrames Rat config chart).map (·.2))
      (config.padding : Rat)).inner config.padding).Contains r := by
  refine contains_of_mem_frames hr fun axis => ?_
  rw [frames_eq_map_shifted, move_eq] at hr
  rcases List.mem_map.1 hr with ⟨q, hq, rfl⟩
  exact le_low_shifted hq axis

/-- Every frame of a drawing leaves the padding free. -/
theorem frames_inside (hl : chart.layout config = .ok l)
    (hlinked : Linked (Keyed.keys chart.nodes) (ends chart.edges)) {r : Rect Rat}
    (hr : r ∈ l.frames) : (l.size.inner config.padding).Contains r := by
  rw [size_eq hl]
  exact contains_of_mem ((mem_frames_iff hl hlinked).1 hr)

/-- The nodes that edges are led around leave the padding free. -/
theorem inside_nodeFrames (h : config.RoomForFlowcharts) (hl : chart.layout config = .ok l) :
    (Router.ofBoxes (nodeFrames Rat config chart)).Inside l.size config.padding := by
  refine .ofBoxes h.padding_cast (valid_of_mem_nodeFrames h.width_nonneg h.height_nonneg) ?_
  intro name r hr
  rw [size_eq hl]
  refine contains_of_mem ?_
  rw [List.map_append]
  exact List.mem_append_left _ (List.mem_map_of_mem hr)

/-- Every way and every label of a drawing is on the canvas. -/
theorem ways_inside (h : config.RoomForFlowcharts) (hl : chart.layout config = .ok l)
    {e : PositionedEdge Rat} (he : e ∈ l.edges) :
    (∀ p ∈ e.path.points, (l.size.inner 0).Covers p) ∧
      ∀ p ∈ e.labelPosition, (l.size.inner 0).Covers p := by
  rcases of_mem_mapM_eq_ok (of_layout_eq_ok hl).1 he with ⟨edge, -, hplaced⟩
  rcases placeEdge_eq_ok_iff.1 hplaced with ⟨source, hsource, target, htarget, rfl⟩
  have hway := (inside_nodeFrames h hl).covers_way hsource htarget
    (cellGrid config chart.direction) edge.label
  simp only [edgeBetween]
  exact hway

/-- The frames start right after the padding. -/
theorem isLeast_low (hl : chart.layout config = .ok l)
    (hlinked : Linked (Keyed.keys chart.nodes) (ends chart.edges)) (hnodes : chart.nodes ≠ [])
    (axis : Axis) : IsLeast {low | ∃ r ∈ l.frames, axis.low r = low} (config.padding : Rat) := by
  constructor
  · have hfirst : ∃ r ∈ unshiftedFrames config chart, axis.low r ≤ config.padding := by
      rcases List.exists_mem_of_ne_nil _ hnodes with ⟨node, hnode⟩
      rcases CellGrid.exists_at_padding (cellGrid config chart.direction : CellGrid Rat)
        (ends chart.edges) (List.mem_map_of_mem (f := (·.id)) hnode) with ⟨placed, hplaced, hlow⟩
      refine ⟨placed.frame, ?_, (hlow axis).le⟩
      rw [unshiftedFrames, List.map_append]
      refine List.mem_append_left _ (List.mem_map.2 ⟨(placed.name, placed.frame), ?_, rfl⟩)
      exact List.mem_map_of_mem hplaced
    rcases exists_low_shifted_eq hfirst with ⟨r, hr, hlow⟩
    refine ⟨_, (mem_frames_iff hl hlinked).2 ?_, hlow⟩
    rw [frames_eq_map_shifted, move_eq]
    exact List.mem_map_of_mem hr
  · rintro low ⟨r, hr, rfl⟩
    have hcontains := Axis.contains_iff.1 (frames_inside hl hlinked hr) axis
    rw [Axis.low_inner] at hcontains
    exact hcontains.1

end

end Flowchart

end TextDiagram
