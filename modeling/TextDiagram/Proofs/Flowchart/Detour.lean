import TextDiagram.Proofs.Flowchart.Layout
import TextDiagram.Proofs.Router
/-!
# Detours of flowcharts

The nodes of a flowchart are of one size and leave the spacings free between them, so the first two
legs of every detour are clear of the nodes that it goes around. The last leg runs at the coordinate
of the target. It is clear as well when the line bends sideways and the horizontal spacing exceeds
the height of a padded node, or when it bends up or down and the vertical spacing exceeds the width
of one. The themes leave room for the former only.

Main statements:

* `spread_ofBoxes_nodeFrames`: the frames that edges keep clear of.
* `detours_clear`: the legs of the detours in the drawing of any text.
* `last_leg_crosses`: a detour that leads through the node that it goes around.
-/

namespace TextDiagram

namespace Config

/-- Nodes have a size, and the gaps between them are wider than their padding. -/
structure LeavesRoom (config : Config) : Prop where
  width_nonneg : 0 ≤ config.nodeWidth
  height_nonneg : 0 ≤ config.nodeHeight
  horizontal : 4 < config.horizontalSpacing
  vertical : 4 < config.verticalSpacing

/-- The gap on an axis is wider than a padded node is on the axis across. -/
def LeavesRoomToBend (config : Config) : Axis → Prop
  | .x => config.nodeHeight + 8 < config.horizontalSpacing
  | .y => config.nodeWidth + 8 < config.verticalSpacing

theorem leavesRoom_ofTheme (theme : Theme) : (ofTheme theme).LeavesRoom := by
  cases theme <;> constructor <;> decide

end Config

/-- An edge comes close to a node other than its ends: the straight line between its ends crosses
the padded frame of the node. -/
def PositionedEdge.ObstructedBy (e : PositionedEdge Rat) (n : PositionedNode Rat) : Prop :=
  n.node.id ≠ e.edge.source ∧ n.node.id ≠ e.edge.target ∧ e.path.ends.Crosses (n.frame.padded 4)

instance (e : PositionedEdge Rat) (n : PositionedNode Rat) : Decidable (e.ObstructedBy n) :=
  inferInstanceAs (Decidable (_ ∧ _ ∧ _))

namespace Flowchart

variable {config : Config} {chart : Flowchart}

theorem mem_nodeFrames_iff {name : String} {r : Rect Rat} :
    (name, r) ∈ nodeFrames Rat config chart ↔
      ∃ node ∈ (placement Rat config chart).nodes, node.name = name ∧
        node.frame.shifted (move Rat config chart).1 (move Rat config chart).2 = r := by
  simp only [nodeFrames, shiftFrames, Placement.frames, List.map_map, List.mem_map,
    Function.comp_apply, Prod.mk.injEq]

/-- Cells have a size on both axes, and the gaps between them are wider than the padding. -/
theorem extent_cellGrid (h : config.LeavesRoom) (direction : Direction) :
    (∀ axis : Axis, 0 ≤ axis.extent (cellGrid config direction : CellGrid Rat).cell) ∧
      ∀ axis : Axis, 4 < axis.extent (cellGrid config direction : CellGrid Rat).spacing := by
  have hhorizontal : (4 : Rat) < config.horizontalSpacing := by exact_mod_cast h.horizontal
  have hvertical : (4 : Rat) < config.verticalSpacing := by exact_mod_cast h.vertical
  constructor
  · exact Axis.forall_extent_iff.2
      ⟨Rat.intCast_nonneg.2 h.width_nonneg, Rat.intCast_nonneg.2 h.height_nonneg⟩
  · exact Axis.forall_extent_iff.2 ⟨hhorizontal, hvertical⟩

/-- All nodes have the size of a cell. -/
theorem high_of_mem_nodeFrames {name : String} {r : Rect Rat}
    (hr : (name, r) ∈ nodeFrames Rat config chart) (axis : Axis) :
    axis.high r = axis.low r +
      axis.extent (cellGrid config chart.direction : CellGrid Rat).cell := by
  rcases mem_nodeFrames_iff.1 hr with ⟨node, hnode, -, rfl⟩
  rcases (CellGrid.mem_nodes_place_iff _ _ _ _).1 hnode with ⟨_, -, -, hframe⟩
  rw [Axis.high_shifted, Axis.low_shifted, hframe, CellGrid.high_frame, CellGrid.nodeSize_nil]
  exact add_right_comm _ _ _

/-- Nodes leave the spacings free. -/
theorem apart_of_mem_nodeFrames (h : config.LeavesRoom) {name other : String} {r r' : Rect Rat}
    (hr : (name, r) ∈ nodeFrames Rat config chart)
    (hr' : (other, r') ∈ nodeFrames Rat config chart) (hne : name ≠ other) :
    r.Apart r' (cellGrid config chart.direction : CellGrid Rat).spacing := by
  rcases mem_nodeFrames_iff.1 hr with ⟨node, hnode, rfl, rfl⟩
  rcases mem_nodeFrames_iff.1 hr' with ⟨node', hnode', rfl, rfl⟩
  have hfits : ∀ name, (cellGrid config chart.direction : CellGrid Rat).FitsCell [] name := by
    intro name axis
    rw [CellGrid.nodeSize_nil]
  -- The frames are shifted together, which keeps their distances.
  have hapart := CellGrid.apart_of_mem_nodes_place ?_ hnode hnode' (hfits _) (hfits _) hne
  · exact hapart.shifted _ _
  · intro axis
    have hextent := extent_cellGrid h chart.direction
    have hcell := hextent.1 axis
    have hspacing := hextent.2 axis
    linarith

/-- The router works with frames of one size that keep their distance. -/
theorem spread_ofBoxes_nodeFrames (h : config.LeavesRoom) :
    (Router.ofBoxes (nodeFrames Rat config chart)).Spread
      (cellGrid config chart.direction).cell (cellGrid config chart.direction).spacing :=
  .ofBoxes (extent_cellGrid h _).1 (extent_cellGrid h _).2 (fun _ _ => high_of_mem_nodeFrames)
    fun _ _ _ _ => apart_of_mem_nodeFrames h

/-- A gap that is wide enough for a node has room for a leg between two padded nodes. -/
theorem room_to_bend {axis : Axis} (h : config.LeavesRoomToBend axis) (direction : Direction) :
    axis.other.extent (cellGrid config direction : CellGrid Rat).cell + 2 * 4 <
      axis.extent (cellGrid config direction : CellGrid Rat).spacing := by
  cases axis with
  | x =>
    have hlt : (config.nodeHeight + 8 : Rat) < config.horizontalSpacing := by exact_mod_cast h
    show (config.nodeHeight + 2 * 4 : Rat) < config.horizontalSpacing
    linarith
  | y =>
    have hlt : (config.nodeWidth + 8 : Rat) < config.verticalSpacing := by exact_mod_cast h
    show (config.nodeWidth + 2 * 4 : Rat) < config.verticalSpacing
    linarith

/-- The way of one edge around one of the nodes. -/
theorem detour_clear_of_placeEdge {grid : CellGrid Rat} {frames : List (String × Rect Rat)}
    {size gap : Size Rat} (hspread : (Router.ofBoxes frames).Spread size gap)
    (hvalid : ∀ name frame, (name, frame) ∈ frames → frame.Valid) {edge : FlowEdge}
    {e : PositionedEdge Rat} (he : placeEdge grid frames edge = .ok e) {n : PositionedNode Rat}
    (hobstructed : e.ObstructedBy n) (hn : (n.node.id, n.frame) ∈ frames) :
    ∃ first middle last, e.path.legs = [first, middle, last] ∧
      ¬first.Crosses n.frame ∧ ¬middle.Crosses n.frame ∧
      (e.path.ends.bendAxis.other.extent size + 2 * 4 < e.path.ends.bendAxis.extent gap →
        ¬last.Crosses n.frame) := by
  rcases placeEdge_eq_ok_iff.1 he with ⟨source, hsource, target, htarget, rfl⟩
  rcases hobstructed with ⟨hne, hne', hcross⟩
  simp only [edgeBetween, Router.ends_route] at hcross ⊢
  have hfrom := Keyed.mem_of_value? hsource
  have hto := Keyed.mem_of_value? htarget
  -- The line starts and stops at the frames of its own two nodes.
  have hsides := Rect.anchors_mem_sideMiddles source target grid
  have hstart := (hvalid _ _ hfrom).covers hsides.1
  have hstop := (hvalid _ _ hto).covers hsides.2
  rcases hspread.detour_clear hfrom hstart hto hstop hn hne hne' hcross with
    ⟨first, middle, last, hlegs, hfirst, hmiddle, hlast⟩
  -- What keeps clear of the padded frame keeps clear of the frame.
  have hpadded : (n.frame.padded 4).Contains n.frame := n.frame.contains_padded (by decide)
  exact ⟨first, middle, last, hlegs, fun hc => hfirst (hpadded.crosses hc),
    fun hc => hmiddle (hpadded.crosses hc), hlast⟩

/-- The detours in the drawing of any text: the first two legs are clear of every node that the
straight line comes close to, and the last one is clear if there is room to bend. -/
theorem detours_clear {config : Config} (hroom : config.LeavesRoom) {text : String}
    {chart : Flowchart} (hparse : Diagram.parse text = .ok (.flowchart chart)) :
    ∃ l : FlowchartLayout Rat, chart.layout config = .ok l ∧
      ∀ e ∈ l.edges, ∀ n ∈ l.nodes, e.ObstructedBy n →
        ∃ first middle last, e.path.legs = [first, middle, last] ∧
          ¬first.Crosses n.frame ∧ ¬middle.Crosses n.frame ∧
          (config.LeavesRoomToBend e.path.ends.bendAxis → ¬last.Crosses n.frame) := by
  rcases Diagram.exists_ofLines_of_parse_flowchart hparse with ⟨header, lines, rfl⟩
  rcases exists_layout Rat config (wellReferenced_ofLines header lines) with ⟨l, hl, -⟩
  refine ⟨l, hl, fun e he n hn hobstructed => ?_⟩
  rcases of_layout_eq_ok hl with ⟨hedges, hnodes, -⟩
  rcases of_mem_mapM_eq_ok hedges he with ⟨edge, -, hplaced⟩
  rcases of_mem_mapM_eq_ok hnodes hn with ⟨node, -, hnode⟩
  rcases placeNode_eq_ok_iff.1 hnode with ⟨frame, hframe, _, _, rfl⟩
  rcases detour_clear_of_placeEdge (spread_ofBoxes_nodeFrames hroom)
    (valid_of_mem_nodeFrames hroom.width_nonneg hroom.height_nonneg) hplaced hobstructed
    (Keyed.mem_of_value? hframe) with ⟨first, middle, last, hlegs, hfirst, hmiddle, hlast⟩
  exact ⟨first, middle, last, hlegs, hfirst, hmiddle, fun hbend => hlast (room_to_bend hbend _)⟩

/-- An edge past the node between its ends bends sideways, and all of its legs are clear. -/
theorem detours_clear_around_middle :
    ∃ chart, Config.light.LeavesRoom ∧
      Diagram.parse "flowchart TD\nA-->B\nB-->C\nA-->C" = .ok (.flowchart chart) ∧
      ∃ l : FlowchartLayout Rat, chart.layout Config.light = .ok l ∧
        ∃ e ∈ l.edges, ∃ n ∈ l.nodes, e.ObstructedBy n ∧ ∃ first middle last,
          e.path.legs = [first, middle, last] ∧ ¬first.Crosses n.frame ∧
          ¬middle.Crosses n.frame ∧ ¬last.Crosses n.frame := by
  have hroom := Config.leavesRoom_ofTheme .light
  have hparse : Diagram.parse "flowchart TD\nA-->B\nB-->C\nA-->C" = .ok (.flowchart
      ⟨.topDown, [⟨"A", "A", .rectangle⟩, ⟨"B", "B", .rectangle⟩, ⟨"C", "C", .rectangle⟩],
        [⟨"A", "B", none, .solid⟩, ⟨"B", "C", none, .solid⟩, ⟨"A", "C", none, .solid⟩],
        [], [], []⟩) := rfl
  rcases detours_clear hroom hparse with ⟨l, hl, hclear⟩
  -- The layout is computed, and the line from `A` to `C` found to pass through `B`.
  have hbend : ∃ e ∈ l.edges, ∃ n ∈ l.nodes, e.ObstructedBy n ∧ e.path.ends.bendAxis = .x := by
    cases hl
    decide +kernel
  rcases hbend with ⟨e, he, n, hn, hobstructed, haxis⟩
  rcases hclear e he n hn hobstructed with ⟨first, middle, last, hlegs, hfirst, hmiddle, hlast⟩
  refine ⟨_, hroom, hparse, l, hl, e, he, n, hn, hobstructed, first, middle, last, hlegs, hfirst,
    hmiddle, hlast ?_⟩
  rw [haxis]
  show Config.light.nodeHeight + 8 < Config.light.horizontalSpacing
  decide

/-- `A` stands above `B` and `C`, and these above `D` and `E`. The line from `A` to `E` leads farther
across than down and comes close to `C`. It bends above `C`, and its last leg leads down to `E`
through `C`. -/
theorem last_leg_crosses :
    ∃ chart, Diagram.parse "flowchart TD\nA-->B\nA-->C\nB-->D\nC-->E\nA-->E" =
        .ok (.flowchart chart) ∧
      ∃ l : FlowchartLayout Rat, chart.layout Config.light = .ok l ∧
        ∃ e ∈ l.edges, ∃ n ∈ l.nodes, e.ObstructedBy n ∧
          e.path.points.length = 4 ∧ ∃ leg ∈ e.path.legs, leg.Crosses n.frame := by
  have hparse : Diagram.parse "flowchart TD\nA-->B\nA-->C\nB-->D\nC-->E\nA-->E" =
      .ok (.flowchart
        ⟨.topDown, [⟨"A", "A", .rectangle⟩, ⟨"B", "B", .rectangle⟩, ⟨"C", "C", .rectangle⟩,
          ⟨"D", "D", .rectangle⟩, ⟨"E", "E", .rectangle⟩],
          [⟨"A", "B", none, .solid⟩, ⟨"A", "C", none, .solid⟩, ⟨"B", "D", none, .solid⟩,
            ⟨"C", "E", none, .solid⟩, ⟨"A", "E", none, .solid⟩], [], [], []⟩) := rfl
  refine ⟨_, hparse, _, rfl, ?_⟩
  decide +kernel

end Flowchart

end TextDiagram
