import TextDiagram.Flowchart.Layout
import TextDiagram.Proofs.Attachment
import TextDiagram.Proofs.Placement
import TextDiagram.Proofs.Traversal
/-!
# Placed flowcharts are complete

Main statements:

* `layout_eq_ok_iff`, `of_layout_eq_ok`, `size_eq`: what a drawing consists of.
* `exists_layout`: the nodes and edges of a well-referenced flowchart can be placed.
* `valid_of_mem_nodeFrames`: in exact arithmetic the sides of the frames are in order.
-/

namespace TextDiagram

namespace Flowchart

section

variable (α : Type) [Scalar α] (config : Config) (chart : Flowchart)

/-- The nodes of a flowchart in the cells of their layers. -/
def placement : Placement α :=
  (cellGrid config chart.direction).place (chart.nodes.map (·.id)) (ends chart.edges) []

/-- The frames of the blocks around the nodes in their cells. -/
def unshiftedBlocks : List (String × Rect α) :=
  blockFrames config (placement α config chart).frames chart.subgraphs

/-- How far the drawing is shifted. -/
def move : α × α :=
  shift (config.padding : α)
    (((placement α config chart).frames ++ unshiftedBlocks α config chart).map (·.2))

/-- The frames of the nodes after the drawing has been shifted. -/
def nodeFrames : List (String × Rect α) :=
  shiftFrames (move α config chart) (placement α config chart).frames

/-- The frames of the blocks after the drawing has been shifted. -/
def subgraphFrames : List (String × Rect α) :=
  shiftFrames (move α config chart) (unshiftedBlocks α config chart)

variable {α} in
theorem keys_shiftFrames (move : α × α) (frames : List (String × Rect α)) :
    Keyed.keys (shiftFrames move frames) = Keyed.keys frames := by
  simp [shiftFrames, Keyed.keys, Keyed.key, Function.comp_def]

variable {chart}

theorem exists_frame {id : String} (h : id ∈ Keyed.keys chart.nodes) :
    ∃ frame, Keyed.value? (nodeFrames α config chart) id = some frame := by
  rw [Keyed.exists_value?_iff, nodeFrames, keys_shiftFrames, ← Keyed.exists_value?_iff]
  exact CellGrid.exists_frame h

end

variable {α : Type} [Scalar α] {config : Config} {chart : Flowchart}

/-- One edge on its way around the nodes. -/
def placeEdge (grid : CellGrid α) (frames : List (String × Rect α)) (edge : FlowEdge) :
    Except LayoutError (PositionedEdge α) := routeEdge (Router.ofBoxes frames) grid frames edge

section

variable {grid : CellGrid α} {frames : List (String × Rect α)} {layers : List (String × Nat)}

omit [Scalar α] in
theorem placeNode_eq : placeNode chart frames layers =
    placeBy frames layers (fun node => (node.id, node.id)) fun node frame layer =>
      ⟨node, frame, layer, chart.styleFor node.id⟩ := rfl

/-- The way of an edge between the frames of its ends. -/
def edgeBetween (grid : CellGrid α) (frames : List (String × Rect α)) (edge : FlowEdge)
    (source target : Rect α) : PositionedEdge α :=
  let route := (Router.ofBoxes frames).route edge.source edge.target (grid.anchors source target)
  ⟨edge, route.path, edge.label.map fun _ => route.labelPosition⟩

theorem placeEdge_eq : placeEdge grid frames =
    placeBy frames frames (fun edge => (edge.source, edge.target)) (edgeBetween grid frames) := rfl

omit [Scalar α] in
theorem placeNode_eq_ok_iff {node : FlowNode} {placed : PositionedNode α} :
    placeNode chart frames layers node = .ok placed ↔
      ∃ frame, Keyed.value? frames node.id = some frame ∧
        ∃ layer, Keyed.value? layers node.id = some layer ∧
          ⟨node, frame, layer, chart.styleFor node.id⟩ = placed := by
  rw [placeNode_eq, placeBy_eq_ok_iff]

theorem placeEdge_eq_ok_iff {edge : FlowEdge} {placed : PositionedEdge α} :
    placeEdge grid frames edge = .ok placed ↔
      ∃ source, Keyed.value? frames edge.source = some source ∧
        ∃ target, Keyed.value? frames edge.target = some target ∧
          edgeBetween grid frames edge source target = placed := by
  rw [placeEdge_eq, placeBy_eq_ok_iff]

end

/-- A drawing consists of the nodes and edges on their places and of the blocks that have a frame. -/
theorem layout_eq_ok_iff {l : FlowchartLayout α} : chart.layout config = .ok l ↔
    ∃ edges, chart.edges.mapM (placeEdge (cellGrid config chart.direction)
        (nodeFrames α config chart)) = .ok edges ∧
      ∃ nodes, chart.nodes.mapM (placeNode chart (nodeFrames α config chart)
          (placement α config chart).layerNumbers) = .ok nodes ∧
        { size := canvasSize ((nodeFrames α config chart ++ subgraphFrames α config chart).map (·.2))
            (config.padding : α)
          nodes := nodes
          edges := edges
          subgraphs := chart.subgraphs.filterMap
            (placeBlock config (subgraphFrames α config chart)) } = l := by
  have hlayout : chart.layout config = do
      let edges ← chart.edges.mapM (placeEdge (cellGrid config chart.direction)
        (nodeFrames α config chart))
      let nodes ← chart.nodes.mapM (placeNode chart (nodeFrames α config chart)
        (placement α config chart).layerNumbers)
      return ⟨canvasSize ((nodeFrames α config chart ++ subgraphFrames α config chart).map (·.2))
        (config.padding : α), nodes, edges, chart.subgraphs.filterMap
          (placeBlock config (subgraphFrames α config chart))⟩ := rfl
  simp only [hlayout, bind_eq_ok_iff, pure_eq_ok_iff]

section

variable {l : FlowchartLayout α} (h : chart.layout config = .ok l)

include h

/-- What a drawing consists of. -/
theorem of_layout_eq_ok :
    chart.edges.mapM (placeEdge (cellGrid config chart.direction) (nodeFrames α config chart)) =
        .ok l.edges ∧
      chart.nodes.mapM (placeNode chart (nodeFrames α config chart)
        (placement α config chart).layerNumbers) = .ok l.nodes ∧
      l.subgraphs = chart.subgraphs.filterMap
        (placeBlock config (subgraphFrames α config chart)) := by
  rcases layout_eq_ok_iff.1 h with ⟨edges, hedges, nodes, hnodes, rfl⟩
  exact ⟨hedges, hnodes, rfl⟩

/-- The canvas is made for the frames of the nodes and of the blocks. -/
theorem size_eq :
    l.size = canvasSize ((nodeFrames α config chart ++ subgraphFrames α config chart).map (·.2))
      (config.padding : α) := by
  rcases layout_eq_ok_iff.1 h with ⟨edges, -, nodes, -, hl⟩
  rw [← hl]

end

variable (α config)

theorem exists_placedEdges (h : chart.WellReferenced) :
    ∃ edges : List (PositionedEdge α), chart.edges.mapM
      (placeEdge (cellGrid config chart.direction) (nodeFrames α config chart)) = .ok edges := by
  rw [placeEdge_eq]
  exact h.linked.exists_placedBy (exists_frame α config)

theorem exists_placedNodes (chart : Flowchart) :
    ∃ nodes : List (PositionedNode α), chart.nodes.mapM (placeNode chart
      (nodeFrames α config chart) (placement α config chart).layerNumbers) = .ok nodes := by
  rw [placeNode_eq]
  exact exists_placedBy (fun node hnode => exists_frame α config (List.mem_map_of_mem hnode))
    fun node hnode => CellGrid.exists_layer (List.mem_map_of_mem hnode)

/-- Every node and every edge has its place, edges between the frames of their own ends. -/
theorem exists_layout (h : chart.WellReferenced) :
    ∃ l : FlowchartLayout α, chart.layout config = .ok l ∧
      l.nodes.map (·.node) = chart.nodes ∧ l.edges.map (·.edge) = chart.edges ∧
      Framed (nodeFrames α config chart) l.outlines l.links := by
  rcases exists_placedEdges α config h with ⟨edges, hedges⟩
  rcases exists_placedNodes α config chart with ⟨nodes, hnodes⟩
  refine ⟨_, layout_eq_ok_iff.2 ⟨edges, hedges, nodes, hnodes, rfl⟩, ?_⟩
  rw [placeEdge_eq] at hedges
  rw [placeNode_eq] at hnodes
  refine ⟨map_of_placedBy (fun _ _ _ => rfl) hnodes, map_of_placedBy (fun _ _ _ => rfl) hedges,
    ?_, ?_⟩
  · -- A node is drawn in the frame that its edges have looked up.
    exact box_of_placedBy (fun _ _ _ => rfl) hnodes
  · refine between_of_placedBy (fun edge source target => ⟨_, rfl, ?_⟩) hedges
    simp only [edgeBetween, Router.ends_route]
    exact Rect.anchors_mem_sideMiddles source target _

variable {config}

/-- In exact arithmetic the sides of the frames are in order. -/
theorem valid_of_mem_nodeFrames (hwidth : 0 ≤ config.nodeWidth) (hheight : 0 ≤ config.nodeHeight)
    (name : String) (frame : Rect Rat) (h : (name, frame) ∈ nodeFrames Rat config chart) :
    frame.Valid := by
  rcases List.mem_map.1 h with ⟨⟨name, frame⟩, hmem, heq⟩
  rcases Prod.mk.inj heq with ⟨rfl, rfl⟩
  -- Nodes have no sizes of their own, they fill their cells.
  refine Rect.Valid.shifted (CellGrid.valid_of_mem_frames (fun name => ?_) hmem) _ _
  exact ⟨Rat.intCast_nonneg.2 hwidth, Rat.intCast_nonneg.2 hheight⟩

end Flowchart

end TextDiagram
