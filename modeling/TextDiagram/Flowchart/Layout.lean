import TextDiagram.Flowchart.Basic
import TextDiagram.Config
import TextDiagram.LayoutError
import TextDiagram.Placement
import TextDiagram.Router
/-!
# Placed flowcharts

Nodes stand in the cells of a layered placement. A block is framed by the smallest rectangle around
its nodes and the blocks in it, padded, with a strip for its label on top. The drawing is shifted
so that no frame reaches into the padding, and edges are routed at last.
-/

namespace TextDiagram

/-- A node on its place, with the style attached to it. -/
structure PositionedNode (α : Type) where
  node : FlowNode
  frame : Rect α
  layer : Nat
  style : Option NodeStyle
  deriving DecidableEq, Repr

/-- An edge on its way. -/
structure PositionedEdge (α : Type) where
  edge : FlowEdge
  path : Path α
  labelPosition : Option (Point α)
  deriving DecidableEq, Repr

/-- A framed block. -/
structure PositionedSubgraph (α : Type) where
  subgraph : Subgraph
  frame : Rect α
  labelPosition : Point α
  deriving DecidableEq, Repr

/-- A placed flowchart. -/
structure FlowchartLayout (α : Type) where
  size : Size α
  nodes : List (PositionedNode α)
  edges : List (PositionedEdge α)
  subgraphs : List (PositionedSubgraph α)
  deriving DecidableEq, Repr

namespace Flowchart

variable {α : Type} [Scalar α]

/-- The cells that the nodes of a flowchart stand in. -/
def cellGrid (config : Config) (direction : Direction) : CellGrid α where
  cell := ⟨config.nodeWidth, config.nodeHeight⟩
  spacing := ⟨config.horizontalSpacing, config.verticalSpacing⟩
  padding := config.padding
  direction := direction

/-- The frames of the members of a block: its nodes, then the blocks in it that have a frame. -/
def memberFrames (nodes blocks : List (String × Rect α)) (subgraph : Subgraph) : List (Rect α) :=
  subgraph.nodeIds.filterMap (Keyed.value? nodes) ++
    subgraph.subgraphIds.filterMap (Keyed.value? blocks)

/-- The frame around the frames of members; a block without members has none. -/
def enclosing (config : Config) : List (Rect α) → Option (Rect α)
  | [] => none
  | first :: others =>
    let padded := (others.foldl Rect.union first).padded config.subgraphPadding
    some { padded with top := padded.top - config.subgraphLabelHeight }

/-- Adds the frame of one block to those of the blocks closed before it. -/
def frameBlock (config : Config) (nodes blocks : List (String × Rect α)) (subgraph : Subgraph) :
    List (String × Rect α) :=
  match enclosing config (memberFrames nodes blocks subgraph) with
  | some frame => Keyed.put (subgraph.id, frame) blocks
  | none => blocks

/-- The frames of all blocks that have members, each under the id of its block. -/
def blockFrames (config : Config) (nodes : List (String × Rect α)) (subgraphs : List Subgraph) :
    List (String × Rect α) :=
  subgraphs.foldl (frameBlock config nodes) []

/-- How far frames have to move so that none starts inside the padding. -/
def shift (padding : α) : List (Rect α) → α × α
  | [] => (0, 0)
  | first :: others =>
    (Scalar.max 0 (padding - Scalar.minimum first.left (others.map (·.left))),
      Scalar.max 0 (padding - Scalar.minimum first.top (others.map (·.top))))

/-- Frames moved as a whole. -/
def shiftFrames (move : α × α) (frames : List (String × Rect α)) : List (String × Rect α) :=
  frames.map fun (name, frame) => (name, frame.shifted move.1 move.2)

/-- One node on its place. -/
def placeNode (chart : Flowchart) (frames : List (String × Rect α))
    (layers : List (String × Nat)) (node : FlowNode) : Except LayoutError (PositionedNode α) := do
  let frame ← placedUnder frames node.id
  let layer ← placedUnder layers node.id
  return ⟨node, frame, layer, chart.styleFor node.id⟩

/-- One edge on its way around the boxes of a router. -/
def routeEdge (router : Router α) (grid : CellGrid α) (frames : List (String × Rect α))
    (edge : FlowEdge) : Except LayoutError (PositionedEdge α) := do
  let source ← placedUnder frames edge.source
  let target ← placedUnder frames edge.target
  let route := router.route edge.source edge.target (grid.anchors source target)
  return ⟨edge, route.path, edge.label.map fun _ => route.labelPosition⟩

/-- One block in its frame, if it has one. -/
def placeBlock (config : Config) (blocks : List (String × Rect α)) (subgraph : Subgraph) :
    Option (PositionedSubgraph α) :=
  (Keyed.value? blocks subgraph.id).map fun frame =>
    ⟨subgraph, frame, ⟨frame.left + config.subgraphPadding,
      frame.top + (config.subgraphLabelHeight : α) / 2 + 4⟩⟩

/-- Places a flowchart with a router, which is given the nodes. -/
def layoutBy (config : Config) (chart : Flowchart) :
    StateM (Router α) (Except LayoutError (FlowchartLayout α)) := do
  let grid : CellGrid α := cellGrid config chart.direction
  let placement := grid.place (chart.nodes.map (·.id))
    (chart.edges.map fun edge => (edge.source, edge.target)) []
  -- Frames of blocks reach above and to the left of their nodes.
  let unshiftedBlocks := blockFrames config placement.frames chart.subgraphs
  let move := shift (config.padding : α) ((placement.frames ++ unshiftedBlocks).map (·.2))
  let frames := shiftFrames move placement.frames
  let blocks := shiftFrames move unshiftedBlocks
  let layers := placement.nodes.map fun node => (node.name, node.layer)
  -- Edges keep clear of nodes only; they may cross the frames of blocks.
  modify (·.setBoxes frames)
  let router ← get
  return do
    let edges ← chart.edges.mapM (routeEdge router grid frames)
    let nodes ← chart.nodes.mapM (placeNode chart frames layers)
    return {
      size := canvasSize ((frames ++ blocks).map (·.2)) config.padding
      nodes := nodes
      edges := edges
      subgraphs := chart.subgraphs.filterMap (placeBlock config blocks) }

/-- Places a flowchart. -/
def layout (config : Config) (chart : Flowchart) : Except LayoutError (FlowchartLayout α) :=
  (chart.layoutBy config .usual).1

end Flowchart

end TextDiagram
