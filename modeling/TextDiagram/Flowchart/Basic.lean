import TextDiagram.Direction
import TextDiagram.Keyed
import TextDiagram.Number.Numeral
/-!
# Flowcharts

Nodes in brackets of different shapes, edges of four styles, nested blocks of nodes and styles that
are attached to nodes by name.
-/

namespace TextDiagram

/-- The outline of a node. -/
inductive NodeShape where
  | rectangle | rounded | stadium | diamond | hexagon | circle | asymmetric
  deriving DecidableEq, Repr, Inhabited

/-- The stroke of an edge. -/
inductive EdgeStyle where
  | solid | dotted | thick | invisible
  deriving DecidableEq, Repr, Inhabited

/-- The look of a node as written: colours as texts and the width of the border. -/
structure NodeStyle where
  fill : Option String := none
  stroke : Option String := none
  strokeWidth : Option Numeral := none
  color : Option String := none
  deriving DecidableEq, Repr, Inhabited

/-- A node of a flowchart. -/
structure FlowNode where
  id : String
  label : String
  shape : NodeShape
  deriving DecidableEq, Repr, Inhabited

instance : Keyed FlowNode where
  key := FlowNode.id

/-- An edge of a flowchart; a label is never empty. -/
structure FlowEdge where
  source : String
  target : String
  label : Option String
  style : EdgeStyle
  deriving DecidableEq, Repr, Inhabited

/-- A block of nodes. It lists the nodes mentioned while it was the innermost open block and the
blocks that were opened directly inside it. -/
structure Subgraph where
  id : String
  label : String
  nodeIds : List String
  subgraphIds : List String
  deriving DecidableEq, Repr, Inhabited

/-- A flowchart: nodes in the order of first mention, edges as declared, blocks in the order in
which they were closed, styles by name and the names of the styles attached to nodes. -/
structure Flowchart where
  direction : Direction
  nodes : List FlowNode
  edges : List FlowEdge
  subgraphs : List Subgraph
  classDefs : List (String × NodeStyle)
  nodeClasses : List (String × String)
  deriving DecidableEq, Repr, Inhabited

/-- The style attached to a node: the one registered under the name given to the node. -/
def Flowchart.styleFor (chart : Flowchart) (nodeId : String) : Option NodeStyle :=
  (Keyed.value? chart.nodeClasses nodeId).bind (Keyed.value? chart.classDefs)

end TextDiagram
