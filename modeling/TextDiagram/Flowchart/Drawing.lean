import TextDiagram.Drawing.Arrow
import TextDiagram.Drawing.Dash
import TextDiagram.Flowchart.Layout
/-!
# Drawing flowcharts

Frames of blocks are drawn first, outer ones before inner ones, then edges, then nodes, so that
nothing is covered by what lies behind it.
-/

namespace TextDiagram.FlowchartLayout

variable {α : Type} [Scalar α] [Trig α]

/-- The frame and the label of a block. -/
def drawSubgraph (pen : Pen) (font : Font) (s : PositionedSubgraph α) : List (Call α) :=
  let paint := Paint.bordered pen.config.subgraphColor pen.config.nodeBorderColor (pen.width 2)
  .rectangle (pen.box s.frame) paint :: pen.writeLeft s.labelPosition s.subgraph.label font

/-- An edge with its arrowhead and label; an invisible edge is not drawn. -/
def drawEdge (pen : Pen) (font : Font) (e : PositionedEdge α) : List (Call α) :=
  if e.edge.style = .invisible then []
  else
    let halves := pen.lineHalves * if e.edge.style = .thick then 2 else 1
    pen.stroke (e.edge.style = .dotted) e.path pen.config.edgeColor (pen.width halves) ++
      pen.drawArrow e.path.lastLeg pen.config.arrowColor ::
      pen.writeLabel? e.labelPosition e.edge.label font

/-- The corners of a diamond in a frame. -/
def diamond (frame : Rect α) : List (Point α) :=
  [frame.topCenter, frame.rightMiddle, frame.bottomCenter, frame.leftMiddle]

/-- The corners of a hexagon in a frame. -/
def hexagon (frame : Rect α) : List (Point α) :=
  [⟨frame.left + 15, frame.top⟩, ⟨frame.right - 15, frame.top⟩, frame.rightMiddle,
    ⟨frame.right - 15, frame.bottom⟩, ⟨frame.left + 15, frame.bottom⟩, frame.leftMiddle]

/-- The corners of a flag in a frame: a rectangle with a notch on its left. -/
def flag (frame : Rect α) : List (Point α) :=
  [⟨frame.left, frame.top⟩, ⟨frame.right, frame.top⟩, ⟨frame.right, frame.bottom⟩,
    ⟨frame.left, frame.bottom⟩, ⟨frame.left + 15, frame.center.y⟩]

/-- The outline of a node. -/
def drawShape (pen : Pen) (shape : NodeShape) (frame : Rect α) (paint : Paint) : Call α :=
  match shape with
  | .rectangle => .rectangle (pen.box frame) paint
  | .rounded =>
    .roundedRectangle (pen.box frame) ((pen.config.cornerRadius : α) * pen.factor) paint
  | .stadium => .roundedRectangle (pen.box frame) (frame.height / 2 * pen.factor) paint
  | .circle =>
    let radius := Scalar.min frame.width frame.height / 2
    .ellipse (pen.box (Rect.around frame.center radius)) paint
  | .diamond => .polygon ((diamond frame).map pen.point) paint
  | .hexagon => .polygon ((hexagon frame).map pen.point) paint
  | .asymmetric => .polygon ((flag frame).map pen.point) paint

/-- A node with its label in the colours of its style. -/
def drawNode (pen : Pen) (font : Font) (n : PositionedNode α) :
    Except DrawError (List (Call α)) :=
  let style := n.style.getD {}
  let fill := Color.named style.fill pen.config.nodeColor
  let outline := Color.named style.stroke pen.config.nodeBorderColor
  let textColor := Color.named style.color pen.config.textColor
  (pen.styledWidth α style.strokeWidth).map fun width =>
    drawShape pen n.node.shape n.frame (Paint.bordered fill outline width) ::
      pen.write n.frame.center n.node.label textColor font .center none

/-- The nodes in order. -/
def drawNodes (pen : Pen) (font : Font) (nodes : List (PositionedNode α)) :
    Except DrawError (List (Call α)) :=
  (nodes.mapM (drawNode pen font)).map List.flatten

/-- A whole flowchart. -/
def paint (pen : Pen) (font : Font) (l : FlowchartLayout α) : Except DrawError (List (Call α)) :=
  (drawNodes pen font l.nodes).map fun nodes =>
    l.subgraphs.reverse.flatMap (drawSubgraph pen font) ++
      l.edges.flatMap (drawEdge pen font) ++ nodes

/-- Draws a flowchart with the font of ordinary text. -/
def draw (r : Renderer) (l : FlowchartLayout α) :
    StateM FontCache (Except DrawError (List (Call α))) := do
  let font ← r.font none
  return paint r.toPen font l

end TextDiagram.FlowchartLayout
