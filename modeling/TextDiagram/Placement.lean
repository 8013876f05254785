import TextDiagram.Direction
import TextDiagram.Geometry.Basic
import TextDiagram.Graph.Order
import TextDiagram.Graph.Layer
/-!
# Layered placement

The layers of a graph become rows or columns of cells. All cells have one size; a node stands in
the middle of its cell. The direction says whether layers advance along y or along x and from which
side they are counted.
-/

namespace TextDiagram

/-- The grid of cells that a graph is placed on. -/
structure CellGrid (α : Type) where
  cell : Size α
  spacing : Size α
  padding : α
  direction : Direction
  deriving DecidableEq, Repr

/-- A node on its place. -/
structure PlacedNode (α : Type) where
  name : String
  layer : Nat
  position : Nat
  frame : Rect α
  deriving DecidableEq, Repr

instance {α : Type} : Keyed (PlacedNode α) where
  key := PlacedNode.name

/-- A placed graph. Its nodes are listed layer by layer. -/
structure Placement (α : Type) where
  order : List String
  layers : List (List String)
  hasCycles : Bool
  nodes : List (PlacedNode α)
  deriving DecidableEq, Repr

namespace CellGrid

variable {α : Type} [Scalar α]

/-- The upper left corner of the cell at a position of a layer. -/
def origin (grid : CellGrid α) (layerCount layer position : Nat) : Point α :=
  let row : Int :=
    if grid.direction.isReversed then (layerCount : Int) - 1 - (layer : Int) else (layer : Int)
  let stepX := grid.cell.width + grid.spacing.width
  let stepY := grid.cell.height + grid.spacing.height
  if grid.direction.isHorizontal then
    ⟨grid.padding + row * stepX, grid.padding + (position : α) * stepY⟩
  else ⟨grid.padding + (position : α) * stepX, grid.padding + row * stepY⟩

/-- The frame of a node of the given size in the middle of its cell. -/
def frame (grid : CellGrid α) (layerCount layer position : Nat) (size : Size α) : Rect α :=
  let corner := grid.origin layerCount layer position
  Rect.ofSize (corner.x + (grid.cell.width - size.width) / 2)
    (corner.y + (grid.cell.height - size.height) / 2) size

/-- The nodes of one layer on their places. -/
def placeLayer (grid : CellGrid α) (sizes : List (String × Size α)) (layerCount : Nat)
    (layer : Nat) (names : List String) : List (PlacedNode α) :=
  names.mapIdx fun position name =>
    let size := (Keyed.value? sizes name).getD grid.cell
    ⟨name, layer, position, grid.frame layerCount layer position size⟩

/-- Places a graph. A node without a size of its own fills its cell. An edge that does not lead to
a deeper layer shows that the graph has a cycle. -/
def place (grid : CellGrid α) (names : List String) (edges : List (String × String))
    (sizes : List (String × Size α)) : Placement α :=
  let graph := Graph.ofEdges names edges
  let order := graph.order
  let known := graph.layering order
  let layers := Graph.layers known
  { order
    layers
    hasCycles := edges.any fun (source, target) =>
      Graph.layerOf known target ≤ Graph.layerOf known source
    nodes := (layers.mapIdx (grid.placeLayer sizes layers.length)).flatten }

/-- The straight line of an edge: it leaves the side of the source that faces the direction and
enters the opposite side of the target. -/
def anchors (grid : CellGrid α) (source target : Rect α) : Segment α :=
  match grid.direction with
  | .bottomTop => ⟨source.topCenter, target.bottomCenter⟩
  | .leftRight => ⟨source.rightMiddle, target.leftMiddle⟩
  | .rightLeft => ⟨source.leftMiddle, target.rightMiddle⟩
  | .topDown | .topBottom => ⟨source.bottomCenter, target.topCenter⟩

end CellGrid

namespace Placement

/-- The frames of the placed nodes under their names. -/
def frames {α : Type} (p : Placement α) : List (String × Rect α) :=
  p.nodes.map fun node => (node.name, node.frame)

end Placement

end TextDiagram
