import TextDiagram.StateDiagram.Basic
import TextDiagram.Config
import TextDiagram.LayoutError
import TextDiagram.Placement
import TextDiagram.Router
/-!
# Placed state diagrams

States stand in the cells of a layered placement; the start and end marker is smaller than its
cell. Transitions are routed like the edges of a flowchart.
-/

namespace TextDiagram

/-- A state on its place. -/
structure PositionedState (α : Type) where
  state : StateNode
  frame : Rect α
  layer : Nat
  deriving DecidableEq, Repr

/-- A transition on its way. -/
structure PositionedTransition (α : Type) where
  transition : StateTransition
  path : Path α
  labelPosition : Option (Point α)
  deriving DecidableEq, Repr

/-- A placed state diagram. -/
structure StateLayout (α : Type) where
  size : Size α
  states : List (PositionedState α)
  transitions : List (PositionedTransition α)
  deriving DecidableEq, Repr

namespace StateDiagram

variable {α : Type} [Scalar α]

/-- The cells that states stand in. -/
def cellGrid (config : Config) (direction : Direction) : CellGrid α where
  cell := ⟨config.stateWidth, config.stateHeight⟩
  spacing := ⟨config.stateSpacing, config.stateSpacing⟩
  padding := config.padding
  direction := direction

/-- The sizes of the states that do not fill their cell. -/
def markerSizes (config : Config) (states : List StateNode) : List (String × Size α) :=
  let side : α := 2 * (config.startEndRadius : α)
  (states.filter (·.isStartEnd)).map fun state => (state.id, ⟨side, side⟩)

/-- One state on its place. -/
def placeState (frames : List (String × Rect α)) (layers : List (String × Nat))
    (state : StateNode) : Except LayoutError (PositionedState α) := do
  let frame ← placedUnder frames state.id
  let layer ← placedUnder layers state.id
  return ⟨state, frame, layer⟩

/-- One transition on its way around the boxes of a router. -/
def routeTransition (router : Router α) (grid : CellGrid α) (frames : List (String × Rect α))
    (transition : StateTransition) : Except LayoutError (PositionedTransition α) := do
  let source ← placedUnder frames transition.source
  let target ← placedUnder frames transition.target
  let route := router.route transition.source transition.target (grid.anchors source target)
  return ⟨transition, route.path, transition.label.map fun _ => route.labelPosition⟩

/-- Places a state diagram with a router, which is given the states. -/
def layoutBy (config : Config) (diagram : StateDiagram) :
    StateM (Router α) (Except LayoutError (StateLayout α)) := do
  let grid : CellGrid α := cellGrid config diagram.direction
  let placement := grid.place (diagram.states.map (·.id))
    (diagram.transitions.map fun t => (t.source, t.target))
    (markerSizes config diagram.states)
  let frames := placement.frames
  let layers := placement.nodes.map fun node => (node.name, node.layer)
  modify (·.setBoxes frames)
  let router ← get
  return do
    let transitions ← diagram.transitions.mapM (routeTransition router grid frames)
    let states ← diagram.states.mapM (placeState frames layers)
    return {
      size := canvasSize (frames.map (·.2)) config.padding
      states := states
      transitions := transitions }

/-- Places a state diagram. -/
def layout (config : Config) (diagram : StateDiagram) : Except LayoutError (StateLayout α) :=
  (diagram.layoutBy config .usual).1

end StateDiagram

end TextDiagram
