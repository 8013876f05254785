import TextDiagram.EntityDiagram.Basic
import TextDiagram.Config
import TextDiagram.Geometry.Connector
import TextDiagram.Grid
import TextDiagram.LayoutError
/-!
# Placed entity-relationship diagrams

Entity boxes stand on a grid. A box has a header and one row for each attribute; there is room for
one row even in an empty box. Relationships join the facing sides of two boxes.
-/

namespace TextDiagram

/-- An entity box with its rows. -/
structure PositionedEntity (α : Type) where
  entity : Entity
  frame : Rect α
  headerFrame : Rect α
  attributeFrames : List (Rect α)
  deriving DecidableEq, Repr

/-- A relationship on its way. -/
structure PositionedEntityRelationship (α : Type) where
  relationship : EntityRelationship
  line : Segment α
  labelPosition : Point α
  deriving DecidableEq, Repr

/-- A placed entity-relationship diagram. -/
structure EntityLayout (α : Type) where
  size : Size α
  entities : List (PositionedEntity α)
  relationships : List (PositionedEntityRelationship α)
  deriving DecidableEq, Repr

namespace EntityDiagram

variable {α : Type} [Scalar α]

/-- The size of an entity box. -/
def boxSize (config : Config) (entity : Entity) : Size α where
  width := config.entityWidth
  height := config.entityHeaderHeight +
    (Nat.max 1 entity.attributes.length : α) * config.entityAttributeHeight + 4

/-- An entity box in its frame. -/
def placeEntity (config : Config) (entity : Entity) (frame : Rect α) : PositionedEntity α :=
  let headerBottom := frame.top + config.entityHeaderHeight
  let rowHeight : α := config.entityAttributeHeight
  { entity := entity
    frame := frame
    headerFrame := ⟨frame.left, frame.top, frame.right, headerBottom⟩
    attributeFrames := (List.range entity.attributes.length).map fun (row : Nat) =>
      Rect.ofSize frame.left (headerBottom + (row : α) * rowHeight)
        ⟨frame.width, rowHeight⟩ }

/-- One relationship on its way. -/
def placeRelationship (frames : List (String × Rect α)) (r : EntityRelationship) :
    Except LayoutError (PositionedEntityRelationship α) := do
  let source ← placedUnder frames r.source
  let target ← placedUnder frames r.target
  let line := source.connector target
  return ⟨r, line, line.labelPosition⟩

/-- Places an entity-relationship diagram. -/
def layout (config : Config) (diagram : EntityDiagram) : Except LayoutError (EntityLayout α) := do
  let frames := Grid.frames (config.padding : α) config.entitySpacing
    (diagram.entities.map (boxSize config))
  let named := (diagram.entities.map (·.name)).zip frames
  let relationships ← diagram.relationships.mapM (placeRelationship named)
  return {
    size := canvasSize frames config.padding
    entities := diagram.entities.zipWith (placeEntity config) frames
    relationships := relationships }

end EntityDiagram

end TextDiagram
