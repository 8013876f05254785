import TextDiagram.ClassDiagram.Basic
import TextDiagram.Config
import TextDiagram.Geometry.Connector
import TextDiagram.Grid
import TextDiagram.LayoutError
/-!
# Placed class diagrams

Class boxes stand on a grid. A box has three compartments, for its name, its properties and its
methods; an empty compartment is as high as one with a single member. Relationships join the facing
sides of two boxes.
-/

namespace TextDiagram

/-- A class box with its compartments. -/
structure PositionedClass (α : Type) where
  classDef : ClassDefinition
  frame : Rect α
  headerFrame : Rect α
  propertiesFrame : Rect α
  methodsFrame : Rect α
  deriving DecidableEq, Repr

/-- A relationship on its way, with the places of its texts. -/
structure PositionedRelationship (α : Type) where
  relationship : ClassRelationship
  line : Segment α
  labelPosition : Option (Point α)
  sourceLabelPosition : Option (Point α)
  targetLabelPosition : Option (Point α)
  deriving DecidableEq, Repr

/-- A placed class diagram. -/
structure ClassLayout (α : Type) where
  size : Size α
  classes : List (PositionedClass α)
  relationships : List (PositionedRelationship α)
  deriving DecidableEq, Repr

namespace ClassDiagram

variable {α : Type} [Scalar α]

/-- The height of a compartment with some members. -/
def compartmentHeight (config : Config) (members : List ClassMember) : α :=
  (Nat.max 1 members.length : α) * config.classMemberHeight

/-- The size of a class box. -/
def boxSize (config : Config) (c : ClassDefinition) : Size α where
  width := config.classBoxWidth
  height := config.classHeaderHeight + compartmentHeight config c.properties +
    compartmentHeight config c.methods + 4

/-- A class box in its frame. -/
def placeClass (config : Config) (c : ClassDefinition) (frame : Rect α) : PositionedClass α :=
  let headerBottom := frame.top + config.classHeaderHeight
  let propertiesBottom := headerBottom + compartmentHeight config c.properties
  { classDef := c
    frame := frame
    headerFrame := ⟨frame.left, frame.top, frame.right, headerBottom⟩
    propertiesFrame := ⟨frame.left, headerBottom, frame.right, propertiesBottom⟩
    methodsFrame := ⟨frame.left, propertiesBottom, frame.right, frame.bottom⟩ }

/-- A place for an optional text; an empty text needs none. -/
def placeFor (text : Option String) (place : Point α) : Option (Point α) :=
  (text.filter (!·.isEmpty)).map fun _ => place

/-- One relationship on its way. -/
def placeRelationship (frames : List (String × Rect α)) (r : ClassRelationship) :
    Except LayoutError (PositionedRelationship α) := do
  let source ← placedUnder frames r.source
  let target ← placedUnder frames r.target
  let line := source.connector target
  return {
    relationship := r
    line := line
    labelPosition := placeFor r.label line.labelPosition
    sourceLabelPosition := placeFor r.sourceCardinality line.startLabelPosition
    targetLabelPosition := placeFor r.targetCardinality line.reversed.startLabelPosition }

/-- Places a class diagram. -/
def layout (config : Config) (diagram : ClassDiagram) : Except LayoutError (ClassLayout α) := do
  let frames := Grid.frames (config.padding : α) config.classSpacing
    (diagram.classes.map (boxSize config))
  let named := (diagram.classes.map (·.name)).zip frames
  let relationships ← diagram.relationships.mapM (placeRelationship named)
  return {
    size := canvasSize frames config.padding
    classes := diagram.classes.zipWith (placeClass config) frames
    relationships := relationships }

end ClassDiagram

end TextDiagram
