import TextDiagram.Drawing.Arrow
import TextDiagram.EntityDiagram.Layout
/-!
# Drawing entity-relationship diagrams

Relationships with a mark for the cardinality at each end, then the entity boxes.
-/

namespace TextDiagram.EntityLayout

variable {α : Type} [Scalar α] [Trig α]

/-- The point of a line at a distance from its start. -/
def away (start u : Point α) (distance : α) : Point α :=
  ⟨start.x + u.x * distance, start.y + u.y * distance⟩

/-- A bar across a line. -/
def drawBar (pen : Pen) (start u : Point α) (distance : α) : Call α :=
  let c := away start u distance
  pen.strokeSegment ⟨c.x + -u.y * 6, c.y + u.x * 6⟩ ⟨c.x - -u.y * 6, c.y - u.x * 6⟩
    pen.config.edgeColor (pen.width 3)

/-- A circle on a line. -/
def drawCircle (pen : Pen) (start u : Point α) (distance : α) : Call α :=
  .ellipse (pen.box (Rect.around (away start u distance) 4))
    (Paint.bordered pen.config.backgroundColor pen.config.edgeColor (pen.width 3))

/-- Three claws that spread from a point of the line to its start. -/
def drawFoot (pen : Pen) (start u : Point α) : List (Call α) :=
  let root := away start u 12
  -- One claw on each side of the line and one along it.
  [(-1 : Int), 0, 1].map fun (side : Int) =>
    let claw : Point α :=
      ⟨start.x + -u.y * 6 * (side : α), start.y + u.x * 6 * (side : α)⟩
    pen.strokeSegment root claw pen.config.edgeColor (pen.width 3)

/-- The mark for a cardinality at the start of a line. -/
def drawCardinality (pen : Pen) (line : Segment α) (c : Cardinality) : List (Call α) :=
  let start := line.start
  let u := Pen.direction line
  match c with
  | .exactlyOne => [drawBar pen start u 6, drawBar pen start u 10]
  | .zeroOrOne => [drawBar pen start u 6, drawCircle pen start u 14]
  | .oneOrMore => drawFoot pen start u ++ [drawBar pen start u 16]
  | .zeroOrMore => drawFoot pen start u ++ [drawCircle pen start u 18]

/-- A relationship with its marks and label. -/
def drawRelationship (pen : Pen) (small : Font) (p : PositionedEntityRelationship α) :
    List (Call α) :=
  pen.strokePath (Path.straight p.line) pen.config.edgeColor (pen.width 3) ++
    drawCardinality pen p.line p.relationship.sourceCardinality ++
    drawCardinality pen p.line.reversed p.relationship.targetCardinality ++
    pen.writeLabel p.labelPosition p.relationship.label small

/-- The text of an attribute: type, name and key. -/
def attributeText (a : EntityAttribute) : String :=
  a.attributeType ++ " " ++ a.name ++
    match a.key with
    | some key => " " ++ key.code
    | none => ""

/-- An entity box. -/
def drawEntity (pen : Pen) (font small : Font) (e : PositionedEntity α) : List (Call α) :=
  let config := pen.config
  let width := pen.width pen.lineHalves
  [.rectangle (pen.box e.frame)
      (Paint.bordered config.labelBackground config.nodeBorderColor width),
    .rectangle (pen.box e.headerFrame)
      (Paint.bordered config.nodeColor config.nodeBorderColor width)] ++
    pen.writeCentered e.headerFrame.center e.entity.name font ++
    (e.entity.attributes.zip e.attributeFrames).flatMap fun (a, frame) =>
      pen.writeLeft ⟨frame.left + 8, frame.center.y⟩ (attributeText a) small

/-- A whole entity-relationship diagram. -/
def paint (pen : Pen) (font small : Font) (l : EntityLayout α) : List (Call α) :=
  l.relationships.flatMap (drawRelationship pen small) ++
    l.entities.flatMap (drawEntity pen font small)

/-- Draws an entity-relationship diagram with the font of ordinary text and a smaller one. -/
def draw (r : Renderer) (l : EntityLayout α) : StateM FontCache (List (Call α)) := do
  let font ← r.font none
  let small ← r.font (some (r.config.fontSize - 2))
  return paint r.toPen font small l

end TextDiagram.EntityLayout
