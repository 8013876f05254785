import TextDiagram.ClassDiagram.Layout
import TextDiagram.Drawing.Arrow
import TextDiagram.Drawing.Dash
/-!
# Drawing class diagrams

Relationships with the marker of their type at the target, then the class boxes.
-/

namespace TextDiagram.ClassLayout

variable {α : Type} [Scalar α] [Trig α]

/-- The corners of the triangle at the tip of a line. -/
def triangle (tip u : Point α) : List (Point α) :=
  let base : Point α := ⟨tip.x - u.x * 12, tip.y - u.y * 12⟩
  [tip, ⟨base.x + -u.y * 12 / 2, base.y + u.x * 12 / 2⟩,
    ⟨base.x - -u.y * 12 / 2, base.y - u.x * 12 / 2⟩]

/-- The corners of the rhombus at the tip of a line. -/
def rhombus (tip u : Point α) : List (Point α) :=
  let middle : Point α := ⟨tip.x - u.x * 12, tip.y - u.y * 12⟩
  [tip, ⟨middle.x + -u.y * 12 / (5 / 2), middle.y + u.x * 12 / (5 / 2)⟩,
    ⟨tip.x - u.x * 2 * 12, tip.y - u.y * 2 * 12⟩,
    ⟨middle.x - -u.y * 12 / (5 / 2), middle.y - u.x * 12 / (5 / 2)⟩]

/-- The marker at the target end of a relationship. -/
def drawMarker (pen : Pen) (relationType : RelationType) (line : Segment α) : List (Call α) :=
  let config := pen.config
  let u := Pen.direction line
  let mark := fun (corners : List (Point α)) (fill : Color) =>
    [Call.polygon (corners.map pen.point)
      (Paint.bordered fill config.arrowColor (pen.width 3))]
  match relationType with
  | .association | .dependency => [pen.drawArrow line config.arrowColor]
  | .link => []
  | .inheritance | .realization => mark (triangle line.stop u) config.backgroundColor
  | .composition => mark (rhombus line.stop u) config.arrowColor
  | .aggregation => mark (rhombus line.stop u) config.backgroundColor

/-- Relationships of these types are dashed. -/
def isDashed : RelationType → Bool
  | .dependency | .realization => true
  | _ => false

/-- A relationship with its marker and texts. -/
def drawRelationship (pen : Pen) (small : Font) (p : PositionedRelationship α) :
    List (Call α) :=
  let r := p.relationship
  pen.stroke (isDashed r.relationType) (Path.straight p.line) pen.config.edgeColor
      (pen.width 3) ++
    drawMarker pen r.relationType p.line ++
    pen.writeLabel? p.labelPosition r.label small ++
    pen.writeLabel? p.sourceLabelPosition r.sourceCardinality small ++
    pen.writeLabel? p.targetLabelPosition r.targetCardinality small

/-- The name of a class in its header, below the stereotype if there is one. -/
def drawName (pen : Pen) (font small : Font) (c : PositionedClass α) : List (Call α) :=
  let middle := c.headerFrame.center
  match c.classDef.stereotype.filter (!·.isEmpty) with
  | some text =>
    pen.writeCentered ⟨middle.x, middle.y - 8⟩ ("<<" ++ text ++ ">>") small ++
      pen.writeCentered ⟨middle.x, middle.y + 7⟩ c.classDef.name font
  | none => pen.writeCentered middle c.classDef.name font

/-- The anchor of the text of the member at an index of a compartment. -/
def memberAnchor (config : Config) (compartment : Rect α) (index : Nat) : Point α :=
  let row : α := config.classMemberHeight
  ⟨compartment.left + 8, compartment.top + row * (index : α) + row / 2⟩

/-- The members in a compartment. -/
def drawMembers (pen : Pen) (small : Font) (compartment : Rect α) (members : List ClassMember) :
    List (Call α) :=
  (members.mapIdx fun index m =>
    pen.writeLeft (memberAnchor pen.config compartment index) m.display small).flatten

/-- A class box. -/
def drawClass (pen : Pen) (font small : Font) (c : PositionedClass α) : List (Call α) :=
  let config := pen.config
  let width := pen.width pen.lineHalves
  let m := c.methodsFrame
  [.rectangle (pen.box c.frame)
      (Paint.bordered config.labelBackground config.nodeBorderColor width),
    .rectangle (pen.box c.headerFrame)
      (Paint.bordered config.nodeColor config.nodeBorderColor width),
    pen.strokeSegment ⟨m.left, m.top⟩ ⟨m.right, m.top⟩ config.nodeBorderColor (pen.width 2)] ++
    drawName pen font small c ++
    drawMembers pen small c.propertiesFrame c.classDef.properties ++
    drawMembers pen small c.methodsFrame c.classDef.methods

/-- A whole class diagram. -/
def paint (pen : Pen) (font small : Font) (l : ClassLayout α) : List (Call α) :=
  l.relationships.flatMap (drawRelationship pen small) ++
    l.classes.flatMap (drawClass pen font small)

/-- Draws a class diagram with the font of ordinary text and a smaller one. -/
def draw (r : Renderer) (l : ClassLayout α) : StateM FontCache (List (Call α)) := do
  let font ← r.font none
  let small ← r.font (some (r.config.fontSize - 2))
  return paint r.toPen font small l

end TextDiagram.ClassLayout
