import TextDiagram.Drawing.Arrow
import TextDiagram.Drawing.Dash
import TextDiagram.Sequence.Layout
/-!
# Drawing sequence diagrams

Each participant is drawn with its lifeline, an actor as a stick figure; messages lie on top.
-/

namespace TextDiagram.SequenceLayout

variable {α : Type} [Scalar α] [Trig α]

/-- A stick figure in the upper part of a frame. -/
def drawActor (pen : Pen) (frame : Rect α) : List (Call α) :=
  let color := pen.config.nodeBorderColor
  let width := pen.width 3
  let x := frame.center.x
  let top := frame.top + 2
  let neck := top + 10
  let hip := neck + 9
  [.ellipse (pen.box ⟨x - 5, top, x + 5, neck⟩) (Paint.outlined color width),
    pen.strokeSegment ⟨x, neck⟩ ⟨x, hip⟩ color width,
    pen.strokeSegment ⟨x - 9, neck + 4⟩ ⟨x + 9, neck + 4⟩ color width,
    pen.strokeSegment ⟨x, hip⟩ ⟨x - 7, hip + 7⟩ color width,
    pen.strokeSegment ⟨x, hip⟩ ⟨x + 7, hip + 7⟩ color width]

/-- The box or figure at the head of a lifeline, with the label. -/
def drawHeader (pen : Pen) (font : Font) (p : Participant) (frame : Rect α) : List (Call α) :=
  if p.isActor then
    drawActor pen frame ++ pen.writeCentered ⟨frame.center.x, frame.bottom - 6⟩ p.label font
  else
    .roundedRectangle (pen.box frame) ((pen.config.cornerRadius : α) * pen.factor)
        (Paint.bordered pen.config.nodeColor pen.config.nodeBorderColor
          (pen.width pen.lineHalves)) ::
      pen.writeCentered frame.center p.label font

/-- A participant with its lifeline. -/
def drawParticipant (pen : Pen) (font : Font) (p : PositionedParticipant α) : List (Call α) :=
  let lifeline : Segment α := ⟨⟨p.lifelineX, p.lifelineTop⟩, ⟨p.lifelineX, p.lifelineBottom⟩⟩
  pen.strokeDashed (Path.straight lifeline) pen.config.lifelineColor (pen.width 2) ++
    drawHeader pen font p.participant p.headerFrame

/-- The mark at the end of a message. -/
def drawHead (pen : Pen) (head : MessageHead) (line : Segment α) : List (Call α) :=
  match head with
  | .arrow => [pen.drawArrow line pen.config.arrowColor]
  | .cross => pen.drawCross line.stop pen.config.arrowColor
  | .async => [pen.drawOpenArrow line pen.config.arrowColor]
  | .none => []

/-- A message with its text. -/
def drawMessage (pen : Pen) (font : Font) (m : PositionedMessage α) : List (Call α) :=
  pen.stroke m.message.style.isDotted m.path pen.config.edgeColor (pen.width 3) ++
    drawHead pen m.message.style.head m.path.lastLeg ++
    pen.writeLabel m.labelPosition m.message.text font

/-- A whole sequence diagram. -/
def paint (pen : Pen) (font : Font) (l : SequenceLayout α) : List (Call α) :=
  l.participants.flatMap (drawParticipant pen font) ++ l.messages.flatMap (drawMessage pen font)

/-- Draws a sequence diagram with the font of ordinary text. -/
def draw (r : Renderer) (l : SequenceLayout α) : StateM FontCache (List (Call α)) := do
  let font ← r.font none
  return paint r.toPen font l

end TextDiagram.SequenceLayout
