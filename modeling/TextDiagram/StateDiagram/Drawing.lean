import TextDiagram.Drawing.Arrow
import TextDiagram.StateDiagram.Layout
/-!
# Drawing state diagrams

Transitions, then states. The start and end marker is a ring around a disc.
-/

namespace TextDiagram.StateLayout

variable {α : Type} [Scalar α] [Trig α]

/-- A transition with its arrowhead and label. -/
def drawTransition (pen : Pen) (font : Font) (t : PositionedTransition α) : List (Call α) :=
  pen.strokePath t.path pen.config.edgeColor (pen.width pen.lineHalves) ++
    pen.drawArrow t.path.lastLeg pen.config.arrowColor ::
    pen.writeLabel? t.labelPosition t.transition.label font

/-- The label of a state, with its description below in small letters. -/
def drawTexts (pen : Pen) (font small : Font) (state : StateNode) (middle : Point α) :
    List (Call α) :=
  match state.description with
  | none => pen.writeCentered middle state.label font
  | some description =>
    pen.writeCentered ⟨middle.x, middle.y - 8⟩ state.label font ++
      pen.writeCentered ⟨middle.x, middle.y + 8⟩ description small

/-- A state. -/
def drawState (pen : Pen) (font small : Font) (s : PositionedState α) : List (Call α) :=
  let config := pen.config
  if s.state.isStartEnd then
    [.ellipse (pen.box s.frame)
        (Paint.bordered config.backgroundColor config.textColor (pen.width 3)),
      .ellipse (pen.box (s.frame.padded (-4))) (Paint.filled config.textColor)]
  else
    .roundedRectangle (pen.box s.frame) ((config.stateCornerRadius : α) * pen.factor)
        (Paint.bordered config.nodeColor config.nodeBorderColor (pen.width pen.lineHalves)) ::
      drawTexts pen font small s.state s.frame.center

/-- A whole state diagram. -/
def paint (pen : Pen) (font small : Font) (l : StateLayout α) : List (Call α) :=
  l.transitions.flatMap (drawTransition pen font) ++ l.states.flatMap (drawState pen font small)

/-- Draws a state diagram with the font of ordinary text and a smaller one. -/
def draw (r : Renderer) (l : StateLayout α) : StateM FontCache (List (Call α)) := do
  let font ← r.font none
  let small ← r.font (some (r.config.fontSize - 2))
  return paint r.toPen font small l

end TextDiagram.StateLayout
