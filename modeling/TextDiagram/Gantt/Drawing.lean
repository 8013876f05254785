import TextDiagram.Drawing.Stripe
import TextDiagram.Drawing.Title
import TextDiagram.Gantt.Layout
/-!
# Drawing Gantt charts

Grid lines with their days, section headers and bars.
-/

namespace TextDiagram.GanttLayout

variable {α : Type} [Scalar α]

/-- A grid line from the top of the chart to its bottom, with the day above it. -/
def drawGridLine (pen : Pen) (small : Font) (top bottom : α) (g : GridLine α) : List (Call α) :=
  pen.strokeSegment ⟨g.x, top⟩ ⟨g.x, bottom⟩ pen.config.lifelineColor (pen.width 2) ::
    pen.writeCentered ⟨g.x, top - 12⟩ g.label small

/-- A section header. -/
def drawSection (pen : Pen) (font : Font) (s : PositionedSection α) : List (Call α) :=
  pen.write ⟨pen.config.padding, s.y⟩ s.name pen.config.nodeBorderColor font .left none

/-- A bar with the name of its task. -/
def drawTask (pen : Pen) (small : Font) (t : PositionedTask α) : List (Call α) :=
  .rectangle (pen.box t.bar) (Paint.filled t.color) ::
    (if t.isStriped then pen.drawStripes t.bar else []) ++
    (if t.isBordered then
      [.rectangle (pen.box t.bar) (Paint.outlined pen.config.textColor (pen.width 4))]
    else []) ++
    pen.writeLeft t.labelPosition t.task.name small

/-- All of a chart but its title. -/
def paint (pen : Pen) (font small : Font) (l : GanttLayout α) : List (Call α) :=
  l.gridLines.flatMap (drawGridLine pen small l.chartTop l.chartBottom) ++
    l.sections.flatMap (drawSection pen font) ++ l.tasks.flatMap (drawTask pen small)

/-- Draws a Gantt chart with the font of ordinary text, a smaller one and that of titles. -/
def draw (r : Renderer) (l : GanttLayout α) : StateM FontCache (List (Call α)) := do
  let font ← r.font none
  let small ← r.font (some (r.config.fontSize - 3))
  let title ← r.drawTitle (titleLine? l.title l.titlePosition)
  return title ++ paint r.toPen font small l

end TextDiagram.GanttLayout
