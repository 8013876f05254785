import TextDiagram.ClassDiagram.Drawing
import TextDiagram.EntityDiagram.Drawing
import TextDiagram.Flowchart.Drawing
import TextDiagram.Gantt.Drawing
import TextDiagram.Layout
import TextDiagram.Pie.Drawing
import TextDiagram.Sequence.Drawing
import TextDiagram.StateDiagram.Drawing
/-!
# Rendering placed diagrams of all kinds

A rendering is a drawing with the background of the configuration. Its size is that of the canvas
in whole pixels, at least one each way.
-/

namespace TextDiagram.Renderer

variable {α : Type} [Scalar α] [Trig α]

/-- The calls that draw a placed diagram. -/
def draw (r : Renderer) : Layout α → StateM FontCache (Except DrawError (List (Call α)))
  | .flowchart l => l.draw r
  | .sequence l => return .ok (← l.draw r)
  | .pie l => return .ok (← l.draw r)
  | .classes l => return .ok (← l.draw r)
  | .states l => return .ok (← l.draw r)
  | .gantt l => return .ok (← l.draw r)
  | .entities l => return .ok (← l.draw r)

/-- A length of the canvas in whole pixels. -/
def pixels (r : Renderer) (length : α) : Int := max 1 (Scalar.ceil (length * r.toPen.factor))

/-- Renders a placed diagram. -/
def render (r : Renderer) (l : Layout α) : StateM FontCache (Except DrawError (Image α)) := do
  let calls ← r.draw l
  return calls.map fun calls =>
    ⟨r.pixels l.size.width, r.pixels l.size.height, r.config.backgroundColor, calls⟩

end TextDiagram.Renderer
