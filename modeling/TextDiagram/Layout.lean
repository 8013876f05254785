import TextDiagram.Diagram
import TextDiagram.Flowchart.Layout
import TextDiagram.Sequence.Layout
import TextDiagram.Pie.Layout
import TextDiagram.ClassDiagram.Layout
import TextDiagram.StateDiagram.Layout
import TextDiagram.Gantt.Layout
import TextDiagram.EntityDiagram.Layout
/-!
# Placed diagrams of all kinds

Main statement: `kind_of_layout`, the layout of a diagram is one of its kind.
-/

namespace TextDiagram

/-- A placed diagram of any kind. -/
inductive Layout (α : Type) where
  | flowchart (layout : FlowchartLayout α)
  | sequence (layout : SequenceLayout α)
  | pie (layout : PieLayout α)
  | classes (layout : ClassLayout α)
  | states (layout : StateLayout α)
  | gantt (layout : GanttLayout α)
  | entities (layout : EntityLayout α)
  deriving DecidableEq, Repr

namespace Layout

variable {α : Type}

/-- The kind of a placed diagram. -/
def kind : Layout α → DiagramKind
  | flowchart _ => .flowchart
  | sequence _ => .sequence
  | pie _ => .pie
  | classes _ => .classes
  | states _ => .states
  | gantt _ => .gantt
  | entities _ => .entities

/-- The size of the canvas. -/
def size : Layout α → Size α
  | flowchart l => l.size
  | sequence l => l.size
  | pie l => l.size
  | classes l => l.size
  | states l => l.size
  | gantt l => l.size
  | entities l => l.size

end Layout

variable {α : Type} [Scalar α] [Trig α]

/-- Places a diagram with a router, which only layered diagrams ask for. -/
def Diagram.layoutBy (config : Config) :
    Diagram → StateM (Router α) (Except LayoutError (Layout α))
  | .flowchart d => return (← d.layoutBy config).map .flowchart
  | .sequence d => return (d.layout config).map .sequence
  | .pie d => return (d.layout config).map .pie
  | .classes d => return (d.layout config).map .classes
  | .states d => return (← d.layoutBy config).map .states
  | .gantt d => return (d.layout config).map .gantt
  | .entities d => return (d.layout config).map .entities

/-- Places a diagram. -/
def Diagram.layout (config : Config) (d : Diagram) : Except LayoutError (Layout α) :=
  (d.layoutBy config .usual).1

/-- With a new router a diagram of any kind is placed as it is on its own. -/
theorem Diagram.layout_eq (config : Config) (d : Diagram) :
    (d.layout config : Except LayoutError (Layout α)) = match d with
      | .flowchart d => (d.layout config).map .flowchart
      | .sequence d => (d.layout config).map .sequence
      | .pie d => (d.layout config).map .pie
      | .classes d => (d.layout config).map .classes
      | .states d => (d.layout config).map .states
      | .gantt d => (d.layout config).map .gantt
      | .entities d => (d.layout config).map .entities := by
  cases d <;> rfl

end TextDiagram
