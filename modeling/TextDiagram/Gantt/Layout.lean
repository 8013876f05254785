import TextDiagram.Gantt.Basic
import TextDiagram.Config
import TextDiagram.Geometry.Basic
import TextDiagram.LayoutError
/-!
# Placed Gantt charts

Every task has a bar of five days; each starts three days after the one before it, whatever its
dates say. Bars follow one another downward, with a header before each section.
-/

namespace TextDiagram

/-- A section header on its place. -/
structure PositionedSection (α : Type) where
  name : String
  y : α
  deriving DecidableEq, Repr

/-- A task with its bar. -/
structure PositionedTask (α : Type) where
  task : GanttTask
  bar : Rect α
  labelPosition : Point α
  color : Color
  deriving DecidableEq, Repr

/-- A vertical line at the start of a day. -/
structure GridLine (α : Type) where
  x : α
  label : String
  deriving DecidableEq, Repr

/-- A placed Gantt chart. -/
structure GanttLayout (α : Type) where
  size : Size α
  sections : List (PositionedSection α)
  tasks : List (PositionedTask α)
  gridLines : List (GridLine α)
  title : Option String
  titlePosition : Option (Point α)
  chartTop : α
  chartBottom : α
  deriving DecidableEq, Repr

namespace PositionedTask

variable {α : Type}

/-- A task that is done has stripes on its bar. -/
def isStriped (t : PositionedTask α) : Bool := t.task.status.isStriped

/-- A task that is under way or critical has a border around its bar. -/
def isBordered (t : PositionedTask α) : Bool := t.task.status.isBordered

end PositionedTask

namespace GanttChart

variable {α : Type} [Scalar α]

/-- The colour of a task of a section; only a task without a special state takes one of the
palette. -/
def taskColor (config : Config) (status : TaskStatus) (sectionIndex : Nat) :
    Except LayoutError Color :=
  match status with
  | .critical | .criticalActive => .ok config.ganttCriticalColor
  | .done | .criticalDone => .ok config.ganttDoneColor
  | .active => .ok config.ganttActiveColor
  | .normal =>
    match Config.paletteColor? config.ganttColors sectionIndex with
    | some color => .ok color
    | none => .error .emptyPalette

/-- The place of the next bar: its height and its index among all tasks. -/
structure Cursor (α : Type) where
  y : α
  index : Nat
  deriving DecidableEq, Repr

/-- The horizontal place of the start of a day. -/
def dayX (config : Config) (day : Nat) : α :=
  config.ganttLabelWidth + (day : α) * config.ganttDayWidth

/-- The bar at a cursor. -/
def bar (config : Config) (c : Cursor α) : Rect α :=
  Rect.ofSize (dayX config (3 * c.index)) c.y
    ⟨5 * (config.ganttDayWidth : α), config.ganttBarHeight⟩

/-- The place below a bar. -/
def Cursor.next (config : Config) (c : Cursor α) : Cursor α :=
  ⟨c.y + (config.ganttBarHeight + config.ganttBarSpacing : α), c.index + 1⟩

/-- A task at a cursor. -/
def placeTask (config : Config) (sectionIndex : Nat) (c : Cursor α) (t : GanttTask) :
    Except LayoutError (PositionedTask α) := do
  let color ← taskColor config t.status sectionIndex
  return ⟨t, bar config c, ⟨config.padding, (bar config c).center.y⟩, color⟩

/-- Some tasks of one section from a cursor on, and the cursor after them. -/
def placeTasks (config : Config) (sectionIndex : Nat) :
    Cursor α → List GanttTask → Except LayoutError (List (PositionedTask α) × Cursor α)
  | c, [] => return ([], c)
  | c, t :: more => do
    let placed ← placeTask config sectionIndex c t
    let (others, stop) ← placeTasks config sectionIndex (c.next config) more
    return (placed :: others, stop)

/-- The height of a section header below a cursor. -/
def sectionY (config : Config) (c : Cursor α) : α := c.y + config.ganttSectionSpacing

/-- The cursor below a section header. -/
def Cursor.belowHeader (config : Config) (c : Cursor α) : Cursor α :=
  ⟨sectionY config c + config.ganttSectionSpacing, c.index⟩

/-- Headers and bars, with the cursor after them. -/
structure Column (α : Type) where
  sections : List (PositionedSection α)
  tasks : List (PositionedTask α)
  stop : Cursor α
  deriving DecidableEq, Repr

/-- The sections from an index on, placed from a cursor on. -/
def placeSections (config : Config) :
    Nat → Cursor α → List GanttSection → Except LayoutError (Column α)
  | _, c, [] => return ⟨[], [], c⟩
  | index, c, s :: more => do
    let (tasks, below) ← placeTasks config index (c.belowHeader config) s.tasks
    let others ← placeSections config (index + 1) below more
    return ⟨⟨s.name, sectionY config c⟩ :: others.sections, tasks ++ others.tasks, others.stop⟩

/-- The number of days on a chart with some tasks. -/
def dayCount (taskCount : Nat) : Nat := Nat.max (5 * taskCount) 20

/-- The grid lines of a number of days, one at every fifth day. -/
def gridLines (config : Config) (days : Nat) : List (GridLine α) :=
  (List.range (days / 5 + 1)).map fun k =>
    ⟨dayX config (5 * k), "Day " ++ String.ofList (Nat.toDigits 10 (5 * k))⟩

/-- Places a Gantt chart. -/
def layout (config : Config) (chart : GanttChart) : Except LayoutError (GanttLayout α) := do
  let hasTitle := chart.title.any (!·.isEmpty)
  let titleHeight : α := if hasTitle then 35 else 0
  let top : α := config.padding + titleHeight + 30
  let column ← placeSections config 0 ⟨top, 0⟩ chart.sections
  let days := dayCount column.stop.index
  let width : α := Scalar.max (dayX config days) 400 + config.padding
  return {
    size := ⟨width, column.stop.y + config.padding⟩
    sections := column.sections
    tasks := column.tasks
    gridLines := gridLines config days
    title := chart.title
    titlePosition :=
      if hasTitle then some ⟨width / 2, config.padding + titleHeight / 2⟩ else none
    chartTop := top
    chartBottom := column.stop.y }

end GanttChart

end TextDiagram
