/-!
# Gantt charts

Sections of tasks. Dates and durations are kept as written.
-/

namespace TextDiagram

/-- The state of a task. -/
inductive TaskStatus where
  | normal | active | done | critical | criticalActive | criticalDone
  deriving DecidableEq, Repr, Inhabited

/-- A word in front of a task that bears on its state. -/
inductive TaskFlag where
  | done | active | critical
  deriving DecidableEq, Repr, Inhabited

/-- A task. -/
structure GanttTask where
  name : String
  id : Option String
  status : TaskStatus
  startDate : Option String
  duration : Option String
  afterId : Option String
  deriving DecidableEq, Repr, Inhabited

/-- A section with its tasks. -/
structure GanttSection where
  name : String
  tasks : List GanttTask
  deriving DecidableEq, Repr, Inhabited

/-- A Gantt chart. -/
structure GanttChart where
  title : Option String
  dateFormat : Option String
  sections : List GanttSection
  deriving DecidableEq, Repr, Inhabited

namespace TaskFlag

/-- The flag that a word stands for. -/
def ofWord? (word : String) : Option TaskFlag :=
  if word = "done" then some .done
  else if word = "active" then some .active
  else if word = "crit" then some .critical
  else none

end TaskFlag

namespace TaskStatus

/-- The state that some flags say together: a critical task is done or active too, and done counts
before active. -/
def ofFlags (flags : List TaskFlag) : TaskStatus :=
  if .critical ∈ flags then
    if .done ∈ flags then .criticalDone
    else if .active ∈ flags then .criticalActive
    else .critical
  else if .done ∈ flags then .done
  else if .active ∈ flags then .active
  else .normal

/-- A task that is done has a striped bar. -/
def isStriped : TaskStatus → Bool
  | done | criticalDone => true
  | _ => false

/-- A task that is under way or critical has a bar with a border. -/
def isBordered : TaskStatus → Bool
  | active | critical | criticalActive => true
  | _ => false

end TaskStatus

/-- All tasks of a chart, section by section. -/
def GanttChart.tasks (chart : GanttChart) : List GanttTask := chart.sections.flatMap (·.tasks)

end TextDiagram
