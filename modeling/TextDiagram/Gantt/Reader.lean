import TextDiagram.Gantt.Basic
import TextDiagram.Text.Cut
import TextDiagram.Text.Words
/-!
# Reading a Gantt chart

The first word of a line says what it is. A line with any other first word and a colon is a task:
`name : flags, id, start or reference, duration`, all but the name optional and after the flags in
any order.

Main statement: `Statement.apply_skip`, a line that is no statement has no effect.
-/

namespace TextDiagram.GanttTask

/-- The parts of a task line after the colon that are not blank, trimmed. -/
def tokens (spec : List Char) : List (List Char) := (Text.pieces ',' spec).filterMap Text.trimmed?

/-- The flag that a token stands for. -/
def flag? (token : List Char) : Option TaskFlag := TaskFlag.ofWord? (String.ofList token)

/-- Enters one token after the flags into the field of its kind: a reference to another task, a
duration that ends in days, weeks or hours, a start date, or else the id. -/
def enter (task : GanttTask) (token : List Char) : GanttTask :=
  match Text.after? "after " token with
  | some id => { task with afterId := some (String.ofList (Text.trim id)) }
  | none =>
    -- The last letter decides before the form of a date does.
    if token.getLast?.any fun c => c == 'd' || c == 'w' || c == 'h' then
      { task with duration := some (String.ofList token) }
    else if token.contains '-' && 8 ≤ token.length then
      { task with startDate := some (String.ofList token) }
    else { task with id := some (String.ofList token) }

/-- Reads a task from its name and the text after the colon. -/
def ofSpec (name : String) (spec : List Char) : GanttTask :=
  let isFlag := fun token => (flag? token).isSome
  let flags := ((tokens spec).takeWhile isFlag).filterMap flag?
  ((tokens spec).dropWhile isFlag).foldl enter
    ⟨name, none, TaskStatus.ofFlags flags, none, none, none⟩

end TextDiagram.GanttTask

namespace TextDiagram.GanttChart

/-- What one line of a Gantt chart says. -/
inductive Statement where
  | title (text : Option String)
  | dateFormat (text : Option String)
  | openSection (name : String)
  | task (t : GanttTask)
  | skip
  deriving DecidableEq, Repr, Inhabited

/-- The section of tasks that come before any section line. -/
def defaultSection : String := "Default"

/-- First words of lines that have no effect. -/
def ignoredDirectives : List String :=
  ["axisFormat", "todayMarker", "excludes", "inclusiveEndDates", "tickInterval", "weekday"]

namespace Statement

/-- The rest of a line after its first word, trimmed. -/
def rest (line : Line) (word : String) : List Char := Text.trim (line.drop word.length)

/-- The rest of a line after its first word, unless it is empty. -/
def rest? (line : Line) (word : String) : Option String :=
  (Text.trimmed? (line.drop word.length)).map String.ofList

/-- Reads a line. -/
def ofLine (line : Line) : Statement :=
  let keyword := String.ofList (Text.firstWord line)
  if keyword = "title" then .title (rest? line keyword)
  else if keyword = "dateFormat" then .dateFormat (rest? line keyword)
  else if keyword = "section" then .openSection (String.ofList (rest line keyword))
  else if keyword ∈ ignoredDirectives then .skip
  else
    match Text.cut [':'] line with
    | some (name, spec) => .task (GanttTask.ofSpec (String.ofList (Text.trim name)) spec)
    | none => .skip

/-- Adds a task to the last section; without one, to a section that is opened for it. -/
def addTask (t : GanttTask) : List GanttSection → List GanttSection
  | [] => [⟨defaultSection, [t]⟩]
  | [s] => [{ s with tasks := s.tasks ++ [t] }]
  | s :: more => s :: addTask t more

/-- What one statement changes; the last title and the last date format count. -/
def apply (chart : GanttChart) : Statement → GanttChart
  | .title t => { chart with title := t }
  | .dateFormat t => { chart with dateFormat := t }
  | .openSection name => { chart with sections := chart.sections ++ [⟨name, []⟩] }
  | .task t => { chart with sections := addTask t chart.sections }
  | .skip => chart

@[simp] theorem apply_skip (chart : GanttChart) : apply chart .skip = chart := rfl

end Statement

/-- The chart after some more lines. -/
def readLines (chart : GanttChart) (lines : List Line) : GanttChart :=
  lines.foldl (fun chart line => Statement.apply chart (Statement.ofLine line)) chart

/-- Reads a Gantt chart from the lines after its header. -/
def ofLines (lines : List Line) : GanttChart := readLines ⟨none, none, []⟩ lines

end TextDiagram.GanttChart
