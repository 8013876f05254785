import TextDiagram.Text.Lines
import TextDiagram.Flowchart.Reader
import TextDiagram.Sequence.Reader
import TextDiagram.Pie.Reader
import TextDiagram.ClassDiagram.Reader
import TextDiagram.StateDiagram.Reader
import TextDiagram.Gantt.Reader
import TextDiagram.EntityDiagram.Reader
/-!
# Diagrams of all kinds

The first word of a text names the kind of its diagram. A text without content and an unknown kind
are the only errors; whatever else is not understood is skipped by the reader of the kind.
-/

namespace TextDiagram

/-- The kinds of diagrams. -/
inductive DiagramKind where
  | flowchart | sequence | pie | classes | states | gantt | entities
  deriving DecidableEq, Repr, Inhabited

/-- A diagram of any kind. -/
inductive Diagram where
  | flowchart (chart : Flowchart)
  | sequence (diagram : SequenceDiagram)
  | pie (chart : PieChart)
  | classes (diagram : ClassDiagram)
  | states (diagram : StateDiagram)
  | gantt (chart : GanttChart)
  | entities (diagram : EntityDiagram)
  deriving DecidableEq, Repr, Inhabited

/-- Why a text is no diagram. -/
inductive ParseError where
  | emptyInput
  | unknownKind (keyword : String)
  deriving DecidableEq, Repr, Inhabited

namespace DiagramKind

/-- The keywords at the start of a diagram. -/
def keywords : List (String × DiagramKind) :=
  [("flowchart", flowchart), ("graph", flowchart), ("sequenceDiagram", sequence), ("pie", pie),
    ("classDiagram", classes), ("classDiagram-v2", classes), ("stateDiagram", states),
    ("stateDiagram-v2", states), ("gantt", gantt), ("erDiagram", entities)]

/-- The kind that a keyword names. -/
def ofKeyword? (keyword : String) : Option DiagramKind := keywords.lookup keyword

end DiagramKind

namespace ParseError

/-- The words for an error. -/
def message : ParseError → String
  | emptyInput => "Empty diagram input"
  | unknownKind keyword => "Unknown diagram type: " ++ keyword

end ParseError

namespace Diagram

/-- The kind of a diagram. -/
def kind : Diagram → DiagramKind
  | flowchart _ => .flowchart
  | sequence _ => .sequence
  | pie _ => .pie
  | classes _ => .classes
  | states _ => .states
  | gantt _ => .gantt
  | entities _ => .entities

/-- Reads a diagram of a known kind from its header line and the lines after it. -/
def ofLines (kind : DiagramKind) (header : Line) (lines : List Line) : Diagram :=
  match kind with
  | .flowchart => .flowchart (Flowchart.ofLines header lines)
  | .sequence => .sequence (SequenceDiagram.ofLines lines)
  | .pie => .pie (PieChart.ofLines header lines)
  | .classes => .classes (ClassDiagram.ofLines lines)
  | .states => .states (StateDiagram.ofLines lines)
  | .gantt => .gantt (GanttChart.ofLines lines)
  | .entities => .entities (EntityDiagram.ofLines lines)

/-- Reads a diagram from its significant lines. -/
def parseLines : List Line → Except ParseError Diagram
  | [] => .error .emptyInput
  | header :: lines =>
    let keyword := String.ofList (Text.firstWord header)
    match DiagramKind.ofKeyword? keyword with
    | some kind => .ok (ofLines kind header lines)
    | none => .error (.unknownKind keyword)

/-- The significant lines of a text; a text without any is an error. -/
def normalize (text : String) : Except ParseError (List Line) :=
  match Text.significantLines text.toList with
  | [] => .error .emptyInput
  | lines => .ok lines

/-- Reads a diagram. -/
def parse (text : String) : Except ParseError Diagram :=
  parseLines (Text.significantLines text.toList)

/-! ## Elementary facts -/

theorem kind_ofLines (kind : DiagramKind) (header : Line) (lines : List Line) :
    (ofLines kind header lines).kind = kind := by
  cases kind <;> rfl

end Diagram

end TextDiagram
