import TextDiagram.Pie.Basic
import TextDiagram.Text.Cut
import TextDiagram.Text.Ident
/-!
# Reading a pie chart

The header may ask for the values and give a title. A slice line is a quoted label, a colon and a
number; the label reaches from the first double quote of the line to the last one.

Main statement: `Statement.apply_skip`, a line that is no statement has no effect.
-/

namespace TextDiagram.PieChart

/-- What one line of a pie chart says. -/
inductive Statement where
  | showData
  | title (t : String)
  | slice (s : PieSlice)
  | skip
  deriving DecidableEq, Repr, Inhabited

namespace Statement

/-- The number after the colon of a slice line. -/
def value? (t : List Char) : Option Decimal :=
  match Text.trimStart t with
  | ':' :: rest => Decimal.ofText? (Text.trim rest)
  | _ => none

/-- The slice that a line spells. -/
def slice? (line : Line) : Option PieSlice :=
  match Text.trimStart line with
  | '"' :: rest =>
    (Text.cutLast ['"'] some rest).bind fun (label, rest) =>
      if label.isEmpty || label.contains '\n' then none
      else (value? rest).map fun value => ⟨String.ofList label, value⟩
  | _ => none

/-- Reads a line. -/
def ofLine (line : Line) : Statement :=
  if line = "showData".toList then .showData
  else if let some rest := Text.after? "title " line then .title (String.ofList (Text.trim rest))
  else
    match slice? line with
    | some s => .slice s
    | none => .skip

/-- What one statement changes; the first title stays. -/
def apply (chart : PieChart) : Statement → PieChart
  | .showData => { chart with showData := true }
  | .title t => { chart with title := chart.title.or (some t) }
  | .slice s => { chart with slices := chart.slices ++ [s] }
  | .skip => chart

@[simp] theorem apply_skip (chart : PieChart) : apply chart .skip = chart := rfl

end Statement

/-- The title that ends a header: the word `title` and a text. -/
def headerTitle? (t : List Char) : Option String :=
  match t with
  | c :: rest =>
    if Text.isBlank c then
      (Text.afterKeyword? "title" (Text.trimStart rest)).bind fun text =>
        (Text.trimmed? text).map String.ofList
    else none
  | [] => none

/-- What a header says about title and values; nothing unless all of it is understood. -/
def ofHeader (header : Line) : PieChart :=
  match (Text.afterKeyword? "pie" header).bind (Text.after? "showData") with
  | some [] => ⟨none, [], true⟩
  -- The word counts only if the rest of the header is understood.
  | some rest => ⟨headerTitle? rest, [], (headerTitle? rest).isSome⟩
  | none => ⟨headerTitle? (header.drop "pie".length), [], false⟩

/-- The chart after some more lines. -/
def readLines (chart : PieChart) (lines : List Line) : PieChart :=
  lines.foldl (fun chart line => Statement.apply chart (Statement.ofLine line)) chart

/-- Reads a pie chart from its header line and the lines after it. -/
def ofLines (header : Line) (lines : List Line) : PieChart := readLines (ofHeader header) lines

end TextDiagram.PieChart
