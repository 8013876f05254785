import TextDiagram.Flowchart.Basic
import TextDiagram.Text.Cut
/-!
# Style texts

A style is written as `fill:#f9f,stroke:#333,stroke-width:4px,color:#fff`. Parts without a colon
are skipped, unknown properties are ignored and of two values for one property the last counts.
-/

namespace TextDiagram.NodeStyle

/-- The properties of a style text with their values, in order. -/
def properties (t : List Char) : List (List Char × List Char) :=
  (Text.pieces ',' t).filterMap fun part =>
    (Text.cut [':'] part).map fun (name, value) => (Text.trim name, Text.trim value)

/-- The last value given to a property. -/
def property? (t : List Char) (name : String) : Option (List Char) :=
  (properties t).reverse.lookup name.toList

/-- A text without the unit `px`, wherever it stands. -/
def dropUnit : List Char → List Char
  | [] => []
  | 'p' :: 'x' :: rest => dropUnit rest
  | c :: rest => c :: dropUnit rest

/-- Reads a style. A border width that is no numeral counts as not given. -/
def ofText (t : List Char) : NodeStyle where
  fill := (property? t "fill").map String.ofList
  stroke := (property? t "stroke").map String.ofList
  strokeWidth := (property? t "stroke-width").bind fun value => Numeral.ofText? (dropUnit value)
  color := (property? t "color").map String.ofList

end TextDiagram.NodeStyle
