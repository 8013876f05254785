import TextDiagram.Flowchart.NodeRef
import TextDiagram.Flowchart.Style
import TextDiagram.Text.Words
/-!
# Lines of a flowchart

What a line says does not depend on the lines before it. `Statement.ofLine` reads one line; a line
that is no statement is skipped.
-/

namespace TextDiagram.Flowchart

/-- What one line of a flowchart says. -/
inductive Statement where
  | closeBlock
  | openBlock (id label : String)
  | defineStyle (name : String) (style : NodeStyle)
  | styleNode (nodeId : String) (style : NodeStyle)
  | attachStyle (nodeIds : List String) (name : String)
  | mention (ref : NodeRef)
  | edge (source target : NodeRef) (label : Option String) (style : EdgeStyle)
  | skip
  deriving DecidableEq, Repr, Inhabited

/-- The edge operators, in the order in which they are looked for. -/
def edgeTokens : List (List Char × EdgeStyle) :=
  [("==>".toList, .thick), ("-.->".toList, .dotted), ("~~~".toList, .invisible),
    ("-->".toList, .solid)]

/-- Words at the start of lines that have no effect. -/
def ignoredOpenings : List String := ["direction ", "linkStyle ", "click "]

namespace Statement

/-- The id and the label in brackets of a block that is opened with both. -/
def blockHead? (line : Line) : Option (List Char × List Char) :=
  (Text.afterKeyword? "subgraph" line).bind fun rest =>
  (Text.ident? rest).bind fun (id, rest) =>
  (Text.between? "[" "]" (Text.trimStart rest)).bind fun label =>
    if label.isEmpty || label.contains '\n' then none else some (id, label)

/-- The opening of a block; without brackets the label is the id as well. -/
def ofBlockLine (line rest : Line) : Statement :=
  match blockHead? line with
  | some (id, label) => .openBlock (String.ofList id) (String.ofList (Text.unquote label))
  | none =>
    let label := String.ofList (Text.unquote rest)
    .openBlock label label

/-- A line with an edge operator: the texts on its two sides, of which the right one may start with
a label between two bars. -/
def ofEdge (left : List Char) (style : EdgeStyle) (right : List Char) : Statement :=
  let edge := fun (label : Option (List Char)) (right : List Char) =>
    match NodeRef.ofText? left, NodeRef.ofText? right with
    | some source, some target => Statement.edge source target (label.map String.ofList) style
    | _, _ => .skip
  match Text.trim right with
  | '|' :: rest =>
    match Text.cut ['|'] rest with
    | some (label, rest) => edge (Text.trimmed? label) rest
    | none => .skip
  | right => edge none right

/-- A line that attaches a style name to the nodes of a list. -/
def ofClassLine (line : Line) : Statement :=
  match Text.words line with
  | _ :: ids :: name :: _ =>
    .attachStyle (((Text.pieces ',' ids).filter (!·.isEmpty)).map String.ofList)
      (String.ofList name)
  | _ => .skip

/-- A line that mentions one node or joins two. -/
def ofNodeLine (line : Line) : Statement :=
  match Text.findToken edgeTokens line with
  | some (left, style, right) => ofEdge left style right
  | none =>
    match NodeRef.ofText? line with
    | some ref => .mention ref
    | none => .skip

/-- A line without the semicolons after it and the blanks around it. -/
def bare (line : Line) : Line := Text.trim (Text.dropEndWhile (· == ';') line)

/-- Reads a bare line. -/
def ofBareLine (line : Line) : Statement :=
  if line = "end".toList then .closeBlock
  else if let some rest := Text.after? "subgraph " line then ofBlockLine line rest
  else if (Text.after? "classDef " line).isSome then
    match Text.secondAndRest? line with
    | some (name, text) => .defineStyle (String.ofList name) (NodeStyle.ofText text)
    | none => .skip
  else if (Text.after? "style " line).isSome then
    match Text.secondAndRest? line with
    | some (id, text) => .styleNode (String.ofList id) (NodeStyle.ofText text)
    | none => .skip
  -- A line with an edge operator may start with a node that is called `class`.
  else if (Text.after? "class " line).isSome ∧ (Text.findToken edgeTokens line).isNone then
    ofClassLine line
  else if ignoredOpenings.any fun opening => (Text.after? opening line).isSome then .skip
  else ofNodeLine line

/-- Reads a line. -/
def ofLine (line : Line) : Statement := ofBareLine (bare line)

end Statement

end TextDiagram.Flowchart
