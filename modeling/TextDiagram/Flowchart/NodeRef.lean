import TextDiagram.Flowchart.Basic
import TextDiagram.Text.Cut
import TextDiagram.Text.Ident
import TextDiagram.Text.Quoted
/-!
# Node references

A node is mentioned by its id alone or by its id and a label in brackets; the kind of bracket gives
the shape. Three colons and a style name may follow.
-/

namespace TextDiagram

/-- A mention of a node as written. Label and shape are given together or not at all. -/
structure NodeRef where
  id : String
  label : Option String
  shape : Option NodeShape
  className : Option String
  deriving DecidableEq, Repr, Inhabited

namespace NodeRef

/-- The brackets around a label with the shape they stand for. A double bracket comes before the
single one that it begins with. -/
def brackets : List (String × String × NodeShape) :=
  [("((", "))", .circle), ("([", "])", .stadium), ("\x7b\x7b", "\x7d\x7d", .hexagon),
    ("\x7b", "\x7d", .diamond), (">", "]", .asymmetric), ("(", ")", .rounded),
    ("[", "]", .rectangle)]

/-- The label in brackets that makes up a whole text, with its shape. A label is not empty and has
no line feed. -/
def bracketed? (t : List Char) : Option (List Char × NodeShape) :=
  brackets.findSome? fun (opening, closing, shape) =>
    (Text.between? opening closing t).bind fun label =>
      if label.isEmpty || label.contains '\n' then none else some (label, shape)

/-- An id and what the brackets after it say. -/
def body? (t : List Char) (className : Option String) : Option NodeRef :=
  (Text.ident? t).bind fun (id, rest) =>
    if rest.isEmpty then some ⟨String.ofList id, none, none, className⟩
    else
      (bracketed? rest).map fun (label, shape) =>
        ⟨String.ofList id, some (String.ofList (Text.unquote label)), some shape, className⟩

/-- Reads a mention; blanks around it and around the style name are ignored. -/
def ofText? (t : List Char) : Option NodeRef :=
  match Text.cut ":::".toList (Text.trim t) with
  | some (before, after) =>
    body? (Text.trim before) ((Text.trimmed? after).map String.ofList)
  | none => body? (Text.trim t) none

/-- The node that a first mention declares. -/
def node (ref : NodeRef) : FlowNode where
  id := ref.id
  label := match ref.label with
    | some label => if label.isEmpty then ref.id else label
    | none => ref.id
  shape := ref.shape.getD .rectangle

end NodeRef

end TextDiagram
