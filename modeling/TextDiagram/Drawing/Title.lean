import TextDiagram.Drawing.Pen
/-!
# Titles of charts

A title has a font of its own, which is only asked for when there is a title to draw.
-/

namespace TextDiagram

/-- A title with the place it stands at. -/
structure TitleLine (α : Type) where
  text : String
  position : Point α
  deriving DecidableEq, Repr

/-- The title of a chart, if it has one with a place. -/
def titleLine? {α : Type} (title : Option String) (position : Option (Point α)) :
    Option (TitleLine α) :=
  match title, position with
  | some text, some position => if text.isEmpty then none else some ⟨text, position⟩
  | _, _ => none

/-- Draws a title if there is one. -/
def Renderer.drawTitle {α : Type} [Scalar α] (r : Renderer) (title : Option (TitleLine α)) :
    StateM FontCache (List (Call α)) :=
  match title with
  | some line => do
    let font ← r.font (some r.config.titleFontSize)
    return r.toPen.writeCentered line.position line.text font
  | none => return []

end TextDiagram
