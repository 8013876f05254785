import TextDiagram.Geometry.Basic
import TextDiagram.Keyed
/-!
# Failures of placement

Placement needs a place for every end of a relation, a colour for every slice and task and a
direction for every angle.
-/

namespace TextDiagram

/-- Why a diagram cannot be placed. -/
inductive LayoutError where
  | unplaced (id : String)
  | emptyPalette
  | infiniteAngle
  deriving DecidableEq, Repr, Inhabited

namespace LayoutError

/-- The words for an error. -/
def message : LayoutError → String
  | unplaced id => "nothing is placed under the name " ++ id
  | emptyPalette => "integer modulo by zero"
  | infiniteAngle => "math domain error"

end LayoutError

/-- What has been placed under a name. -/
def placedUnder {γ : Type} (entries : List (String × γ)) (id : String) : Except LayoutError γ :=
  match Keyed.value? entries id with
  | some value => .ok value
  | none => .error (.unplaced id)

end TextDiagram
