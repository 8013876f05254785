import TextDiagram.Diagram
import TextDiagram.Drawing.Call
import TextDiagram.LayoutError
/-!
# Failures

All that can keep a text from becoming an image.
-/

namespace TextDiagram

/-- Why a step of the way from a text to an image failed. -/
inductive Failure where
  | parse (error : ParseError)
  | layout (error : LayoutError)
  | draw (error : DrawError)
  | unknownTheme
  | notADiagram (found : String)
  | notALayout (found : String)
  deriving DecidableEq, Repr, Inhabited

namespace Failure

/-- The words for a failure. -/
def message : Failure → String
  | parse error => error.message
  | layout error => error.message
  | draw error => error.message
  | unknownTheme => "theme must be 'light' or 'dark'"
  | notADiagram found => "Not a diagram: " ++ found
  | notALayout found => "Cannot render " ++ found

end Failure

end TextDiagram
