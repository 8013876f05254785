import TextDiagram.Color
import TextDiagram.Drawing.Font
import TextDiagram.Geometry.Basic
/-!
# Drawing calls

A drawing is a background and a list of calls, each of which puts one shape or text on top of the
ones before it. Coordinates are pixels.
-/

namespace TextDiagram

/-- How a closed shape is painted: its inside, its border and the width of the border. -/
structure Paint where
  fill : Option Color
  outline : Option Color
  width : Int
  deriving DecidableEq, Repr

/-- One shape or text of a drawing. Angles are in degrees, clockwise from three o'clock. -/
inductive Call (α : Type) where
  | line (points : List (Point α)) (fill : Color) (width : Int)
  | polygon (points : List (Point α)) (paint : Paint)
  | rectangle (box : Rect α) (paint : Paint)
  | ellipse (box : Rect α) (paint : Paint)
  | roundedRectangle (box : Rect α) (radius : α) (paint : Paint)
  | pieSlice (box : Rect α) (start stop : α) (paint : Paint)
  | text (corner : Point α) (text : String) (fill : Color) (font : Font)
  deriving DecidableEq, Repr

/-- A drawing with its size in pixels. -/
structure Image (α : Type) where
  width : Int
  height : Int
  background : Color
  calls : List (Call α)
  deriving DecidableEq, Repr

/-- Why a placed diagram cannot be drawn: a line width that is no number, or an infinite one. -/
inductive DrawError where
  | undefinedWidth
  | infiniteWidth
  deriving DecidableEq, Repr, Inhabited

/-- The words for an error. -/
def DrawError.message : DrawError → String
  | undefinedWidth => "cannot convert float NaN to integer"
  | infiniteWidth => "cannot convert float infinity to integer"

namespace Paint

/-- A shape without border. -/
def filled (color : Color) : Paint := ⟨some color, none, 1⟩

/-- A border without inside. -/
def outlined (color : Color) (width : Int) : Paint := ⟨none, some color, width⟩

/-- A shape with inside and border. -/
def bordered (fill outline : Color) (width : Int) : Paint := ⟨some fill, some outline, width⟩

end Paint

end TextDiagram
