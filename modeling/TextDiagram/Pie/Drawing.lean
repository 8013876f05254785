import TextDiagram.Drawing.Title
import TextDiagram.Pie.Layout
/-!
# Drawing pie charts

Slices with their percentages, then the legend. A slice without extent is not drawn.
-/

namespace TextDiagram.PieLayout

variable {α : Type} [Scalar α]

/-- A percentage with one place after the point. -/
def percentText (percentage : α) : List Char := (Scalar.exact percentage).fixed 1 ++ ['%']

/-- A slice with its percentage, in the pie's box. -/
def drawSlice (pen : Pen) (font : Font) (box : Rect α) (s : PositionedSlice α) : List (Call α) :=
  if s.sweepAngle ≤ 0 then []
  else
    .pieSlice box s.startAngle (s.startAngle + s.sweepAngle)
        (Paint.bordered s.color pen.config.backgroundColor (pen.width 3)) ::
      pen.writeCentered s.labelPosition (String.ofList (percentText s.percentage)) font

/-- The text of a legend entry: the label, the value if it is to be shown, and the percentage. -/
def legendText (showData : Bool) (e : LegendEntry α) : String :=
  let value := if showData then
      " [".toList ++ (Scalar.exact (e.slice.amount : α)).general ++ "]".toList
    else []
  e.slice.label ++
    String.ofList (value ++ " (".toList ++ percentText e.percentage ++ ")".toList)

/-- A legend entry with its swatch. -/
def drawEntry (pen : Pen) (font : Font) (showData : Bool) (e : LegendEntry α) : List (Call α) :=
  .rectangle (pen.box e.swatch) (Paint.filled e.color) ::
    pen.writeLeft e.textPosition (legendText showData e) font

/-- The slices and the legend. -/
def paint (pen : Pen) (font : Font) (l : PieLayout α) : List (Call α) :=
  let box := pen.box (Rect.around l.center l.radius)
  l.slices.flatMap (drawSlice pen font box) ++ l.legend.flatMap (drawEntry pen font l.showData)

/-- Draws a pie chart with the font of ordinary text and that of titles. -/
def draw (r : Renderer) (l : PieLayout α) : StateM FontCache (List (Call α)) := do
  let font ← r.font none
  let title ← r.drawTitle (titleLine? l.title l.titlePosition)
  return title ++ paint r.toPen font l

end TextDiagram.PieLayout
