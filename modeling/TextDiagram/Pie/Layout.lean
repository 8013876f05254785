import TextDiagram.Pie.Basic
import TextDiagram.Config
import TextDiagram.Geometry.Basic
import TextDiagram.LayoutError
/-!
# Placed pie charts

The slices share a full turn in proportion to their values, clockwise from twelve o'clock. Angles
are in degrees, clockwise from three o'clock. A legend stands to the right of the pie.
-/

namespace TextDiagram

/-- A slice on its place. -/
structure PositionedSlice (α : Type) where
  slice : PieSlice
  startAngle : α
  sweepAngle : α
  percentage : α
  color : Color
  labelPosition : Point α
  deriving DecidableEq, Repr

/-- One line of the legend. -/
structure LegendEntry (α : Type) where
  slice : PieSlice
  percentage : α
  color : Color
  swatch : Rect α
  textPosition : Point α
  deriving DecidableEq, Repr

/-- A placed pie chart. -/
structure PieLayout (α : Type) where
  size : Size α
  center : Point α
  radius : α
  slices : List (PositionedSlice α)
  legend : List (LegendEntry α)
  title : Option String
  titlePosition : Option (Point α)
  showData : Bool
  deriving DecidableEq, Repr

namespace PieChart

variable {α : Type} [Scalar α]

/-- The layout of a chart without anything to show. -/
def emptyLayout (title : Option String) : PieLayout α where
  size := ⟨100, 100⟩
  center := ⟨50, 50⟩
  radius := 0
  slices := []
  legend := []
  title := title
  titlePosition := none
  showData := false

/-- The distance of the slices' labels from the centre. -/
def reach (config : Config) : α := config.pieRadius + config.pieLabelOffset

/-- A number of degrees as an angle. -/
def radians [Trig α] (degrees : α) : α := degrees * (Trig.pi / 180)

/-- The slice at an index on its place. Its label stands in the direction of its middle. -/
def placeSlice [Trig α] (config : Config) (center : Point α) (total : α) (index : Nat)
    (angle : α) (s : PieSlice) : Except LayoutError (PositionedSlice α) :=
  let sweep := 360 * s.amount / total
  let middle := radians (angle + sweep / 2)
  -- The colour is chosen first, so an empty palette is found before an infinite angle.
  match Config.paletteColor? config.pieColors index with
  | none => .error .emptyPalette
  | some color =>
    if Scalar.isInfinite middle then .error .infiniteAngle
    else
      .ok {
        slice := s
        startAngle := angle
        sweepAngle := sweep
        percentage := 100 * s.amount / total
        color := color
        labelPosition := ⟨center.x + reach config * Trig.cos middle,
          center.y + reach config * Trig.sin middle⟩ }

/-- The slices from an index on, the first one at the given angle. -/
def placeSlices [Trig α] (config : Config) (center : Point α) (total : α) :
    Nat → α → List PieSlice → Except LayoutError (List (PositionedSlice α))
  | _, _, [] => return []
  | index, angle, s :: more => do
    let placed ← placeSlice config center total index angle s
    let others ← placeSlices config center total (index + 1) (angle + placed.sweepAngle) more
    return placed :: others

/-- The legend entry of a slice; the first one has its upper left corner at the given point. -/
def legendEntry (x y : α) (index : Nat) (s : PositionedSlice α) : LegendEntry α :=
  let top := y + (index : α) * 24
  { slice := s.slice
    percentage := s.percentage
    color := s.color
    swatch := Rect.ofSize x top ⟨12, 12⟩
    textPosition := ⟨x + 12 + 8, top + 12 / 2⟩ }

/-- Places a pie chart. -/
def layout [Trig α] (config : Config) (chart : PieChart) : Except LayoutError (PieLayout α) :=
  let total : α := chart.total
  if chart.slices.isEmpty ∨ total ≤ 0 then .ok (emptyLayout chart.title)
  else do
    let hasTitle := chart.title.any (!·.isEmpty)
    let titleHeight : α := if hasTitle then 30 else 0
    let radius : α := config.pieRadius
    let reach : α := reach config
    let center : Point α := ⟨config.padding + reach, config.padding + titleHeight + reach⟩
    let slices ← placeSlices config center total 0 (-90) chart.slices
    -- Lines of the legend are 24 units apart, so it is centred beside the pie.
    let legendX := center.x + radius + 40
    let legendY := center.y - (slices.length : α) * 12
    let width := Scalar.max (center.x + reach) (legendX + 180) + config.padding
    return {
      size := ⟨width, center.y + reach + config.padding⟩
      center := center
      radius := radius
      slices := slices
      legend := slices.mapIdx (legendEntry legendX legendY)
      title := chart.title
      titlePosition :=
        if hasTitle then some ⟨width / 2, config.padding + titleHeight / 2⟩ else none
      showData := chart.showData }

end PieChart

end TextDiagram
