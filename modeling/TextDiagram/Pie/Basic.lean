import TextDiagram.Number.Scalar
/-!
# Pie charts

Slices with labels and non-negative values, and a title.
-/

namespace TextDiagram

/-- A slice of a pie. -/
structure PieSlice where
  label : String
  value : Decimal
  deriving DecidableEq, Repr, Inhabited

/-- A pie chart: slices as declared, and whether their values are shown. -/
structure PieChart where
  title : Option String
  slices : List PieSlice
  showData : Bool
  deriving DecidableEq, Repr, Inhabited

/-- The value of a slice as a scalar. -/
def PieSlice.amount {α : Type} [Scalar α] (slice : PieSlice) : α := Scalar.ofDecimal slice.value

/-- The sum of all values, added from the first slice to the last. -/
def PieChart.total {α : Type} [Scalar α] (chart : PieChart) : α :=
  chart.slices.foldl (fun sum slice => sum + slice.amount) 0

end TextDiagram
