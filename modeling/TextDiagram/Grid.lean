import TextDiagram.Geometry.Basic
/-!
# Grid placement

Boxes without an order of their own are placed row by row on a grid that is about as wide as it is
high. All columns are as wide as the widest box and each row is as high as its tallest box.
-/

namespace TextDiagram.Grid

/-- The number of columns for some boxes: the least positive number whose square is not below
theirs. -/
def columns (count : Nat) : Nat :=
  ((List.range (count + 1)).find? fun k => 0 < k && count ≤ k * k).getD 1

/-- A list cut into rows of the given length; the last one may be shorter. -/
def rows {β : Type} (length : Nat) (items : List β) : List (List β) :=
  (List.range ((items.length + length - 1) / length)).map fun row =>
    (items.drop (row * length)).take length

variable {α : Type} [Scalar α]

/-- The largest width of some boxes. -/
def widest : List (Size α) → α
  | [] => 0
  | first :: others => Scalar.maximum first.width (others.map (·.width))

/-- The largest height of some boxes. -/
def tallest : List (Size α) → α
  | [] => 0
  | first :: others => Scalar.maximum first.height (others.map (·.height))

/-- The frames of rows of boxes, the first row at the given height. -/
def placeRows (left step spacing : α) : α → List (List (Size α)) → List (Rect α)
  | _, [] => []
  | top, row :: more =>
    (row.mapIdx fun column size => Rect.ofSize (left + (column : α) * step) top size) ++
      placeRows left step spacing (top + (tallest row + spacing)) more

/-- The frames of boxes of the given sizes, in order. -/
def frames (padding spacing : α) (sizes : List (Size α)) : List (Rect α) :=
  placeRows padding (widest sizes + spacing) spacing padding
    (rows (columns sizes.length) sizes)

end TextDiagram.Grid
