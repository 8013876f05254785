import TextDiagram.Config
import TextDiagram.Drawing.Call
/-!
# The pen

A pen draws in canvas units and puts out pixels: every coordinate is multiplied by the scale, and
so is every line width, which is then rounded to a whole number of pixels, at least one.
-/

namespace TextDiagram

/-- What drawing depends on besides the placed diagram and the fonts. -/
structure Pen where
  config : Config
  scale : Int
  deriving DecidableEq, Repr

/-- A pen with the font files that it may use. -/
structure Renderer extends Pen where
  library : FontLibrary
  deriving DecidableEq, Repr

namespace Renderer

/-- The font of a size in canvas units; without a size, or for size zero, that of ordinary text. -/
def font (r : Renderer) (size : Option Int) : StateM FontCache Font :=
  let units := match size with
    | some n => if n = 0 then r.config.fontSize else n
    | none => r.config.fontSize
  FontCache.font r.library (units * r.scale)

end Renderer

namespace Pen

variable {α : Type} [Scalar α]

/-- The scale as a scalar. -/
def factor (pen : Pen) : α := pen.scale

/-- A point in pixels. -/
def point (pen : Pen) (p : Point α) : Point α := ⟨p.x * pen.factor, p.y * pen.factor⟩

/-- A rectangle in pixels. -/
def box (pen : Pen) (r : Rect α) : Rect α :=
  ⟨r.left * pen.factor, r.top * pen.factor, r.right * pen.factor, r.bottom * pen.factor⟩

/-- The width in pixels of a line that is some half units wide. -/
def width (pen : Pen) (halves : Int) : Int :=
  let n := halves * pen.scale
  max 1 (Exact.nearest (n < 0) n.natAbs 2)

/-- The usual width of borders and lines, in half units. -/
def lineHalves (pen : Pen) : Int := 2 * pen.config.lineWidth

/-- The width in pixels of a line whose width has been computed. -/
def computedWidth (pen : Pen) (width : α) : Except DrawError Int :=
  match Scalar.exact (width * pen.factor) with
  | .nan => .error .undefinedWidth
  | .infinite _ => .error .infiniteWidth
  | .finite negative num den => .ok (max 1 (Exact.nearest negative num den))

variable (α) in
/-- The width in pixels of a border whose width is given in a style; zero counts as not given. -/
def styledWidth (pen : Pen) (width : Option Numeral) : Except DrawError Int :=
  match width with
  | none => .ok (pen.width pen.lineHalves)
  | some .nan => .error .undefinedWidth
  | some (.infinite _) =>
    .error (if pen.scale = 0 then .undefinedWidth else .infiniteWidth)
  | some (.finite negative d) =>
    -- A numeral may be so small that its nearest number is zero.
    let w : α := if negative then -Scalar.ofDecimal d else Scalar.ofDecimal d
    if w == 0 then .ok (pen.width pen.lineHalves) else pen.computedWidth w

/-! ## Text -/

/-- Whether a text is centred on its anchor or starts there; it is always centred in height. -/
inductive Alignment where
  | center | left
  deriving DecidableEq, Repr

/-- A text at an anchor, on a patch of background if a colour is given for one. An empty text is
not drawn. -/
def write (pen : Pen) (anchor : Point α) (text : String) (fill : Color) (font : Font)
    (alignment : Alignment) (background : Option Color) : List (Call α) :=
  if text.isEmpty then []
  else
    let box := font.textBox text
    let width : α := box.width
    let height : α := box.height
    let p := pen.point anchor
    let left : α := match alignment with
      | .center => p.x - width / 2
      | .left => p.x
    let top : α := p.y - height / 2
    let patch := match background with
      | none => []
      | some color =>
        let pad : α := 3 * pen.factor
        [Call.rectangle ⟨left - pad, top - pad, left + width + pad, top + height + pad⟩
          (Paint.filled color)]
    patch ++ [Call.text ⟨left - (box.left : α), top - (box.top : α)⟩ text fill font]

/-- A text centred on its anchor. -/
def writeCentered (pen : Pen) (anchor : Point α) (text : String) (font : Font) : List (Call α) :=
  pen.write anchor text pen.config.textColor font .center none

/-- A text that starts at its anchor. -/
def writeLeft (pen : Pen) (anchor : Point α) (text : String) (font : Font) : List (Call α) :=
  pen.write anchor text pen.config.textColor font .left none

/-- A text centred on its anchor, on a patch that keeps lines away from it. -/
def writeLabel (pen : Pen) (anchor : Point α) (text : String) (font : Font) : List (Call α) :=
  pen.write anchor text pen.config.textColor font .center (some pen.config.labelBackground)

/-- An optional text at an optional place. -/
def writeLabel? (pen : Pen) (anchor : Option (Point α)) (text : Option String) (font : Font) :
    List (Call α) :=
  match anchor, text with
  | some anchor, some text => pen.writeLabel anchor text font
  | _, _ => []

/-! ## Lines -/

/-- A path of the given width in pixels. -/
def strokePath (pen : Pen) (path : Path α) (fill : Color) (width : Int) : List (Call α) :=
  [.line (path.points.map pen.point) fill width]

/-- A straight line of the given width in pixels. -/
def strokeSegment (pen : Pen) (a b : Point α) (fill : Color) (width : Int) : Call α :=
  .line [pen.point a, pen.point b] fill width

end Pen

end TextDiagram
