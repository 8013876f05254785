import TextDiagram.Drawing.Arrow
import TextDiagram.Drawing.Dash
import TextDiagram.Drawing.Stripe
import TextDiagram.Drawing.Title
import TextDiagram.Proofs.Number.Unrounded
import TextDiagram.Proofs.Traversal
/-!
# Drawing at another scale

A drawing is scaled up if its shapes are the same and stand in the same order, with every coordinate and
every corner radius multiplied. Line widths are left aside, as they are rounded, and so are texts with
the patches behind them, as fonts do not grow evenly. In arithmetic without rounding, whatever a pen
draws at a multiple of its scale is scaled up.

Main statements:

* `ScaledUp.append`, `ScaledUp.flatMap` and so on: a drawing is scaled up if its pieces are.
* `Pen.scaledUp_write`, `Pen.scaledUp_writeLabel`: texts, with and without patches.
* `Pen.arrowhead_magnified`, `Pen.dashes_mul`: the marks and the dashes that are measured in pixels.
* `Pen.scaledUp_stroke`, `Pen.scaledUp_drawStripes` and so on: everything else that a pen draws.
-/

namespace TextDiagram

variable {α β : Type} [Scalar α]

/-! ## Drawings that are scaled up -/

/-- The point with both coordinates multiplied. -/
def Point.scaled (p : Point α) (c : α) : Point α := ⟨p.x * c, p.y * c⟩

@[simp]
theorem Point.scaled_x (p : Point α) (c : α) : (p.scaled c).x = p.x * c := rfl

@[simp]
theorem Point.scaled_y (p : Point α) (c : α) : (p.scaled c).y = p.y * c := rfl

/-- The rectangle with all coordinates multiplied. -/
def Rect.scaled (r : Rect α) (c : α) : Rect α := ⟨r.left * c, r.top * c, r.right * c, r.bottom * c⟩

/-- The paint with its line width taken for that of all. -/
def Paint.widthless (paint : Paint) : Paint := { paint with width := 0 }

namespace Call

/-- The call with its coordinates and its corner radius multiplied. Angles stay. -/
def scaled (c : α) : Call α → Call α
  | line points fill width => line (points.map (·.scaled c)) fill width
  | polygon points paint => polygon (points.map (·.scaled c)) paint
  | rectangle box paint => rectangle (box.scaled c) paint
  | ellipse box paint => ellipse (box.scaled c) paint
  | roundedRectangle box radius paint => roundedRectangle (box.scaled c) (radius * c) paint
  | pieSlice box start stop paint => pieSlice (box.scaled c) start stop paint
  | text corner content fill font => text (corner.scaled c) content fill font

/-- The call with its line width taken for that of all. -/
def widthless : Call α → Call α
  | line points fill _ => line points fill 0
  | polygon points paint => polygon points paint.widthless
  | rectangle box paint => rectangle box paint.widthless
  | ellipse box paint => ellipse box paint.widthless
  | roundedRectangle box radius paint => roundedRectangle box radius paint.widthless
  | pieSlice box start stop paint => pieSlice box start stop paint.widthless
  | text corner content fill font => text corner content fill font

/-- The second call is the first one scaled up, but for line widths. -/
def ScalesTo (s : Int) (call call' : Call α) : Prop :=
  call'.widthless = (call.scaled (s : α)).widthless

end Call

namespace Pen

/-- The pen with its scale multiplied. -/
def magnified (pen : Pen) (s : Int) : Pen := { pen with scale := pen.scale * s }

/-- The patch around the ink of a text that is drawn at a corner. -/
def patch (pen : Pen) (corner : Point α) (content : String) (font : Font) : Rect α :=
  let box := font.textBox content
  let ink : Rect α := ⟨corner.x + (box.left : α), corner.y + (box.top : α),
    corner.x + (box.left : α) + (box.width : α), corner.y + (box.top : α) + (box.height : α)⟩
  ink.padded (3 * pen.factor)

end Pen

/-- The second list has the calls of the first one scaled up, in the same order. Texts are left aside,
and so is a rectangle in front of a text that is just the patch of label background behind it. -/
inductive ScaledUp (pen : Pen) (s : Int) : List (Call α) → List (Call α) → Prop where
  | nil : ScaledUp pen s [] []
  | shape {call call' : Call α} {rest rest' : List (Call α)} (hcall : call.ScalesTo s call')
      (hrest : ScaledUp pen s rest rest') : ScaledUp pen s (call :: rest) (call' :: rest')
  | text (corner corner' : Point α) (content : String) (fill : Color) (font font' : Font)
      {rest rest' : List (Call α)} (hrest : ScaledUp pen s rest rest') :
      ScaledUp pen s (.text corner content fill font :: rest)
        (.text corner' content fill font' :: rest')
  | label (corner corner' : Point α) (content : String) (fill : Color) (font font' : Font)
      {rest rest' : List (Call α)} (hrest : ScaledUp pen s rest rest') :
      ScaledUp pen s
        (.rectangle (pen.patch corner content font) (Paint.filled pen.config.labelBackground) ::
          .text corner content fill font :: rest)
        (.rectangle ((pen.magnified s).patch corner' content font')
            (Paint.filled pen.config.labelBackground) ::
          .text corner' content fill font' :: rest')

namespace ScaledUp

variable {pen : Pen} {s : Int} {first first' rest rest' : List (Call α)}

/-- Drawings one after the other are scaled up together. -/
theorem append (hfirst : ScaledUp pen s first first') (hrest : ScaledUp pen s rest rest') :
    ScaledUp pen s (first ++ rest) (first' ++ rest') := by
  -- Along the first drawing, since each case adds one call to both.
  induction hfirst with
  | nil => exact hrest
  | shape hcall _ ih => exact .shape hcall ih
  | text corner corner' content fill font font' _ ih =>
    exact .text corner corner' content fill font font' ih
  | label corner corner' content fill font font' _ ih =>
    exact .label corner corner' content fill font font' ih

/-- A single shape is scaled up. -/
theorem singleton {call call' : Call α} (h : call.ScalesTo s call') :
    ScaledUp pen s [call] [call'] := .shape h .nil

/-- What is drawn for each entry of a list is scaled up together. -/
theorem flatMap {f f' : β → List (Call α)} (h : ∀ b, ScaledUp pen s (f b) (f' b))
    (entries : List β) : ScaledUp pen s (entries.flatMap f) (entries.flatMap f') := by
  induction entries with
  | nil => exact .nil
  | cons b rest ih =>
    rw [List.flatMap_cons, List.flatMap_cons]
    exact (h b).append ih

/-- One shape for each entry of a list is scaled up together. -/
theorem map {f f' : β → Call α} (h : ∀ b, (f b).ScalesTo s (f' b)) (entries : List β) :
    ScaledUp pen s (entries.map f) (entries.map f') := by
  induction entries with
  | nil => exact .nil
  | cons b rest ih => exact .shape (h b) ih

/-- What is drawn for each entry and its position is scaled up together. -/
theorem flatten_mapIdx {f f' : Nat → β → List (Call α)} (h : ∀ i b, ScaledUp pen s (f i b) (f' i b))
    (entries : List β) :
    ScaledUp pen s (entries.mapIdx f).flatten (entries.mapIdx f').flatten := by
  -- The positions become part of the entries, then `flatMap` applies.
  rw [flatten_mapIdx_eq_flatMap, flatten_mapIdx_eq_flatMap]
  refine flatMap ?_ entries.zipIdx
  rintro ⟨b, i⟩
  exact h i b

end ScaledUp

namespace Pen

variable {pen : Pen} {s : Int}

/-! ## Texts -/

/-- A text without a patch, in whatever font. -/
theorem scaledUp_write (anchor : Point α) (content : String) (fill : Color) (font font' : Font)
    (alignment : Alignment) :
    ScaledUp pen s (pen.write anchor content fill font alignment none)
      ((pen.magnified s).write anchor content fill font' alignment none) := by
  unfold write
  by_cases hempty : content.isEmpty = true
  · rw [if_pos hempty, if_pos hempty]
    exact .nil
  · rw [if_neg hempty, if_neg hempty]
    exact .text _ _ content fill font font' .nil

/-- Centred text is scaled up. -/
theorem scaledUp_writeCentered (anchor : Point α) (content : String) (font font' : Font) :
    ScaledUp pen s (pen.writeCentered anchor content font)
      ((pen.magnified s).writeCentered anchor content font') :=
  scaledUp_write anchor content pen.config.textColor font font' .center

/-- Text to the right of its anchor is scaled up. -/
theorem scaledUp_writeLeft (anchor : Point α) (content : String) (font font' : Font) :
    ScaledUp pen s (pen.writeLeft anchor content font)
      ((pen.magnified s).writeLeft anchor content font') :=
  scaledUp_write anchor content pen.config.textColor font font' .left

variable [Unrounded α]

/-- A label is nothing, or a text on its patch. -/
theorem writeLabel_eq (pen : Pen) (anchor : Point α) (content : String) (font : Font) :
    pen.writeLabel anchor content font = if content.isEmpty then [] else
      let box := font.textBox content
      let corner : Point α := ⟨(pen.point anchor).x - (box.width : α) / 2 - (box.left : α),
        (pen.point anchor).y - (box.height : α) / 2 - (box.top : α)⟩
      [.rectangle (pen.patch corner content font) (Paint.filled pen.config.labelBackground),
        .text corner content pen.config.textColor font] := by
  simp only [writeLabel, write, patch, Rect.padded, Unrounded.sub_add_cancel, List.singleton_append]

/-- A label with its background is scaled up; an empty one is drawn in neither picture. -/
theorem scaledUp_writeLabel (anchor : Point α) (content : String) (font font' : Font) :
    ScaledUp pen s (pen.writeLabel anchor content font)
      ((pen.magnified s).writeLabel anchor content font') := by
  rw [writeLabel_eq, writeLabel_eq]
  by_cases hempty : content.isEmpty = true
  · rw [if_pos hempty, if_pos hempty]
    exact .nil
  · rw [if_neg hempty, if_neg hempty]
    exact .label _ _ content pen.config.textColor font font' .nil

/-- An optional label is scaled up. -/
theorem scaledUp_writeLabel? (anchor : Option (Point α)) (content : Option String)
    (font font' : Font) :
    ScaledUp pen s (pen.writeLabel? anchor content font)
      ((pen.magnified s).writeLabel? anchor content font') := by
  unfold writeLabel?
  cases anchor with
  | none => exact .nil
  | some anchor =>
    cases content with
    | none => exact .nil
    | some content => exact scaledUp_writeLabel anchor content font font'

/-! ## Pixels -/

/-- The factor of the magnified pen is `s` times the factor of the pen. -/
theorem factor_magnified : (pen.magnified s).factor = pen.factor * (s : α) := by
  -- Exact arithmetic is compared by its values.
  apply Unrounded.value_injective
  simp only [factor, magnified, Unrounded.value_mul, Unrounded.value_intCast]
  exact Int.cast_mul _ _

/-- A length in the magnified drawing is `s` times that in the drawing. -/
theorem mul_factor_magnified (a : α) :
    a * (pen.magnified s).factor = a * pen.factor * (s : α) := by
  rw [factor_magnified, Unrounded.mul_assoc]

/-- Points of the magnified drawing are `s` times as far from the corner. -/
theorem point_magnified (p : Point α) : (pen.magnified s).point p = (pen.point p).scaled (s : α) := by
  simp only [point, Point.scaled, mul_factor_magnified]

/-- Boxes of the magnified drawing are `s` times as large and as far from the corner. -/
theorem box_magnified (r : Rect α) : (pen.magnified s).box r = (pen.box r).scaled (s : α) := by
  simp only [box, Rect.scaled, mul_factor_magnified]

/-- A list of points is magnified point by point. -/
theorem map_point_magnified (points : List (Point α)) :
    points.map (pen.magnified s).point = (points.map pen.point).map (·.scaled (s : α)) := by
  rw [List.map_map]
  exact List.map_congr_left fun p _ => point_magnified p

/-! ## Shapes in canvas units -/

/-- A polygon is scaled up, up to the width of its outline. -/
theorem scalesTo_polygon (corners : List (Point α)) {paint paint' : Paint}
    (h : paint'.widthless = paint.widthless) :
    Call.ScalesTo s (.polygon (corners.map pen.point) paint)
      (.polygon (corners.map (pen.magnified s).point) paint') := by
  simp only [Call.ScalesTo, Call.scaled, Call.widthless, map_point_magnified, h]

/-- A rectangle is scaled up, up to the width of its outline. -/
theorem scalesTo_rectangle (box : Rect α) {paint paint' : Paint}
    (h : paint'.widthless = paint.widthless) :
    Call.ScalesTo s (.rectangle (pen.box box) paint)
      (.rectangle ((pen.magnified s).box box) paint') := by
  simp only [Call.ScalesTo, Call.scaled, Call.widthless, box_magnified, h]

/-- An ellipse is scaled up, up to the width of its outline. -/
theorem scalesTo_ellipse (box : Rect α) {paint paint' : Paint}
    (h : paint'.widthless = paint.widthless) :
    Call.ScalesTo s (.ellipse (pen.box box) paint)
      (.ellipse ((pen.magnified s).box box) paint') := by
  simp only [Call.ScalesTo, Call.scaled, Call.widthless, box_magnified, h]

/-- A rounded rectangle is scaled up with its radius, up to the width of its outline. -/
theorem scalesTo_roundedRectangle (box : Rect α) (radius : α) {paint paint' : Paint}
    (h : paint'.widthless = paint.widthless) :
    Call.ScalesTo s (.roundedRectangle (pen.box box) (radius * pen.factor) paint)
      (.roundedRectangle ((pen.magnified s).box box) (radius * (pen.magnified s).factor) paint') := by
  simp only [Call.ScalesTo, Call.scaled, Call.widthless, box_magnified, mul_factor_magnified, h]

/-- A sector is scaled up and keeps its angles. -/
theorem scalesTo_pieSlice (box : Rect α) (start stop : α) {paint paint' : Paint}
    (h : paint'.widthless = paint.widthless) :
    Call.ScalesTo s (.pieSlice (pen.box box) start stop paint)
      (.pieSlice ((pen.magnified s).box box) start stop paint') := by
  simp only [Call.ScalesTo, Call.scaled, Call.widthless, box_magnified, h]

/-- A line is scaled up, up to its width. -/
theorem scalesTo_strokeSegment (a b : Point α) (fill : Color) (width width' : Int) :
    (pen.strokeSegment a b fill width).ScalesTo s
      ((pen.magnified s).strokeSegment a b fill width') := by
  simp only [Call.ScalesTo, strokeSegment, Call.scaled, Call.widthless, point_magnified,
    List.map_cons, List.map_nil]

/-- A polyline is scaled up, up to its width. -/
theorem scaledUp_strokePath (path : Path α) (fill : Color) (width width' : Int) :
    ScaledUp pen s (pen.strokePath path fill width)
      ((pen.magnified s).strokePath path fill width') := by
  refine .singleton ?_
  simp only [Call.ScalesTo, Call.scaled, Call.widthless, map_point_magnified]

/-- A striped bar has the same stripes, scaled up. -/
theorem scaledUp_drawStripes (bar : Rect α) :
    ScaledUp pen s (pen.drawStripes bar) ((pen.magnified s).drawStripes bar) := by
  unfold drawStripes
  refine .map ?_ (stripes bar)
  intro stripe
  exact scalesTo_strokeSegment stripe.start stripe.stop _ _ _

/-! ## Dashes -/

/-- Two runs of the loop go on together, one at the multiple of the other's position. -/
theorem dashesFrom_mul {c : α} (hc : 0 < Unrounded.value c) (dash gap length : α) (n : Nat)
    (position : α) :
    dashesFrom (dash * c) (gap * c) (length * c) n (position * c) =
      (dashesFrom dash gap length n position).map fun (start, stop) => (start * c, stop * c) := by
  induction n generalizing position with
  | zero => rfl
  | succ n ih =>
    -- Both runs compare their position with the end of the line, so they stop in the same round.
    simp only [dashesFrom, Unrounded.mul_lt_mul_iff hc]
    split
    · rw [← Unrounded.add_mul, Unrounded.min_mul hc, ← Unrounded.add_mul, ih]
      rfl
    · rfl

/-- Multiplying the scale and the length of a leg multiplies where its dashes start and stop. -/
theorem dashes_mul {c : α} (hc : 0 < Unrounded.value c) (scale length : α) :
    dashes (scale * c) (length * c) =
      (dashes scale length).map fun (start, stop) => (start * c, stop * c) := by
  -- How many dashes there are depends on the ratio of length and scale only.
  have hcount : length * c / (10 * (scale * c)) = length / (10 * scale) := by
    rw [← Unrounded.mul_assoc, Unrounded.mul_div_mul hc]
  unfold dashes
  rw [hcount, ← Unrounded.mul_assoc, ← Unrounded.mul_assoc, ← dashesFrom_mul hc, Unrounded.zero_mul]

/-- Going a multiple of a distance from a scaled point is scaling where one gets. -/
theorem along_mul {c : α} (start direction : Point α) (distance : α) :
    along (start.scaled c) direction (distance * c) = (along start direction distance).scaled c := by
  simp only [along, Point.scaled, Unrounded.add_mul, Unrounded.mul_assoc]

/-! ## Marks in pixels -/

/-- A cross is scaled up around its scaled centre. -/
theorem scaledUp_drawCross (center : Point α) (fill : Color) :
    ScaledUp pen s (pen.drawCross center fill) ((pen.magnified s).drawCross center fill) := by
  have hsize : (5 * (pen.magnified s).factor : α) = 5 * pen.factor * (s : α) := mul_factor_magnified 5
  simp only [drawCross, point_magnified, hsize, Point.scaled, ← Unrounded.add_mul,
    ← Unrounded.sub_mul]
  exact .shape rfl (.shape rfl .nil)

variable [Trig α] (htrig : Trig.Homogeneous α) (hs : 1 ≤ s)

include htrig hs

/-- The wings are as much longer as the line is, and lean back by the same angle. -/
theorem arrowhead_magnified (line : Segment α) :
    (pen.magnified s).arrowhead line = (pen.arrowhead line).map (·.scaled (s : α)) := by
  have hsize : (8 * (pen.magnified s).factor : α) = 8 * pen.factor * (s : α) := mul_factor_magnified 8
  have hwing : ∀ x size direction : α,
      x * (s : α) + size * (s : α) * direction = (x + size * direction) * (s : α) := by
    intro x size direction
    apply Unrounded.value_injective
    simp only [Unrounded.value_add, Unrounded.value_mul]
    ring
  -- The angle is measured between the ends in pixels, whose distances are multiples too.
  simp only [arrowhead, point_magnified, hsize, Point.scaled, ← Unrounded.sub_mul,
    htrig.atan2_mul _ _ hs, hwing, List.map_cons, List.map_nil]

/-- An arrow head is scaled up: angles do not depend on the scale. -/
theorem scalesTo_drawArrow (line : Segment α) (fill : Color) :
    (pen.drawArrow line fill).ScalesTo s ((pen.magnified s).drawArrow line fill) := by
  simp only [Call.ScalesTo, drawArrow, Call.scaled, arrowhead_magnified htrig hs]

/-- An open arrow head is scaled up. -/
theorem scalesTo_drawOpenArrow (line : Segment α) (fill : Color) :
    (pen.drawOpenArrow line fill).ScalesTo s ((pen.magnified s).drawOpenArrow line fill) := by
  simp only [Call.ScalesTo, drawOpenArrow, Call.scaled, Call.widthless,
    arrowhead_magnified htrig hs]

/-- A dashed leg has the same number of dashes, each scaled up. -/
theorem scaledUp_strokeDashedLeg (leg : Segment α) (fill : Color) (width width' : Int) :
    ScaledUp pen s (pen.strokeDashedLeg leg fill width)
      ((pen.magnified s).strokeDashedLeg leg fill width') := by
  have hc := Unrounded.intCast_pos (α := α) hs
  -- Lengths are multiplied, so directions stay, and so does the question whether there is any length.
  simp only [strokeDashedLeg, point_magnified, Point.scaled_x, Point.scaled_y, ← Unrounded.sub_mul,
    htrig.hypot_mul _ _ hs, Unrounded.mul_beq_zero hc, Unrounded.mul_div_mul hc, factor_magnified,
    dashes_mul hc]
  generalize Trig.hypot ((pen.point leg.stop).x - (pen.point leg.start).x)
    ((pen.point leg.stop).y - (pen.point leg.start).y) = length
  -- A leg without length has no dashes in either drawing.
  by_cases hlength : (length == 0) = true
  · rw [if_pos hlength, if_pos hlength]
    exact .nil
  · rw [if_neg hlength, if_neg hlength, List.map_map]
    refine .map ?_ (dashes pen.factor length)
    rintro ⟨start, stop⟩
    simp only [Call.ScalesTo, Function.comp, along_mul, Call.scaled, Call.widthless, List.map_cons,
      List.map_nil]

/-- A dashed polyline is scaled up leg by leg. -/
theorem scaledUp_strokeDashed (path : Path α) (fill : Color) (width width' : Int) :
    ScaledUp pen s (pen.strokeDashed path fill width)
      ((pen.magnified s).strokeDashed path fill width') := by
  unfold strokeDashed
  refine .flatMap ?_ path.legs
  intro leg
  exact scaledUp_strokeDashedLeg htrig hs leg fill width width'

/-- A line of either kind is scaled up. -/
theorem scaledUp_stroke (isDashed : Bool) (path : Path α) (fill : Color) (width width' : Int) :
    ScaledUp pen s (pen.stroke isDashed path fill width)
      ((pen.magnified s).stroke isDashed path fill width') := by
  cases isDashed with
  | false => exact scaledUp_strokePath path fill width width'
  | true => exact scaledUp_strokeDashed htrig hs path fill width width'

end Pen

/-- A title is nothing but a text. -/
theorem Renderer.scaledUp_drawTitle (r r' : Renderer) {pen : Pen} {s : Int} (hr : r.toPen = pen)
    (hr' : r'.toPen = pen.magnified s) (title : Option (TitleLine α)) (fonts fonts' : FontCache) :
    ScaledUp pen s (r.drawTitle title fonts).1 (r'.drawTitle title fonts').1 := by
  cases title with
  | none => exact .nil
  | some line =>
    change ScaledUp pen s (r.toPen.writeCentered line.position line.text _)
      (r'.toPen.writeCentered line.position line.text _)
    rw [hr, hr']
    exact Pen.scaledUp_writeCentered line.position line.text _ _

end TextDiagram
