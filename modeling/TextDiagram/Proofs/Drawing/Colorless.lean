import TextDiagram.Drawing.Arrow
import TextDiagram.Drawing.Dash
import TextDiagram.Drawing.Stripe
import TextDiagram.Drawing.Title
import TextDiagram.Layout
import TextDiagram.Proofs.Traversal
/-!
# Drawing without colours

What is left of configurations, pens and drawings when all colours are taken for one. Two lists of
calls are alike if they are the same then: call by call the same shapes and texts in the same places,
with the same widths and fonts. Everything that a pen draws is alike in whatever colours.

Main statements:

* `Call.Alike.append`, `Call.Alike.flatMap`: lists are alike if their pieces are.
* `Pen.alike_write`: texts in different colours are alike, and so are the patches behind them.
* `Pen.colorless_drawArrow`, `Pen.alike_stroke`: so are arrowheads and paths, dashed or not.
* `Renderer.alike_drawTitle`: so are titles.
-/

namespace TextDiagram

/-- The colour that stands for all others. -/
def Color.plain : Color := ⟨0, 0, 0⟩

namespace Config

/-- The configuration with one colour for everything, also as the only one of each palette. -/
def colorless (config : Config) : Config :=
  { config with
    backgroundColor := .plain
    nodeColor := .plain
    nodeBorderColor := .plain
    edgeColor := .plain
    textColor := .plain
    arrowColor := .plain
    lifelineColor := .plain
    subgraphColor := .plain
    labelBackground := .plain
    pieColors := [.plain]
    ganttColors := [.plain]
    ganttCriticalColor := .plain
    ganttDoneColor := .plain
    ganttActiveColor := .plain }

/-- Neither of the palettes is empty. -/
structure HasPalettes (config : Config) : Prop where
  pie : config.pieColors ≠ []
  gantt : config.ganttColors ≠ []

/-- Forgetting the colours of a palette leaves no palette empty. -/
theorem hasPalettes_colorless (config : Config) : config.colorless.HasPalettes := by
  constructor <;> exact List.cons_ne_nil _ _

/-- No palette of a theme is empty. -/
theorem hasPalettes_ofTheme (theme : Theme) : (ofTheme theme).HasPalettes := by
  cases theme <;> constructor <;> exact List.cons_ne_nil _ _

/-- The themes differ in colours only. -/
theorem colorless_ofTheme (theme : Theme) : (ofTheme theme).colorless = light.colorless := by
  cases theme <;> rfl

end Config

/-- The pen that draws everything in one colour. -/
def Pen.colorless (pen : Pen) : Pen := ⟨pen.config.colorless, pen.scale⟩

/-- The renderer that draws everything in one colour. -/
def Renderer.colorless (r : Renderer) : Renderer := ⟨r.toPen.colorless, r.library⟩

/-- The paint with its colours taken for one. Whether there is an inside and a border stays. -/
def Paint.colorless (paint : Paint) : Paint :=
  ⟨paint.fill.map fun _ => .plain, paint.outline.map fun _ => .plain, paint.width⟩

variable {α β : Type}

/-- The slice with its colour taken for that of all. -/
def PositionedSlice.colorless (s : PositionedSlice α) : PositionedSlice α :=
  { s with color := .plain }

/-- The entry with its colour taken for that of all. -/
def LegendEntry.colorless (e : LegendEntry α) : LegendEntry α := { e with color := .plain }

/-- The pie chart with the colours of slices and legend taken for one. -/
def PieLayout.colorless (l : PieLayout α) : PieLayout α :=
  { l with
    slices := l.slices.map (·.colorless)
    legend := l.legend.map (·.colorless) }

/-- The task with the colour of its bar taken for that of all. -/
def PositionedTask.colorless (t : PositionedTask α) : PositionedTask α :=
  { t with color := .plain }

/-- The Gantt chart with the colours of bars taken for one. -/
def GanttLayout.colorless (l : GanttLayout α) : GanttLayout α :=
  { l with tasks := l.tasks.map (·.colorless) }

/-- The placed diagram with its colours taken for one. -/
def Layout.colorless : Layout α → Layout α
  | .pie l => .pie l.colorless
  | .gantt l => .gantt l.colorless
  | l => l

/-- Forgetting the colours keeps the canvas. -/
theorem Layout.size_colorless (l : Layout α) : l.colorless.size = l.size := by
  cases l <;> rfl

namespace Call

/-- The call with its colours taken for one. -/
def colorless : Call α → Call α
  | line points _ width => line points .plain width
  | polygon points paint => polygon points paint.colorless
  | rectangle box paint => rectangle box paint.colorless
  | ellipse box paint => ellipse box paint.colorless
  | roundedRectangle box radius paint => roundedRectangle box radius paint.colorless
  | pieSlice box start stop paint => pieSlice box start stop paint.colorless
  | text corner content _ font => text corner content .plain font

/-- The calls are the same, one by one, but for the colours. -/
def Alike (calls calls' : List (Call α)) : Prop := calls.map colorless = calls'.map colorless

namespace Alike

variable {first first' rest rest' : List (Call α)}

/-- Drawings one after the other are alike if they are alike each. -/
theorem append (hfirst : Alike first first') (hrest : Alike rest rest') :
    Alike (first ++ rest) (first' ++ rest') := by
  unfold Alike at *
  rw [List.map_append, List.map_append, hfirst, hrest]

/-- Drawings are alike if their first calls and what follows are. -/
theorem cons {call call' : Call α} (hcall : call.colorless = call'.colorless)
    (hrest : Alike rest rest') : Alike (call :: rest) (call' :: rest') := by
  unfold Alike at *
  rw [List.map_cons, List.map_cons, hcall, hrest]

/-- One call for each entry of a list. -/
theorem map {f f' : β → Call α} (h : ∀ b, (f b).colorless = (f' b).colorless) (entries : List β) :
    Alike (entries.map f) (entries.map f') := by
  unfold Alike
  rw [List.map_map, List.map_map]
  exact List.map_congr_left fun b _ => h b

/-- Some calls for each entry of a list. -/
theorem flatMap {f f' : β → List (Call α)} (h : ∀ b, Alike (f b) (f' b)) (entries : List β) :
    Alike (entries.flatMap f) (entries.flatMap f') := by
  unfold Alike at *
  rw [List.map_flatMap, List.map_flatMap]
  simp only [h]

/-- Some calls for each entry of a list and its position. -/
theorem flatten_mapIdx {f f' : Nat → β → List (Call α)} (h : ∀ i b, Alike (f i b) (f' i b))
    (entries : List β) : Alike (entries.mapIdx f).flatten (entries.mapIdx f').flatten := by
  -- The positions become part of the entries.
  rw [flatten_mapIdx_eq_flatMap, flatten_mapIdx_eq_flatMap]
  refine .flatMap ?_ entries.zipIdx
  rintro ⟨b, i⟩
  exact h i b

end Alike

end Call

/-- The image with its colours taken for one. -/
def Image.colorless (i : Image α) : Image α :=
  { i with background := .plain, calls := i.calls.map (·.colorless) }

open Call (Alike)

/-! ## What a pen draws -/

namespace Pen

variable [Scalar α] (pen : Pen)

/-- Texts in two colours are alike if both or neither stand on a patch of background. -/
theorem alike_write (anchor : Point α) (text : String) (fill fill' : Color) (font : Font)
    (alignment : Alignment) {background background' : Option Color}
    (h : background.isSome = background'.isSome) :
    Alike (pen.write anchor text fill font alignment background)
      (pen.colorless.write anchor text fill' font alignment background') := by
  unfold write
  by_cases hempty : text.isEmpty = true
  · rw [if_pos hempty, if_pos hempty]
    rfl
  · rw [if_neg hempty, if_neg hempty]
    cases background with
    | none =>
      cases background' with
      | none => rfl
      | some color' => cases h
    | some color =>
      cases background' with
      | none => cases h
      | some color' => rfl

/-- Centred text is written alike. -/
theorem alike_writeCentered (anchor : Point α) (text : String) (font : Font) :
    Alike (pen.writeCentered anchor text font) (pen.colorless.writeCentered anchor text font) :=
  pen.alike_write anchor text _ _ font .center rfl

/-- Text to the right of its anchor is written alike. -/
theorem alike_writeLeft (anchor : Point α) (text : String) (font : Font) :
    Alike (pen.writeLeft anchor text font) (pen.colorless.writeLeft anchor text font) :=
  pen.alike_write anchor text _ _ font .left rfl

/-- A label is written alike, its background included. -/
theorem alike_writeLabel (anchor : Point α) (text : String) (font : Font) :
    Alike (pen.writeLabel anchor text font) (pen.colorless.writeLabel anchor text font) :=
  pen.alike_write anchor text _ _ font .center rfl

/-- An optional label is written alike. -/
theorem alike_writeLabel? (anchor : Option (Point α)) (text : Option String) (font : Font) :
    Alike (pen.writeLabel? anchor text font) (pen.colorless.writeLabel? anchor text font) := by
  unfold writeLabel?
  cases anchor with
  | none => rfl
  | some anchor =>
    cases text with
    | none => rfl
    | some text => exact pen.alike_writeLabel anchor text font

/-- A cross is drawn alike, whatever its colours. -/
theorem alike_drawCross (center : Point α) (fill fill' : Color) :
    Alike (pen.drawCross center fill) (pen.colorless.drawCross center fill') := rfl

/-- A bar has the same stripes in all colours. -/
theorem alike_drawStripes (bar : Rect α) :
    Alike (pen.drawStripes bar) (pen.colorless.drawStripes bar) := by
  unfold drawStripes
  refine .map ?_ (stripes bar)
  intro s
  rfl

variable [Trig α]

/-- An arrow head is drawn alike, whatever its colours. -/
theorem colorless_drawArrow (line : Segment α) (fill fill' : Color) :
    (pen.drawArrow line fill).colorless = (pen.colorless.drawArrow line fill').colorless := rfl

/-- An open arrow head is drawn alike, whatever its colours. -/
theorem colorless_drawOpenArrow (line : Segment α) (fill fill' : Color) :
    (pen.drawOpenArrow line fill).colorless = (pen.colorless.drawOpenArrow line fill').colorless :=
  rfl

/-- A dashed polyline has the same dashes in all colours. -/
theorem alike_strokeDashed (path : Path α) (fill fill' : Color) (width : Int) :
    Alike (pen.strokeDashed path fill width) (pen.colorless.strokeDashed path fill' width) := by
  unfold strokeDashed
  refine .flatMap (fun leg => ?_) path.legs
  -- Both pens measure the leg in the same pixels.
  change Alike (pen.strokeDashedLeg leg fill width) (pen.strokeDashedLeg leg fill' width)
  unfold strokeDashedLeg
  extract_lets a b length
  by_cases hlength : (length == 0) = true
  · rw [if_pos hlength, if_pos hlength]
    rfl
  · rw [if_neg hlength, if_neg hlength]
    refine .map ?_ (dashes pen.factor length)
    intro dash
    rfl

/-- A line of either kind is drawn alike. -/
theorem alike_stroke (isDashed : Bool) (path : Path α) (fill fill' : Color) (width : Int) :
    Alike (pen.stroke isDashed path fill width) (pen.colorless.stroke isDashed path fill' width) := by
  cases isDashed with
  | false => rfl
  | true => exact pen.alike_strokeDashed path fill fill' width

end Pen

/-- A title takes a font only if there is one, whatever the colours. -/
theorem Renderer.alike_drawTitle [Scalar α] (r : Renderer)
    (title : Option (TitleLine α)) (fonts : FontCache) :
    Alike (r.drawTitle title fonts).1 (r.colorless.drawTitle title fonts).1 ∧
      (r.drawTitle title fonts).2 = (r.colorless.drawTitle title fonts).2 := by
  cases title with
  | none => exact ⟨rfl, rfl⟩
  | some line => exact ⟨r.toPen.alike_writeCentered line.position line.text _, rfl⟩

end TextDiagram
