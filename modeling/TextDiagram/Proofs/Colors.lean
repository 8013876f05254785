import TextDiagram.Proofs.Drawing.Alike
import TextDiagram.Proofs.Rendering
/-!
# Colours do not move anything

Diagrams of all kinds are placed and drawn in the same way whatever the colours are. A placed diagram
has colours of its own in slices, in entries of legends and in bars; everything else in it comes from
the sizes of the configuration.

Main statements:

* `Diagram.alike_layout`: a diagram is placed alike with colours and without.
* `Generator.drawsAlike_of_colors`: a text is placed and drawn alike in all colours.
-/

namespace TextDiagram

/-! ## Placed diagrams -/

variable {α : Type} [Scalar α]

/-- A palette that is not empty has a colour for every index. -/
theorem Config.exists_paletteColor {palette : Palette} (h : palette ≠ []) (index : Nat) :
    ∃ color, paletteColor? palette index = some color := by
  cases hcolor : paletteColor? palette index with
  | none => exact absurd ((paletteColor?_eq_none_iff palette index).1 hcolor) h
  | some color => exact ⟨color, rfl⟩

/-- No colour is asked for to lay out a sequence diagram. -/
theorem SequenceDiagram.layout_colorless (config : Config) (diagram : SequenceDiagram) :
    (diagram.layout config : Except LayoutError (SequenceLayout α)) =
      diagram.layout config.colorless := by
  have hmessages : ∀ lifelines : List (String × α),
      placeMessages config lifelines 0 diagram.messages =
        placeMessages config.colorless lifelines 0 diagram.messages := by
    intro lifelines
    rw [placeMessages_eq_mapM, placeMessages_eq_mapM]
    rfl
  exact congrArg (· >>= _) (hmessages _)

namespace PieChart

variable [Trig α] {config : Config}

/-- The colour of a slice does not bear on its place. -/
theorem map_placeSlice (h : config.HasPalettes) (center : Point α) (total : α) (index : Nat)
    (angle : α) (s : PieSlice) :
    (placeSlice config center total index angle s).map PositionedSlice.colorless =
      (placeSlice config.colorless center total index angle s).map PositionedSlice.colorless := by
  rcases Config.exists_paletteColor h.pie index with ⟨color, hcolor⟩
  rcases Config.exists_paletteColor config.hasPalettes_colorless.pie index with ⟨color', hcolor'⟩
  unfold placeSlice
  simp only [hcolor, hcolor']
  split
  · rfl
  · rfl

/-- Slices are placed alike in all palettes. -/
theorem map_placeSlices (h : config.HasPalettes) (center : Point α) (total : α)
    (slices : List PieSlice) (index : Nat) (angle : α) :
    (placeSlices config center total index angle slices).map (List.map PositionedSlice.colorless) =
      (placeSlices config.colorless center total index angle slices).map
        (List.map PositionedSlice.colorless) := by
  induction slices generalizing index angle with
  | nil => rfl
  | cons s more ih =>
    rw [placeSlices, placeSlices]
    refine map_bind_eq (map_placeSlice h center total index angle s) fun placed placed' hplaced => ?_
    -- The angle that the next slice starts at does not depend on the colour of this one.
    have hsweep : placed.sweepAngle = placed'.sweepAngle := congrArg (·.sweepAngle) hplaced
    rw [hsweep]
    refine map_bind_eq (ih (index + 1) _) fun others others' hothers => ?_
    exact congrArg Except.ok (List.cons_eq_cons.2 ⟨hplaced, hothers⟩)

/-- A pie chart is laid out alike in all palettes. -/
theorem map_layout (h : config.HasPalettes) (chart : PieChart) :
    (chart.layout config : Except LayoutError (PieLayout α)).map PieLayout.colorless =
      (chart.layout config.colorless).map PieLayout.colorless := by
  unfold layout
  extract_lets total hasTitle titleHeight radius reach center
  by_cases hempty : chart.slices.isEmpty = true ∨ total ≤ 0
  · rw [if_pos hempty, if_pos hempty]
  · rw [if_neg hempty, if_neg hempty]
    refine map_bind_eq (map_placeSlices h center total _ _ _) fun slices slices' hslices => ?_
    have hlength : slices.length = slices'.length := by
      simpa using congrArg List.length hslices
    -- The colour of a slice comes back in the legend, where nothing else depends on it.
    have hlegend : ∀ x y : α, (slices.mapIdx (legendEntry x y)).map LegendEntry.colorless =
        (slices'.mapIdx (legendEntry x y)).map LegendEntry.colorless := by
      intro x y
      refine map_mapIdx_eq (fun i s s' hs => ?_) hslices
      have hslice : s.slice = s'.slice := congrArg (·.slice) hs
      have hpercentage : s.percentage = s'.percentage := congrArg (·.percentage) hs
      unfold legendEntry
      rw [hslice, hpercentage]
      rfl
    refine congrArg Except.ok ?_
    unfold PieLayout.colorless
    simp only [hslices, hlegend, hlength]
    rfl

end PieChart

namespace GanttChart

variable {config : Config}

/-- The colour of a bar does not bear on its place. -/
theorem map_placeTask (h : config.HasPalettes) (index : Nat) (c : Cursor α) (t : GanttTask) :
    (placeTask config index c t).map PositionedTask.colorless =
      (placeTask config.colorless index c t).map PositionedTask.colorless := by
  rcases exists_taskColor h.gantt t.status index with ⟨color, hcolor⟩
  rcases exists_taskColor config.hasPalettes_colorless.gantt t.status index with ⟨color', hcolor'⟩
  unfold placeTask
  rw [hcolor, hcolor']
  rfl

/-- Tasks are placed alike in all palettes. -/
theorem map_placeTasks (h : config.HasPalettes) (index : Nat) (tasks : List GanttTask)
    (c : Cursor α) :
    (placeTasks config index c tasks).map (Prod.map (List.map PositionedTask.colorless) id) =
      (placeTasks config.colorless index c tasks).map
        (Prod.map (List.map PositionedTask.colorless) id) := by
  induction tasks generalizing c with
  | nil => rfl
  | cons t more ih =>
    rw [placeTasks, placeTasks]
    refine map_bind_eq (map_placeTask h index c t) fun placed placed' hplaced => ?_
    refine map_bind_eq (ih (c.next config)) fun others others' hothers => ?_
    rcases Prod.mk.inj hothers with ⟨htasks, hstop⟩
    exact congrArg Except.ok (Prod.ext (List.cons_eq_cons.2 ⟨hplaced, htasks⟩) hstop)

/-- The column with the colours of bars taken for one. -/
def Column.colorless (column : Column α) : Column α :=
  { column with tasks := column.tasks.map (·.colorless) }

/-- Sections are placed alike in all palettes. -/
theorem map_placeSections (h : config.HasPalettes) (sections : List GanttSection) (index : Nat)
    (c : Cursor α) :
    (placeSections config index c sections).map Column.colorless =
      (placeSections config.colorless index c sections).map Column.colorless := by
  induction sections generalizing index c with
  | nil => rfl
  | cons s more ih =>
    rw [placeSections, placeSections]
    refine map_bind_eq (map_placeTasks h index s.tasks _) fun placed placed' hplaced => ?_
    rcases placed with ⟨tasks, below⟩
    rcases placed' with ⟨tasks', below'⟩
    rcases Prod.mk.inj hplaced with ⟨htasks, hbelow⟩
    -- The cursor behind the tasks is the same, so the other sections start in the same place.
    obtain rfl : below = below' := hbelow
    refine map_bind_eq (ih (index + 1) below) fun others others' hothers => ?_
    have hsections : others.sections = others'.sections := congrArg (·.sections) hothers
    have hothertasks : others.tasks.map (·.colorless) = others'.tasks.map (·.colorless) :=
      congrArg (·.tasks) hothers
    have hstop : others.stop = others'.stop := congrArg (·.stop) hothers
    refine congrArg Except.ok ?_
    unfold Column.colorless
    simp only [List.map_append, hsections, htasks, hothertasks, hstop]
    rfl

/-- A Gantt chart is laid out alike in all palettes. -/
theorem map_layout (h : config.HasPalettes) (chart : GanttChart) :
    (chart.layout config : Except LayoutError (GanttLayout α)).map GanttLayout.colorless =
      (chart.layout config.colorless).map GanttLayout.colorless := by
  refine map_bind_eq (map_placeSections h chart.sections 0 _) fun column column' hcolumn => ?_
  have hsections : column.sections = column'.sections := congrArg (·.sections) hcolumn
  have htasks : column.tasks.map (·.colorless) = column'.tasks.map (·.colorless) :=
    congrArg (·.tasks) hcolumn
  have hstop : column.stop = column'.stop := congrArg (·.stop) hcolumn
  refine congrArg Except.ok ?_
  unfold GanttLayout.colorless
  simp only [hsections, htasks, hstop]
  rfl

end GanttChart

/-- A diagram of any kind is placed alike with colours and without. -/
theorem Diagram.alike_layout [Trig α] {config : Config} (h : config.HasPalettes) (d : Diagram) :
    (d.layout config : Except LayoutError (Layout α)).map Layout.colorless =
      (d.layout config.colorless).map Layout.colorless := by
  rw [layout_eq, layout_eq]
  cases d with
  | pie chart =>
    exact map_map_eq (PieChart.map_layout h chart) fun l l' hl => congrArg Layout.pie hl
  | gantt chart =>
    exact map_map_eq (GanttChart.map_layout h chart) fun l l' hl => congrArg Layout.gantt hl
  | sequence diagram =>
    simp only [SequenceDiagram.layout_colorless config diagram]
  | _ => rfl

/-! ## Texts -/

/-- Alike results stay alike when their errors are wrapped. -/
theorem map_mapError_eq {β δ ε ζ : Type} {x x' : Except ε β} {k : β → δ} {f : ε → ζ}
    (h : x.map k = x'.map k) : (x.mapError f).map k = (x'.mapError f).map k := by
  cases x with
  | error e =>
    cases x' with
    | error e' =>
      cases h
      rfl
    | ok b' => cases h
  | ok b =>
    cases x' with
    | error e' => cases h
    | ok b' => exact congrArg Except.ok (Except.ok.inj h)

namespace Generator

variable [Trig α] {r r' : Renderer} {g g' : Generator}

/-- The fonts after rendering a text. -/
theorem fonts_render (g : Generator) (text : String) :
    (g.render (α := α) text).2.fonts =
      (renderWith g.renderer g.fonts (g.layout text : Except Failure (Layout α))).2 := by
  change (Session.render text (Session.start g)).2.toGenerator.fonts = _
  rw [Session.render_toGenerator]
  rfl

/-- Renderers that differ in colours only render alike what is placed alike. -/
theorem alike_renderWith (hr : r.colorless = r'.colorless) {l l' : Except Failure (Layout α)}
    (hl : l.map Layout.colorless = l'.map Layout.colorless) (fonts : FontCache) :
    (renderWith r fonts l).1.map Image.colorless = (renderWith r' fonts l').1.map Image.colorless ∧
      (renderWith r fonts l).2 = (renderWith r' fonts l').2 := by
  cases l with
  | error e =>
    cases l' with
    | error e' =>
      cases hl
      exact ⟨rfl, rfl⟩
    | ok l' => cases hl
  | ok l =>
    cases l' with
    | error e' => cases hl
    | ok l' =>
      have hplaced : l.colorless = l'.colorless := Except.ok.inj hl
      rcases r.alike_render l fonts with ⟨himage, hfonts⟩
      rcases r'.alike_render l' fonts with ⟨himage', hfonts'⟩
      rw [hr, hplaced] at himage hfonts
      constructor
      · exact map_mapError_eq (himage.trans himage'.symm)
      · exact hfonts.trans hfonts'.symm

variable (α) in
/-- Two generators place and draw a text alike: with the same error, or else with placed diagrams and
images that are the same but for the colours, for which they load the same fonts. -/
structure DrawsAlike (g g' : Generator) (text : String) : Prop where
  layout : (g.layout text : Except Failure (Layout α)).map Layout.colorless =
    (g'.layout text).map Layout.colorless
  image : (g.render (α := α) text).1.map Image.colorless =
    (g'.render (α := α) text).1.map Image.colorless
  fonts : (g.render (α := α) text).2.fonts = (g'.render (α := α) text).2.fonts

/-- Generators that differ in colours lay out a text alike. -/
theorem map_layout_eq (h : g.renderer.config.HasPalettes) (h' : g'.renderer.config.HasPalettes)
    (hcolors : g.renderer.config.colorless = g'.renderer.config.colorless) (text : String) :
    (g.layout text : Except Failure (Layout α)).map Layout.colorless =
      (g'.layout text).map Layout.colorless := by
  cases hparse : Diagram.parse text with
  | error e => rw [layout_of_parse_error hparse, layout_of_parse_error hparse]
  | ok d =>
    rw [layout_of_parse hparse, layout_of_parse hparse]
    refine map_mapError_eq ?_
    rw [d.alike_layout h, d.alike_layout h', hcolors]

/-- Generators whose renderers differ in colours draw alike. -/
theorem DrawsAlike.of_renderer (g g' : Generator) (h : g.renderer.config.HasPalettes)
    (h' : g'.renderer.config.HasPalettes) (hr : g.renderer.colorless = g'.renderer.colorless)
    (hfonts : g.fonts = g'.fonts) (text : String) : DrawsAlike α g g' text := by
  have hlayout := map_layout_eq (α := α) h h' (congrArg (·.config) hr) text
  have hrender := alike_renderWith hr hlayout g.fonts
  refine ⟨hlayout, ?_, ?_⟩
  · rw [render_eq, render_eq, ← hfonts]
    exact hrender.1
  · rw [fonts_render, fonts_render, ← hfonts]
    exact hrender.2

/-- Colours do not move anything. At any scale and with any fonts, two configurations that agree but
for the colours, with palettes of any length that are not empty, place and draw every text alike, and
so do the light and the dark theme. -/
theorem drawsAlike_of_colors (α : Type) [Scalar α] [Trig α] (text : String) (scale : Int)
    (library : FontLibrary) :
    (∀ (config config' : Config) (fonts : FontCache), config.colorless = config'.colorless →
      config.HasPalettes → config'.HasPalettes →
      DrawsAlike α ⟨⟨⟨config, scale⟩, library⟩, fonts⟩ ⟨⟨⟨config', scale⟩, library⟩, fonts⟩ text) ∧
    ∀ light dark, create "light" none scale library = .ok light →
      create "dark" none scale library = .ok dark → DrawsAlike α light dark text := by
  have hcolors : ∀ (config config' : Config) (fonts : FontCache),
      config.colorless = config'.colorless → config.HasPalettes → config'.HasPalettes →
      DrawsAlike α ⟨⟨⟨config, scale⟩, library⟩, fonts⟩ ⟨⟨⟨config', scale⟩, library⟩, fonts⟩ text := by
    intro config config' fonts hsame h h'
    have hr : Renderer.colorless ⟨⟨config, scale⟩, library⟩ =
        Renderer.colorless ⟨⟨config', scale⟩, library⟩ := by
      unfold Renderer.colorless Pen.colorless
      rw [hsame]
    exact .of_renderer ⟨⟨⟨config, scale⟩, library⟩, fonts⟩ ⟨⟨⟨config', scale⟩, library⟩, fonts⟩
      h h' hr rfl text
  refine ⟨hcolors, fun light dark hlight hdark => ?_⟩
  cases hlight
  cases hdark
  exact hcolors _ _ [] (Config.colorless_ofTheme .dark).symm (Config.hasPalettes_ofTheme .light)
    (Config.hasPalettes_ofTheme .dark)

/-- A bar on a dark background, with one colour for all bars of its kind and with the usual ones. -/
theorem drawsAlike_on_dark_background :
    let light : Generator := ⟨⟨⟨Config.light, 2⟩, ⟨none, []⟩⟩, []⟩
    let dark : Generator :=
      ⟨⟨⟨{ Config.dark with ganttColors := [⟨9, 9, 9⟩] }, 2⟩, ⟨none, []⟩⟩, []⟩
    DrawsAlike Float light dark "gantt\nDig : 3d" ∧
      (∃ usual, create "dark" none 2 ⟨none, []⟩ = .ok usual ∧
        DrawsAlike Float light usual "gantt\nDig : 3d") ∧
      ∃ i i', (light.render (α := Float) "gantt\nDig : 3d").1 = .ok i ∧
        (dark.render (α := Float) "gantt\nDig : 3d").1 = .ok i' ∧ i.background ≠ i'.background := by
  intro light dark
  -- Each generator shows its own background behind the same drawing.
  have himage : ∀ g : Generator, g.renderer.config.HasPalettes →
      ∃ i, (g.render (α := Float) "gantt\nDig : 3d").1 = .ok i ∧
        i.background = g.renderer.config.backgroundColor := by
    intro g hg
    have hparse : Diagram.parse "gantt\nDig : 3d" = .ok (.gantt ⟨none, none,
      [⟨"Default", [⟨"Dig", none, .normal, none, some "3d", none⟩]⟩]⟩) := rfl
    rcases GanttChart.exists_layout (α := Float) _ hg.gantt with ⟨l, hl, -⟩
    have hlayout := congrArg (Except.map Layout.gantt) hl
    exact ⟨_, (render_of_layout hparse hlayout).trans rfl, rfl⟩
  have h := drawsAlike_of_colors Float "gantt\nDig : 3d" 2 ⟨none, []⟩
  have hlight : Config.light.HasPalettes := ⟨by decide, by decide⟩
  have hdark : { Config.dark with ganttColors := [⟨9, 9, 9⟩] }.HasPalettes := ⟨by decide, by decide⟩
  rcases himage light hlight with ⟨i, hi, hbackground⟩
  rcases himage dark hdark with ⟨i', hi', hbackground'⟩
  refine ⟨h.1 _ _ [] rfl hlight hdark, ⟨_, rfl, h.2 _ _ rfl rfl⟩, i, i', hi, hi', ?_⟩
  rw [hbackground, hbackground']
  decide

end Generator

end TextDiagram
