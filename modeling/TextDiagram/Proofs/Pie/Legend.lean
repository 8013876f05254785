import TextDiagram.Proofs.Geometry.Canvas
import TextDiagram.Proofs.Pie.Turn
/-!
# The legend beside the pie

The legend of a pie is a column of swatches, one for each slice, with the middle of the column at the
height of the centre of the pie. The canvas is made as wide as the legend asks for, but only as high as
the pie does. A legend with too many entries for that reaches beyond the canvas: above it or, where there
is a title, below it first.

Main statements:

* `legend_pairwise`: swatches stand below one another with the height of a swatch between them.
* `legend_within_iff`: a column of swatches lies between two heights when its ends do.
* `exists_layout_legend`: how many entries a canvas has room for.
* `legend_on_canvas_iff`: with the sizes of the themes, fifteen, and sixteen below a title.
-/

namespace TextDiagram

/-- There are colours for slices, and no size of a pie is negative. -/
structure Config.RoomForPies (config : Config) : Prop where
  colors : config.pieColors ≠ []
  padding : 0 ≤ config.padding
  radius : 0 ≤ config.pieRadius
  labelOffset : 0 ≤ config.pieLabelOffset

namespace PieChart

variable {config : Config} {chart : PieChart}

/-! ## The column of swatches -/

section

variable (x y : Rat) (slices : List (PositionedSlice Rat))

/-- From the lower side of a swatch to the upper side of any later one there is room for another
swatch. -/
theorem legend_pairwise :
    (slices.mapIdx (legendEntry x y)).Pairwise fun a b => a.swatch.bottom + 12 ≤ b.swatch.top := by
  refine pairwise_mapIdx (fun i j _ _ hlt => ?_) slices
  have hnext : ((i : Rat) + 1) * 24 ≤ (j : Rat) * 24 :=
    mul_le_mul_of_nonneg_right (by exact_mod_cast hlt) (by norm_num)
  show y + (i : Rat) * 24 + 12 + 12 ≤ y + (j : Rat) * 24
  linarith

variable {slices} in
/-- The first swatch has its upper left corner at the place of the legend. -/
theorem head?_legend (hne : slices ≠ []) :
    (slices.mapIdx (legendEntry x y)).head?.map (·.swatch) = some (Rect.ofSize x y ⟨12, 12⟩) := by
  obtain ⟨s, more, rfl⟩ := List.exists_cons_of_ne_nil hne
  have htop : y + ((0 : Nat) : Rat) * 24 = y := by rw [Nat.cast_zero, zero_mul, add_zero]
  rw [List.mapIdx_cons, List.head?_cons, Option.map_some]
  exact congrArg (fun top => some (Rect.ofSize x top ⟨12, 12⟩)) htop

/-- A legend stands in a column as wide as a swatch. -/
theorem sides_of_mem_legend {e : LegendEntry Rat} (he : e ∈ slices.mapIdx (legendEntry x y)) :
    e.swatch.left = x ∧ e.swatch.right = x + 12 := by
  obtain ⟨index, hindex, rfl⟩ := List.mem_mapIdx.1 he
  exact ⟨rfl, rfl⟩

variable {slices} in
/-- A legend lies between two heights if its first swatch does not start above the upper one and its
last swatch does not end below the lower one. -/
theorem legend_within_iff (hne : slices ≠ []) (top bottom : Rat) :
    (∀ e ∈ slices.mapIdx (legendEntry x y), top ≤ e.swatch.top ∧ e.swatch.bottom ≤ bottom) ↔
      top ≤ y ∧ y + (slices.length : Rat) * 24 ≤ bottom + 12 := by
  have hpos : 0 < slices.length := List.length_pos_iff.2 hne
  have hentry : ∀ index (hindex : index < slices.length),
      legendEntry x y index slices[index] ∈ slices.mapIdx (legendEntry x y) := by
    intro index hindex
    exact List.mem_mapIdx.2 ⟨index, hindex, rfl⟩
  constructor
  · intro h
    have hfirst : top ≤ y + ((0 : Nat) : Rat) * 24 := (h _ (hentry 0 hpos)).1
    have hlast : y + ((slices.length - 1 : Nat) : Rat) * 24 + 12 ≤ bottom :=
      (h _ (hentry (slices.length - 1) (Nat.sub_lt hpos one_pos))).2
    rw [Nat.cast_zero] at hfirst
    -- The last of some swatches is one step less down than there are swatches.
    rw [Nat.cast_sub hpos, Nat.cast_one] at hlast
    constructor <;> linarith
  · rintro ⟨htop, hbottom⟩ e he
    obtain ⟨index, hindex, rfl⟩ := List.mem_mapIdx.1 he
    have hstart : (0 : Rat) ≤ (index : Rat) * 24 := by positivity
    have hend : ((index : Rat) + 1) * 24 ≤ (slices.length : Rat) * 24 :=
      mul_le_mul_of_nonneg_right (by exact_mod_cast hindex) (by norm_num)
    show top ≤ y + (index : Rat) * 24 ∧ y + (index : Rat) * 24 + 12 ≤ bottom
    constructor <;> linarith

end

/-! ## The canvas -/

theorem legendX_nonneg (hroom : config.RoomForPies) : (0 : Rat) ≤ legendX config chart := by
  have hpadding : (0 : Rat) ≤ config.padding := Rat.intCast_nonneg.2 hroom.padding
  have hradius : (0 : Rat) ≤ config.pieRadius := Rat.intCast_nonneg.2 hroom.radius
  have hoffset : (0 : Rat) ≤ config.pieLabelOffset := Rat.intCast_nonneg.2 hroom.labelOffset
  simp only [legendX, pieCenter, reach]
  positivity

/-- A legend of some entries is not higher than the canvas of a pie, above and below the centre. -/
theorem legendY_within_iff (count : Nat) :
    ((0 : Rat) ≤ legendY config chart count ∧ legendY config chart count + (count : Rat) * 24 ≤
        (pieCenter config chart).y + reach config + config.padding + 12) ↔
      (count : Rat) * 12 ≤ config.padding + titleHeight chart + reach config ∧
        (count : Rat) * 12 ≤ config.padding + reach config + 12 := by
  simp only [legendY, pieCenter]
  constructor
  · rintro ⟨htop, hbottom⟩
    constructor <;> linarith
  · rintro ⟨habove, hbelow⟩
    constructor <;> linarith

/-- A legend has an entry for each slice. Its swatches do not overlap, and a canvas has room for them from
side to side; from top to bottom it does as long as half the legend is not higher than the part of the
canvas above the centre of the pie and, but for a gap, than the part below. -/
theorem exists_layout_legend [Trig Rat] (hroom : config.RoomForPies)
    (htotal : 0 < (chart.slices.map fun s => s.value.toRat).sum) :
    ∃ l : PieLayout Rat, chart.layout config = .ok l ∧
      l.legend.length = chart.slices.length ∧
      l.legend.head?.map (·.swatch) = some (Rect.ofSize (legendX config chart)
        (legendY config chart chart.slices.length) ⟨12, 12⟩) ∧
      (l.legend.Pairwise fun a b => a.swatch.bottom + 12 ≤ b.swatch.top) ∧
      (∀ e ∈ l.legend, 0 ≤ e.swatch.left ∧ e.swatch.right ≤ l.size.width) ∧
      ((∀ e ∈ l.legend, (l.size.inner 0).Contains e.swatch) ↔
        (chart.slices.length : Rat) * 12 ≤ config.padding + titleHeight chart + reach config ∧
          (chart.slices.length : Rat) * 12 ≤ config.padding + reach config + 12) := by
  obtain ⟨l, hl, hslices, hne, -, -, hlegend, hsize⟩ := exists_layout_endToEnd hroom.colors htotal
  have hlength : l.slices.length = chart.slices.length := by
    rw [← hslices, List.length_map]
  have hsides : ∀ e ∈ l.legend, 0 ≤ e.swatch.left ∧ e.swatch.right ≤ l.size.width := by
    intro e he
    rw [hlegend] at he
    obtain ⟨hleft, hright⟩ := sides_of_mem_legend _ _ _ he
    have hpadding : (0 : Rat) ≤ config.padding := Rat.intCast_nonneg.2 hroom.padding
    -- The legend is given a width of 180, of which a swatch takes 12.
    have hwidth : legendX config chart + 180 + (config.padding : Rat) ≤ l.size.width := by
      rw [hsize]
      exact add_le_add_left (Scalar.max_le_iff.1 le_rfl).2 _
    rw [hleft, hright]
    exact ⟨legendX_nonneg hroom, by linarith⟩
  refine ⟨l, hl, ?_, ?_, ?_, hsides, ?_⟩
  · rw [hlegend, List.length_mapIdx, hlength]
  · rw [hlegend, ← hlength]
    exact head?_legend _ _ hne
  · rw [hlegend]
    exact legend_pairwise _ _ _
  · -- From side to side there is always room, so only heights are left.
    have hcontains : ∀ e ∈ l.legend, (l.size.inner 0).Contains e.swatch ↔
        0 ≤ e.swatch.top ∧ e.swatch.bottom ≤ l.size.height := by
      intro e he
      obtain ⟨hleft, hright⟩ := hsides e he
      simp only [Rect.contains_iff, Size.inner, sub_zero]
      exact ⟨fun h => ⟨h.2.1, h.2.2.2⟩, fun h => ⟨hleft, h.1, hright, h.2⟩⟩
    have hheight : l.size.height = (pieCenter config chart).y + reach config + config.padding := by
      rw [hsize]
    have hvertical := legend_within_iff (legendX config chart) (legendY config chart l.slices.length)
      hne 0 l.size.height
    rw [← hlegend, hlength, hheight] at hvertical
    rw [forall₂_congr hcontains, hheight, hvertical, legendY_within_iff]

theorem roomForPies_light : Config.light.RoomForPies := by
  constructor <;> decide

/-- The legend of a chart has an entry for each slice, in a column in which no two swatches overlap and
which is on the canvas from side to side. With the sizes of the themes all of its swatches are on the
canvas if and only if it has no more than fifteen entries, or sixteen below a title. -/
theorem legend_on_canvas_iff [Trig Rat]
    (htotal : 0 < (chart.slices.map fun s => s.value.toRat).sum) :
    ∃ l : PieLayout Rat, chart.layout Config.light = .ok l ∧
      l.legend.length = chart.slices.length ∧
      (l.legend.Pairwise fun a b => a.swatch.bottom + 12 ≤ b.swatch.top) ∧
      (∀ e ∈ l.legend, 0 ≤ e.swatch.left ∧ e.swatch.right ≤ l.size.width) ∧
      ((∀ e ∈ l.legend, (l.size.inner 0).Contains e.swatch) ↔
        chart.slices.length ≤ if chart.title.any (!·.isEmpty) then 16 else 15) := by
  obtain ⟨l, hl, hlength, -, hpairwise, hsides, hcontains⟩ :=
    exists_layout_legend roomForPies_light htotal
  refine ⟨l, hl, hlength, hpairwise, hsides, hcontains.trans ?_⟩
  have hpadding : (Config.light.padding : Rat) = 40 := rfl
  have hreach : (reach Config.light : Rat) = 150 := by decide +kernel
  rw [hpadding, hreach, titleHeight]
  split
  · norm_cast
    omega
  · norm_cast
    omega

/-- A legend of three entries is on the canvas. -/
theorem legend_on_canvas_iff_three :
    ∃ chart : PieChart, Diagram.parse "pie\n\"a\" : 1\n\"b\" : 0\n\"a\" : 2.5" = .ok (.pie chart) ∧
      0 < (chart.slices.map fun s => s.value.toRat).sum ∧
      ∀ [Trig Rat], ∃ l : PieLayout Rat, chart.layout Config.light = .ok l ∧ l.legend.length = 3 ∧
        (l.legend.Pairwise fun a b => a.swatch.bottom + 12 ≤ b.swatch.top) ∧
        ∀ e ∈ l.legend, (l.size.inner 0).Contains e.swatch := by
  have hparse : Diagram.parse "pie\n\"a\" : 1\n\"b\" : 0\n\"a\" : 2.5" =
      .ok (.pie ⟨none, [⟨"a", ⟨1, 0⟩⟩, ⟨"b", ⟨0, 0⟩⟩, ⟨"a", ⟨25, -1⟩⟩], false⟩) := rfl
  have htotal : 0 < ((⟨none, [⟨"a", ⟨1, 0⟩⟩, ⟨"b", ⟨0, 0⟩⟩, ⟨"a", ⟨25, -1⟩⟩], false⟩ :
      PieChart).slices.map fun s => s.value.toRat).sum := by decide +kernel
  refine ⟨_, hparse, htotal, fun {_} => ?_⟩
  obtain ⟨l, hl, hlength, hpairwise, -, hcontains⟩ := legend_on_canvas_iff htotal
  exact ⟨l, hl, hlength, hpairwise, hcontains.2 (by decide)⟩

/-- Without a title the first of sixteen swatches starts two units above the canvas. -/
theorem legend_of_sixteen_above_canvas :
    ∃ chart : PieChart,
      Diagram.parse ("pie\n\"a\":1\n\"a\":1\n\"a\":1\n\"a\":1\n\"a\":1\n\"a\":1\n\"a\":1\n\"a\":1" ++
        "\n\"a\":1\n\"a\":1\n\"a\":1\n\"a\":1\n\"a\":1\n\"a\":1\n\"a\":1\n\"a\":1") = .ok (.pie chart) ∧
      0 < (chart.slices.map fun s => s.value.toRat).sum ∧
      ∀ [Trig Rat], ∃ l : PieLayout Rat, chart.layout Config.light = .ok l ∧
        l.legend.head?.map (·.swatch) = some ⟨350, -2, 362, 10⟩ ∧
        ¬∀ e ∈ l.legend, (l.size.inner 0).Contains e.swatch := by
  have hparse : Diagram.parse ("pie\n\"a\":1\n\"a\":1\n\"a\":1\n\"a\":1\n\"a\":1\n\"a\":1\n\"a\":1\n\"a\":1" ++
      "\n\"a\":1\n\"a\":1\n\"a\":1\n\"a\":1\n\"a\":1\n\"a\":1\n\"a\":1\n\"a\":1") =
        .ok (.pie ⟨none, List.replicate 16 ⟨"a", ⟨1, 0⟩⟩, false⟩) := rfl
  have htotal : 0 < ((⟨none, List.replicate 16 ⟨"a", ⟨1, 0⟩⟩, false⟩ :
      PieChart).slices.map fun s => s.value.toRat).sum := by decide +kernel
  refine ⟨_, hparse, htotal, fun {_} => ?_⟩
  obtain ⟨l, hl, -, hfirst, -, -, hcontains⟩ := exists_layout_legend roomForPies_light htotal
  refine ⟨l, hl, hfirst.trans (by decide +kernel), fun hall => ?_⟩
  exact absurd (hcontains.1 hall).1 (by decide +kernel)

end PieChart

end TextDiagram
