import Mathlib.Algebra.BigOperators.Ring.List
import Mathlib.Algebra.Order.BigOperators.Group.List
import Mathlib.Algebra.Order.Field.Rat
import Mathlib.Tactic.FieldSimp
import Mathlib.Tactic.Linarith
import Mathlib.Tactic.Positivity
import TextDiagram.Diagram
import TextDiagram.Pie.Layout
import TextDiagram.Proofs.Traversal
/-!
# Slices around the turn

Slices are placed one behind the other by an angle that runs along, and each of them takes the part of
the turn that its value is of the total. The total is computed apart, so that the last slice ends where
the first one started has to do with all values at once. The circle functions only place labels; what is
said here holds whichever they are.

Main statements:

* `total_eq_sum`: the total is the sum of the values.
* `exists_placeSlices_endToEnd`: the slices are placed end to end, each in proportion to its value.
* `sum_of_inProportion`: what is in proportion to the values makes up the whole.
* `exists_layout_endToEnd`: the slices of a layout, and the legend and the canvas that go with them.
* `slices_partition_turn`: the slices of a chart share the turn.
-/

namespace TextDiagram

namespace PieChart

/-! ## Slices in proportion -/

theorem amount_nonneg (s : PieSlice) : (0 : Rat) ≤ s.amount := by
  have hpower : (0 : Rat) ≤ (10 : Rat) ^ s.value.exponent := zpow_nonneg (by norm_num) _
  exact mul_nonneg (Nat.cast_nonneg _) hpower

/-- The total is the sum of the values. -/
theorem total_eq_sum (chart : PieChart) :
    (chart.total : Rat) = (chart.slices.map fun s => s.value.toRat).sum := by
  have hfold : ∀ (slices : List PieSlice) (sum : Rat),
      slices.foldl (fun sum s => sum + s.amount) sum =
        sum + (slices.map fun s => s.value.toRat).sum := by
    intro slices
    induction slices with
    | nil => exact fun sum => (add_zero sum).symm
    | cons s more ih =>
      intro sum
      rw [List.foldl_cons, ih, List.map_cons, List.sum_cons, ← add_assoc]
      rfl
  exact (hfold chart.slices 0).trans (zero_add _)

/-- The sweep and the percentage of a slice are its value, in one proportion each. -/
structure InProportion (total : Rat) (s : PositionedSlice Rat) : Prop where
  sweep : s.sweepAngle = 360 / total * s.slice.value.toRat
  percentage : s.percentage = 100 / total * s.slice.value.toRat

/-- Slices that lie end to end from one angle to another, none of them backwards. -/
inductive EndToEnd : Rat → List (PositionedSlice Rat) → Rat → Prop where
  | nil (angle : Rat) : EndToEnd angle [] angle
  | cons {start stop : Rat} {s : PositionedSlice Rat} {more : List (PositionedSlice Rat)}
      (first : s.startAngle = start) (sweep : 0 ≤ s.sweepAngle)
      (rest : EndToEnd (start + s.sweepAngle) more stop) : EndToEnd start (s :: more) stop

namespace EndToEnd

variable {start stop : Rat} {slices : List (PositionedSlice Rat)} (h : EndToEnd start slices stop)

include h

theorem sweep_nonneg : ∀ s ∈ slices, 0 ≤ s.sweepAngle := by
  induction h with
  | nil => exact List.forall_mem_nil _
  | cons _ sweep _ ih => exact List.forall_mem_cons.2 ⟨sweep, ih⟩

theorem head? (hne : slices ≠ []) : slices.head?.map (·.startAngle) = some start := by
  cases h with
  | nil => exact absurd rfl hne
  | cons first _ _ => exact congrArg some first

/-- Each slice starts where the one before it ends. -/
theorem isChain : slices.IsChain fun a b => b.startAngle = a.startAngle + a.sweepAngle := by
  induction h with
  | nil => exact .nil
  | cons first _ rest ih =>
    cases rest with
    | nil => exact .singleton _
    | cons next _ _ =>
      -- The next slice was placed at the angle where this one ends.
      rw [← first] at next
      exact .cons_cons next ih

/-- The last slice ends where the row of slices does. -/
theorem getLast? (hne : slices ≠ []) :
    slices.getLast?.map (fun s => s.startAngle + s.sweepAngle) = some stop := by
  induction h with
  | nil => exact absurd rfl hne
  | cons first _ rest ih =>
    cases rest with
    | nil => exact congrArg (fun angle => some (angle + _)) first
    | cons _ _ _ =>
      rw [List.getLast?_cons_cons]
      exact ih (List.cons_ne_nil _ _)

end EndToEnd

variable {config : Config} {total : Rat}

section

variable [Trig Rat]

/-- A slice is placed at the given angle, with its part of the turn. -/
theorem exists_placeSlice (hcolors : config.pieColors ≠ []) (center : Point Rat) (total : Rat)
    (index : Nat) (angle : Rat) (s : PieSlice) :
    ∃ placed, placeSlice config center total index angle s = .ok placed ∧ placed.slice = s ∧
      placed.startAngle = angle ∧ InProportion total placed := by
  cases hcolor : Config.paletteColor? config.pieColors index with
  | none => exact absurd ((Config.paletteColor?_eq_none_iff _ _).1 hcolor) hcolors
  | some color =>
    rw [placeSlice, hcolor]
    simp only [Scalar.isInfinite_rat, Bool.false_eq_true, if_false]
    refine ⟨_, rfl, rfl, rfl, ?_, ?_⟩
    · exact mul_div_right_comm _ _ _
    · exact mul_div_right_comm _ _ _

/-- Slices are placed end to end from any angle on, each in proportion to its value. -/
theorem exists_placeSlices_endToEnd (hcolors : config.pieColors ≠ []) (center : Point Rat)
    (htotal : 0 < total) (index : Nat) (angle : Rat) (slices : List PieSlice) :
    ∃ placed, placeSlices config center total index angle slices = .ok placed ∧
      placed.map (·.slice) = slices ∧ (∀ s ∈ placed, InProportion total s) ∧
      EndToEnd angle placed (angle + (placed.map (·.sweepAngle)).sum) := by
  -- The angle runs along, so the statement is about every start.
  induction slices generalizing index angle with
  | nil =>
    refine ⟨[], rfl, rfl, List.forall_mem_nil _, ?_⟩
    rw [List.map_nil, List.sum_nil, add_zero]
    exact .nil angle
  | cons s more ih =>
    obtain ⟨placed, hplaced, hslice, hstart, hpart⟩ :=
      exists_placeSlice hcolors center total index angle s
    obtain ⟨others, hothers, hslices, hparts, hrest⟩ := ih (index + 1) (angle + placed.sweepAngle)
    refine ⟨placed :: others, ?_, ?_, List.forall_mem_cons.2 ⟨hpart, hparts⟩, ?_⟩
    · rw [placeSlices, hplaced]
      show (placeSlices config center total (index + 1) (angle + placed.sweepAngle) more >>= _) = _
      rw [hothers]
      rfl
    · rw [List.map_cons, hslice, hslices]
    · have hsweep : 0 ≤ placed.sweepAngle := by
        rw [hpart.sweep, hslice]
        exact mul_nonneg (by positivity) (amount_nonneg s)
      rw [List.map_cons, List.sum_cons, ← add_assoc]
      exact .cons hstart hsweep hrest

end

/-- What is in proportion to the values makes up the whole. -/
theorem sum_of_inProportion {placed : List (PositionedSlice Rat)} {part : PositionedSlice Rat → Rat}
    {whole : Rat} (htotal : 0 < total)
    (hsum : (placed.map fun s => s.slice.value.toRat).sum = total)
    (hpart : ∀ s ∈ placed, part s = whole / total * s.slice.value.toRat) :
    (placed.map part).sum = whole := by
  rw [List.map_congr_left hpart, List.sum_map_mul_left, hsum]
  exact div_mul_cancel₀ whole htotal.ne'

/-! ## The layout of a chart -/

section

variable {α : Type} [Scalar α]

/-- The height of the band above a pie that its title takes. -/
def titleHeight (chart : PieChart) : α := if chart.title.any (!·.isEmpty) then 30 else 0

/-- The centre of a pie. -/
def pieCenter (config : Config) (chart : PieChart) : Point α :=
  ⟨config.padding + reach config, config.padding + titleHeight chart + reach config⟩

/-- The left side of the legend. -/
def legendX (config : Config) (chart : PieChart) : α :=
  (pieCenter config chart).x + config.pieRadius + 40

/-- The top of the legend of a chart with a number of slices. -/
def legendY (config : Config) (chart : PieChart) (count : Nat) : α :=
  (pieCenter config chart).y - (count : α) * 12

/-- A chart with something to show has a legend entry for each of its slices, on a canvas around the
pie. -/
theorem exists_layout_of_placeSlices [Trig α] {config : Config} {chart : PieChart}
    {placed : List (PositionedSlice α)} (hne : chart.slices ≠ []) (htotal : ¬(chart.total : α) ≤ 0)
    (h : placeSlices config (pieCenter config chart) chart.total 0 (-90) chart.slices = .ok placed) :
    ∃ l : PieLayout α, chart.layout config = .ok l ∧ l.slices = placed ∧
      l.legend =
        placed.mapIdx (legendEntry (legendX config chart) (legendY config chart placed.length)) ∧
      l.size = ⟨Scalar.max ((pieCenter config chart).x + reach config)
          (legendX config chart + 180) + (config.padding : α),
        (pieCenter config chart).y + reach config + (config.padding : α)⟩ := by
  have hshown : ¬(chart.slices.isEmpty = true ∨ (chart.total : α) ≤ 0) := by
    rw [List.isEmpty_iff, not_or]
    exact ⟨hne, htotal⟩
  have hlayout : (chart.layout config : Except LayoutError (PieLayout α)) =
      placeSlices config (pieCenter config chart : Point α) chart.total 0 (-90) chart.slices >>=
        _ :=
    if_neg hshown
  rw [hlayout, h]
  exact ⟨_, rfl, rfl, rfl, rfl⟩

end

/-- The layout of a chart whose values have a positive sum. -/
theorem exists_layout_endToEnd [Trig Rat] (hcolors : config.pieColors ≠ []) {chart : PieChart}
    (htotal : 0 < (chart.slices.map fun s => s.value.toRat).sum) :
    ∃ l : PieLayout Rat, chart.layout config = .ok l ∧
      l.slices.map (·.slice) = chart.slices ∧ l.slices ≠ [] ∧
      (∀ s ∈ l.slices, InProportion chart.total s) ∧
      EndToEnd (-90) l.slices (-90 + (l.slices.map (·.sweepAngle)).sum) ∧
      l.legend = l.slices.mapIdx
        (legendEntry (legendX config chart) (legendY config chart l.slices.length)) ∧
      l.size = ⟨Scalar.max ((pieCenter config chart).x + reach config)
          (legendX config chart + 180) + (config.padding : Rat),
        (pieCenter config chart).y + reach config + (config.padding : Rat)⟩ := by
  have hne : chart.slices ≠ [] := by
    intro hnil
    rw [hnil] at htotal
    exact absurd htotal (lt_irrefl 0)
  rw [← total_eq_sum] at htotal
  obtain ⟨placed, hplaced, hslices, hparts, hends⟩ :=
    exists_placeSlices_endToEnd hcolors (pieCenter config chart) htotal 0 (-90) chart.slices
  obtain ⟨l, hl, rfl, hlegend, hsize⟩ := exists_layout_of_placeSlices hne (not_le.2 htotal) hplaced
  refine ⟨l, hl, hslices, ?_, hparts, hends, hlegend, hsize⟩
  intro hnil
  rw [hnil] at hslices
  exact hne hslices.symm

/-- Slices whose values have a positive sum share the turn from twelve o'clock to twelve o'clock: they are
placed end to end in the order of the chart, none of them backwards, and each takes a part of the turn and
of a hundred in proportion to its value. The legend repeats them entry by entry. -/
theorem slices_partition_turn [Trig Rat] (hcolors : config.pieColors ≠ []) {chart : PieChart}
    (htotal : 0 < (chart.slices.map fun s => s.value.toRat).sum) :
    ∃ l : PieLayout Rat, chart.layout config = .ok l ∧
      l.slices.map (·.slice) = chart.slices ∧
      l.slices.head?.map (·.startAngle) = some (-90) ∧
      (l.slices.IsChain fun a b => b.startAngle = a.startAngle + a.sweepAngle) ∧
      (∀ s ∈ l.slices, 0 ≤ s.sweepAngle) ∧
      l.slices.getLast?.map (fun s => s.startAngle + s.sweepAngle) = some 270 ∧
      (l.slices.map (·.sweepAngle)).sum = 360 ∧
      (l.slices.map (·.percentage)).sum = 100 ∧
      (∃ perTurn perCent : Rat, ∀ s ∈ l.slices, s.sweepAngle = perTurn * s.slice.value.toRat ∧
        s.percentage = perCent * s.slice.value.toRat) ∧
      l.legend.map (fun e => (e.slice.label, e.slice.value, e.percentage, e.color)) =
        l.slices.map fun s => (s.slice.label, s.slice.value, s.percentage, s.color) := by
  obtain ⟨l, hl, hslices, hne, hparts, hends, hlegend, -⟩ := exists_layout_endToEnd hcolors htotal
  rw [← total_eq_sum] at htotal
  -- The total was computed from the parsed slices, the parts stand beside the placed ones.
  have hsum : (l.slices.map fun s => s.slice.value.toRat).sum = chart.total := by
    rw [total_eq_sum, ← hslices, List.map_map]
    rfl
  have hsweeps : (l.slices.map (·.sweepAngle)).sum = 360 :=
    sum_of_inProportion htotal hsum fun s hs => (hparts s hs).sweep
  have hpercentages : (l.slices.map (·.percentage)).sum = 100 :=
    sum_of_inProportion htotal hsum fun s hs => (hparts s hs).percentage
  have hturn : (-90 : Rat) + 360 = 270 := by norm_num
  rw [hsweeps, hturn] at hends
  refine ⟨l, hl, hslices, hends.head? hne, hends.isChain, hends.sweep_nonneg, hends.getLast? hne,
    hsweeps, hpercentages, ⟨360 / chart.total, 100 / chart.total, ?_⟩, ?_⟩
  · intro s hs
    exact ⟨(hparts s hs).sweep, (hparts s hs).percentage⟩
  · rw [hlegend]
    refine map_mapIdx_eq_map ?_ l.slices
    intro index s
    rfl

/-- A slice without a value between two slices with one label. -/
theorem slices_partition_turn_repeated_label :
    ∃ chart : PieChart,
      Diagram.parse "pie\n\"a\" : 1\n\"b\" : 0\n\"a\" : 2.5" = .ok (.pie chart) ∧
      Config.light.pieColors ≠ [] ∧ 0 < (chart.slices.map fun s => s.value.toRat).sum ∧
      ∀ [Trig Rat], ∃ l : PieLayout Rat, chart.layout Config.light = .ok l ∧
        l.slices.map (·.slice) = [⟨"a", ⟨1, 0⟩⟩, ⟨"b", ⟨0, 0⟩⟩, ⟨"a", ⟨25, -1⟩⟩] ∧
        l.slices.head?.map (·.startAngle) = some (-90) ∧
        l.slices.getLast?.map (fun s => s.startAngle + s.sweepAngle) = some 270 ∧
        (l.slices.map (·.sweepAngle)).sum = 360 ∧ (l.slices.map (·.percentage)).sum = 100 ∧
        l.legend.map (fun e => (e.slice.label, e.slice.value, e.percentage, e.color)) =
          l.slices.map fun s => (s.slice.label, s.slice.value, s.percentage, s.color) := by
  have hparse : Diagram.parse "pie\n\"a\" : 1\n\"b\" : 0\n\"a\" : 2.5" =
      .ok (.pie ⟨none, [⟨"a", ⟨1, 0⟩⟩, ⟨"b", ⟨0, 0⟩⟩, ⟨"a", ⟨25, -1⟩⟩], false⟩) := rfl
  have hcolors : Config.light.pieColors ≠ [] := by decide
  have htotal : 0 < ((⟨none, [⟨"a", ⟨1, 0⟩⟩, ⟨"b", ⟨0, 0⟩⟩, ⟨"a", ⟨25, -1⟩⟩], false⟩ :
      PieChart).slices.map fun s => s.value.toRat).sum := by decide +kernel
  refine ⟨_, hparse, hcolors, htotal, fun {_} => ?_⟩
  obtain ⟨l, hl, hslices, hfirst, -, -, hlast, hsweeps, hpercentages, -, hlegend⟩ :=
    slices_partition_turn hcolors htotal
  exact ⟨l, hl, hslices, hfirst, hlast, hsweeps, hpercentages, hlegend⟩

end PieChart

end TextDiagram
