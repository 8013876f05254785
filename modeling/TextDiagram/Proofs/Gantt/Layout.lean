import TextDiagram.Gantt.Layout
/-!
# Placed Gantt charts are complete

The only thing that a task can lack is a colour, and a palette that is not empty has one for every
section.

Main statement: `exists_layout`, every task has a bar, in the order of the chart.
-/

namespace TextDiagram

namespace GanttChart

variable {α : Type} [Scalar α] {config : Config}

theorem exists_taskColor (hcolors : config.ganttColors ≠ []) (status : TaskStatus) (index : Nat) :
    ∃ color, taskColor config status index = .ok color := by
  cases status with
  | normal =>
    cases hcolor : Config.paletteColor? config.ganttColors index with
    | none => exact absurd ((Config.paletteColor?_eq_none_iff _ _).1 hcolor) hcolors
    | some color => exact ⟨color, by simp [taskColor, hcolor]⟩
  | _ => exact ⟨_, rfl⟩

theorem exists_placeTasks (hcolors : config.ganttColors ≠ []) (index : Nat) (c : Cursor α)
    (tasks : List GanttTask) :
    ∃ placed stop, placeTasks config index c tasks = .ok (placed, stop) ∧
      placed.map (·.task) = tasks := by
  induction tasks generalizing c with
  | nil => exact ⟨[], c, rfl, rfl⟩
  | cons t more ih =>
    rcases exists_taskColor hcolors t.status index with ⟨color, hcolor⟩
    rcases ih (c.next config) with ⟨others, stop, hothers, htasks⟩
    refine ⟨⟨t, bar config c, ⟨config.padding, (bar config c).center.y⟩, color⟩ :: others, stop,
      ?_, ?_⟩
    · simp only [placeTasks, placeTask, hcolor, hothers, bind, Except.bind, pure, Except.pure]
    · rw [List.map_cons, htasks]

theorem exists_placeSections (hcolors : config.ganttColors ≠ []) (index : Nat) (c : Cursor α)
    (sections : List GanttSection) :
    ∃ column, placeSections config index c sections = .ok column ∧
      column.tasks.map (·.task) = sections.flatMap (·.tasks) := by
  induction sections generalizing index c with
  | nil => exact ⟨⟨[], [], c⟩, rfl, rfl⟩
  | cons s more ih =>
    obtain ⟨placed, below, hplaced, htasks⟩ :=
      exists_placeTasks hcolors index (c.belowHeader config) s.tasks
    rcases ih (index + 1) below with ⟨others, hothers, hmore⟩
    refine ⟨⟨⟨s.name, sectionY config c⟩ :: others.sections, placed ++ others.tasks, others.stop⟩,
      ?_, ?_⟩
    · simp only [placeSections, hplaced, hothers, bind, Except.bind, pure, Except.pure]
    · rw [List.map_append, htasks, hmore, List.flatMap_cons]

variable (α)

/-- The height at which the sections of a chart start, below its title. -/
def sectionsTop (config : Config) (chart : GanttChart) : α :=
  config.padding + (if chart.title.any (!·.isEmpty) then 35 else 0) + 30

/-- Every task has a bar, in the order of the chart. -/
theorem exists_layout (chart : GanttChart) (hcolors : config.ganttColors ≠ []) :
    ∃ l : GanttLayout α, chart.layout config = .ok l ∧ l.tasks.map (·.task) = chart.tasks := by
  obtain ⟨column, hcolumn, htasks⟩ :=
    exists_placeSections hcolors 0 ⟨sectionsTop α config chart, 0⟩ chart.sections
  show ∃ l : GanttLayout α,
    (placeSections config 0 ⟨sectionsTop α config chart, 0⟩ chart.sections >>= _) = .ok l ∧
      l.tasks.map (·.task) = chart.tasks
  rw [hcolumn]
  exact ⟨_, rfl, htasks⟩

end GanttChart

end TextDiagram
