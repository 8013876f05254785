import Mathlib.Data.List.Chain
import Mathlib.Tactic.Linarith
import Mathlib.Tactic.Ring
import TextDiagram.Diagram
import TextDiagram.Proofs.Gantt.Layout
import TextDiagram.Proofs.Geometry.Canvas
/-!
# Gantt charts fit their canvas

One cursor runs down through all sections and all tasks. Every step leaves room behind it, so what is
placed later lies below what is placed earlier, whichever sections are empty. From side to side a bar
has its place from its number among all tasks, and the grid from how many there are: it has five days
for each task, of which a bar that starts three days after the one before it never needs more.

Main statements:

* `BarsDown.pairwise`, `GroupsDown.pairwise_bars`: bars stand below one another.
* `GroupsDown.pairwise`: headers stand below the bars of earlier sections.
* `IsPassed.within_days`: bars end where the grid ends at the latest.
* `isChain_gridLines`, `getLast?_gridLines`: grid lines every five days up to the last day.
* `bars_arranged`: bars, headers, grid lines and canvas of any chart.
-/

namespace TextDiagram

/-- There are colours for tasks, and no size of a Gantt chart is negative. -/
structure Config.RoomForGantt (config : Config) : Prop where
  colors : config.ganttColors ≠ []
  padding : 0 ≤ config.padding
  barHeight : 0 ≤ config.ganttBarHeight
  barSpacing : 0 ≤ config.ganttBarSpacing
  sectionSpacing : 0 ≤ config.ganttSectionSpacing
  labelWidth : 0 ≤ config.ganttLabelWidth
  dayWidth : 0 ≤ config.ganttDayWidth

/-- A section header with the tasks of its section. -/
structure GanttGroup where
  header : PositionedSection Rat
  tasks : List (PositionedTask Rat)

/-- The section that a group shows. -/
def GanttGroup.content (g : GanttGroup) : GanttSection := ⟨g.header.name, g.tasks.map (·.task)⟩

/-- The headers and bars of a chart from top to bottom: there is a bar for each task in the order of the
chart, each below the one before it, and a header above the bars of its section and below those of the
sections before. -/
structure GanttLayout.Descends (config : Config) (chart : GanttChart) (l : GanttLayout Rat)
    (groups : List GanttGroup) : Prop where
  content : groups.map (·.content) = chart.sections
  headers : groups.map (·.header) = l.sections
  tasks : groups.flatMap (·.tasks) = l.tasks
  sizes : ∀ t ∈ l.tasks, t.bar.width = 5 * (config.ganttDayWidth : Rat) ∧
    t.bar.height = config.ganttBarHeight
  bars : l.tasks.Pairwise fun a b => a.bar.bottom + (config.ganttBarSpacing : Rat) ≤ b.bar.top
  own : ∀ g ∈ groups, ∀ t ∈ g.tasks, g.header.y + (config.ganttSectionSpacing : Rat) ≤ t.bar.top
  earlier : groups.Pairwise fun a b => ∀ t ∈ a.tasks,
    t.bar.bottom + (config.ganttBarSpacing + config.ganttSectionSpacing : Rat) ≤ b.header.y
  between : ∀ t ∈ l.tasks, l.chartTop ≤ t.bar.top ∧ t.bar.bottom ≤ l.chartBottom

/-- The grid lines of a chart with some tasks: one at every fifth day, from the first day to the last one,
with all bars between the two. -/
structure GanttLayout.Ruled (config : Config) (count : Nat) (l : GanttLayout Rat) : Prop where
  first : l.gridLines.head?.map (·.x) = some (config.ganttLabelWidth : Rat)
  steps : l.gridLines.IsChain fun a b => b.x = a.x + 5 * (config.ganttDayWidth : Rat)
  last : l.gridLines.getLast?.map (·.x) =
    some (config.ganttLabelWidth + ((max (5 * count) 20 : Nat) : Rat) * config.ganttDayWidth)
  bars : ∀ t ∈ l.tasks, (config.ganttLabelWidth : Rat) ≤ t.bar.left ∧
    t.bar.right ≤ config.ganttLabelWidth + ((max (5 * count) 20 : Nat) : Rat) * config.ganttDayWidth

/-- Nothing that is drawn reaches beyond the canvas; headers start where the padding ends. -/
structure GanttLayout.OnCanvas (config : Config) (l : GanttLayout Rat) : Prop where
  bars : ∀ t ∈ l.tasks, (l.size.inner 0).Contains t.bar
  headers : ∀ s ∈ l.sections, (l.size.inner 0).Covers ⟨config.padding, s.y⟩
  gridLines : ∀ g ∈ l.gridLines, (l.size.inner 0).Covers ⟨g.x, l.chartTop⟩ ∧
    (l.size.inner 0).Covers ⟨g.x, l.chartBottom⟩

namespace GanttChart

/-! ## The cursor -/

/-- A cursor is not below another one and has passed no more tasks. -/
structure Cursor.Precedes (a b : Cursor Rat) : Prop where
  y : a.y ≤ b.y
  index : a.index ≤ b.index

namespace Cursor.Precedes

variable {a b c : Cursor Rat}

theorem refl (a : Cursor Rat) : a.Precedes a := ⟨le_rfl, le_rfl⟩

theorem trans (hab : a.Precedes b) (hbc : b.Precedes c) : a.Precedes c :=
  ⟨hab.y.trans hbc.y, hab.index.trans hbc.index⟩

end Cursor.Precedes

section

variable {config : Config} (hroom : config.RoomForGantt)

include hroom

/-- A bar and the spacing below it take the cursor down, and past one more task. -/
theorem Cursor.precedes_next (c : Cursor Rat) : c.Precedes (c.next config) := by
  have hheight : (0 : Rat) ≤ config.ganttBarHeight := Rat.intCast_nonneg.2 hroom.barHeight
  have hspacing : (0 : Rat) ≤ config.ganttBarSpacing := Rat.intCast_nonneg.2 hroom.barSpacing
  exact ⟨le_add_of_nonneg_right (add_nonneg hheight hspacing), Nat.le_succ _⟩

/-- A header takes the cursor down and past no task. -/
theorem Cursor.precedes_belowHeader (c : Cursor Rat) : c.Precedes (c.belowHeader config) := by
  have hspacing : (0 : Rat) ≤ config.ganttSectionSpacing :=
    Rat.intCast_nonneg.2 hroom.sectionSpacing
  refine ⟨?_, le_rfl⟩
  simp only [Cursor.belowHeader, sectionY]
  linarith

end

/-- The bar of a task stands at a cursor on the way from one cursor to another. -/
def IsPassed (config : Config) (start stop : Cursor Rat) (t : PositionedTask Rat) : Prop :=
  ∃ place, start.Precedes place ∧ (place.next config).Precedes stop ∧ t.bar = bar config place

section

variable {config : Config} {start stop : Cursor Rat} {t : PositionedTask Rat}

/-- What is passed on a way is passed on every way that has this one as its part. -/
theorem IsPassed.mono {before after : Cursor Rat} (h : IsPassed config start stop t)
    (hstart : before.Precedes start) (hstop : stop.Precedes after) :
    IsPassed config before after t := by
  obtain ⟨place, hplace, hnext, hbar⟩ := h
  exact ⟨place, hstart.trans hplace, hnext.trans hstop, hbar⟩

/-- No bar that is passed stands above the start of the way. -/
theorem IsPassed.start_le_top (h : IsPassed config start stop t) : start.y ≤ t.bar.top := by
  obtain ⟨place, hplace, -, hbar⟩ := h
  rw [hbar]
  exact hplace.y

/-- Below a bar that is passed the spacing is free up to the end of the way. -/
theorem IsPassed.bottom_add_le_stop (h : IsPassed config start stop t) :
    t.bar.bottom + (config.ganttBarSpacing : Rat) ≤ stop.y := by
  obtain ⟨place, -, hnext, hbar⟩ := h
  rw [hbar]
  have hy := hnext.y
  simp only [Cursor.next] at hy
  simp only [bar, Rect.ofSize]
  linarith

/-- A bar that is passed is five days wide and as high as the configuration says. -/
theorem IsPassed.size_bar (h : IsPassed config start stop t) :
    t.bar.width = 5 * (config.ganttDayWidth : Rat) ∧ t.bar.height = config.ganttBarHeight := by
  obtain ⟨place, -, -, hbar⟩ := h
  rw [hbar]
  exact ⟨add_sub_cancel_left _ _, add_sub_cancel_left _ _⟩

end

/-! ## Down through the chart -/

/-- Tasks that a cursor passes one after the other. -/
inductive BarsDown (config : Config) :
    Cursor Rat → List (PositionedTask Rat) → Cursor Rat → Prop where
  | nil (c : Cursor Rat) : BarsDown config c [] c
  | cons {c stop : Cursor Rat} {t : PositionedTask Rat} {more : List (PositionedTask Rat)}
      (first : t.bar = bar config c) (rest : BarsDown config (c.next config) more stop) :
      BarsDown config c (t :: more) stop

/-- Sections that a cursor passes one after the other, each with its header before its tasks. -/
inductive GroupsDown (config : Config) : Cursor Rat → List GanttGroup → Cursor Rat → Prop where
  | nil (c : Cursor Rat) : GroupsDown config c [] c
  | cons {c below stop : Cursor Rat} {g : GanttGroup} {more : List GanttGroup}
      (header : g.header.y = sectionY config c)
      (tasks : BarsDown config (c.belowHeader config) g.tasks below)
      (rest : GroupsDown config below more stop) : GroupsDown config c (g :: more) stop

section

variable {config : Config} {start stop : Cursor Rat} {placed : List (PositionedTask Rat)}
  {groups : List GanttGroup}

/-- The cursor counts the tasks it passes. -/
theorem BarsDown.index_stop (h : BarsDown config start placed stop) :
    stop.index = start.index + placed.length := by
  induction h with
  | nil c => rfl
  | cons first rest ih =>
    rw [ih, List.length_cons]
    simp only [Cursor.next]
    omega

/-- The cursor counts the tasks of all sections it passes. -/
theorem GroupsDown.index_stop (h : GroupsDown config start groups stop) :
    stop.index = start.index + (groups.flatMap (·.tasks)).length := by
  induction h with
  | nil c => rfl
  | cons header tasks rest ih =>
    rw [ih, tasks.index_stop, List.flatMap_cons, List.length_append]
    simp only [Cursor.belowHeader]
    omega

variable (hroom : config.RoomForGantt)

include hroom

/-- Passing tasks never takes the cursor up. -/
theorem BarsDown.precedes (h : BarsDown config start placed stop) : start.Precedes stop := by
  induction h with
  | nil c => exact .refl c
  | cons first rest ih => exact (Cursor.precedes_next hroom _).trans ih

/-- Each of the tasks stands somewhere on the way of the cursor. -/
theorem BarsDown.isPassed (h : BarsDown config start placed stop) :
    ∀ t ∈ placed, IsPassed config start stop t := by
  induction h with
  | nil c => exact List.forall_mem_nil _
  | @cons c stop t more first rest ih =>
    -- The first bar stands at the start itself, later ones on the way that is left.
    refine List.forall_mem_cons.2 ⟨⟨c, .refl c, rest.precedes hroom, first⟩, ?_⟩
    intro u hu
    exact (ih u hu).mono (Cursor.precedes_next hroom c) (.refl stop)

/-- Below every bar the spacing is free up to any later one. -/
theorem BarsDown.pairwise (h : BarsDown config start placed stop) :
    placed.Pairwise fun a b => a.bar.bottom + (config.ganttBarSpacing : Rat) ≤ b.bar.top := by
  induction h with
  | nil c => exact .nil
  | @cons c stop t more first rest ih =>
    refine List.pairwise_cons.2 ⟨?_, ih⟩
    intro u hu
    have hend : t.bar.bottom + (config.ganttBarSpacing : Rat) ≤ (c.next config).y :=
      IsPassed.bottom_add_le_stop ⟨c, .refl c, .refl _, first⟩
    exact hend.trans (rest.isPassed hroom u hu).start_le_top

/-- Passing sections never takes the cursor up. -/
theorem GroupsDown.precedes (h : GroupsDown config start groups stop) : start.Precedes stop := by
  induction h with
  | nil c => exact .refl c
  | cons header tasks rest ih =>
    exact ((Cursor.precedes_belowHeader hroom _).trans (tasks.precedes hroom)).trans ih

/-- Each task of each section stands somewhere on the way of the cursor. -/
theorem GroupsDown.isPassed (h : GroupsDown config start groups stop) :
    ∀ t ∈ groups.flatMap (·.tasks), IsPassed config start stop t := by
  induction h with
  | nil c => exact List.forall_mem_nil _
  | @cons c below stop g more header tasks rest ih =>
    have hheader := Cursor.precedes_belowHeader hroom c
    intro t ht
    rw [List.flatMap_cons, List.mem_append] at ht
    -- A bar of this section is passed below its header, one of a later section on the way after
    -- both.
    rcases ht with hown | hlater
    · exact (tasks.isPassed hroom t hown).mono hheader (rest.precedes hroom)
    · exact (ih t hlater).mono (hheader.trans (tasks.precedes hroom)) (.refl stop)

/-- Bars stand below one another across the sections too. -/
theorem GroupsDown.pairwise_bars (h : GroupsDown config start groups stop) :
    (groups.flatMap (·.tasks)).Pairwise fun a b =>
      a.bar.bottom + (config.ganttBarSpacing : Rat) ≤ b.bar.top := by
  induction h with
  | nil c => exact .nil
  | cons header tasks rest ih =>
    rw [List.flatMap_cons, List.pairwise_append]
    refine ⟨tasks.pairwise hroom, ih, ?_⟩
    -- One of the bars is in this section, the other one in a later section.
    intro a ha b hb
    exact (tasks.isPassed hroom a ha).bottom_add_le_stop.trans
      (rest.isPassed hroom b hb).start_le_top

/-- The header of a section stands above its bars. -/
theorem GroupsDown.own (h : GroupsDown config start groups stop) : ∀ g ∈ groups, ∀ t ∈ g.tasks,
    g.header.y + (config.ganttSectionSpacing : Rat) ≤ t.bar.top := by
  induction h with
  | nil c => exact List.forall_mem_nil _
  | cons header tasks rest ih =>
    refine List.forall_mem_cons.2 ⟨?_, ih⟩
    intro t ht
    rw [header]
    exact (tasks.isPassed hroom t ht).start_le_top

/-- Every header stands on the way of the cursor, the spacing above it included. -/
theorem GroupsDown.header_bounds (h : GroupsDown config start groups stop) : ∀ g ∈ groups,
    start.y + (config.ganttSectionSpacing : Rat) ≤ g.header.y ∧ g.header.y ≤ stop.y := by
  have hspacing : (0 : Rat) ≤ config.ganttSectionSpacing :=
    Rat.intCast_nonneg.2 hroom.sectionSpacing
  induction h with
  | nil c => exact List.forall_mem_nil _
  | @cons c below stop g more header tasks rest ih =>
    have hbelow := (tasks.precedes hroom).y
    have hrest := (rest.precedes hroom).y
    simp only [Cursor.belowHeader, sectionY] at hbelow
    refine List.forall_mem_cons.2 ⟨?_, ?_⟩
    · -- The own header is as far down as the spacing above it.
      rw [header, sectionY]
      constructor <;> linarith
    · intro later hlater
      -- Later headers are further down: this section only adds room above them.
      obtain ⟨habove, hbefore⟩ := ih later hlater
      exact ⟨by linarith, hbefore⟩

/-- The header of a section stands below the bars of all sections before it. -/
theorem GroupsDown.pairwise (h : GroupsDown config start groups stop) :
    groups.Pairwise fun a b => ∀ t ∈ a.tasks,
      t.bar.bottom + (config.ganttBarSpacing + config.ganttSectionSpacing : Rat) ≤ b.header.y := by
  induction h with
  | nil c => exact .nil
  | cons header tasks rest ih =>
    refine List.pairwise_cons.2 ⟨?_, ih⟩
    intro later hlater t ht
    -- A bar ends on the way through its own section, and a later header is in what follows.
    have hbar := (tasks.isPassed hroom t ht).bottom_add_le_stop
    have hheader := (rest.header_bounds hroom later hlater).1
    linarith

end

/-! ## What placing does -/

section

variable {config : Config} {index : Nat} {c stop : Cursor Rat}

/-- The bars that placing the tasks of a section gives are those that the cursor passes. -/
theorem barsDown_of_placeTasks {tasks : List GanttTask} {placed : List (PositionedTask Rat)}
    (h : placeTasks config index c tasks = .ok (placed, stop)) : BarsDown config c placed stop := by
  induction tasks generalizing c placed with
  | nil =>
    cases h
    exact .nil _
  | cons t more ih =>
    -- Placing a task fails only where its colour is missing; then there is nothing to show.
    cases hcolor : taskColor config t.status index with
    | error e => simp [placeTasks, placeTask, hcolor, bind, Except.bind] at h
    | ok color =>
      cases hmore : placeTasks config index (c.next config) more with
      | error e => simp [placeTasks, placeTask, hcolor, hmore, bind, Except.bind, pure,
          Except.pure] at h
      | ok rest =>
        simp only [placeTasks, placeTask, hcolor, hmore, bind, Except.bind, pure, Except.pure,
          Except.ok.injEq, Prod.mk.injEq] at h
        obtain ⟨rfl, rfl⟩ := h
        exact .cons rfl (ih hmore)

/-- All tasks have colours, so all sections are placed, one below the other. -/
theorem exists_groupsDown (hcolors : config.ganttColors ≠ []) (index : Nat) (c : Cursor Rat)
    (sections : List GanttSection) :
    ∃ column groups, placeSections config index c sections = .ok column ∧
      groups.map GanttGroup.content = sections ∧ groups.map GanttGroup.header = column.sections ∧
      groups.flatMap GanttGroup.tasks = column.tasks ∧ GroupsDown config c groups column.stop := by
  induction sections generalizing index c with
  | nil => exact ⟨⟨[], [], c⟩, [], rfl, rfl, rfl, rfl, .nil c⟩
  | cons s more ih =>
    -- The tasks of this section first, then the other sections from where the cursor is left.
    obtain ⟨placed, below, hplaced, htasks⟩ :=
      exists_placeTasks hcolors index (c.belowHeader config) s.tasks
    obtain ⟨others, groups, hothers, hcontent, hheaders, hbars, hdown⟩ := ih (index + 1) below
    refine ⟨⟨⟨s.name, sectionY config c⟩ :: others.sections, placed ++ others.tasks, others.stop⟩,
      ⟨⟨s.name, sectionY config c⟩, placed⟩ :: groups, ?_, ?_, ?_, ?_, ?_⟩
    · simp only [placeSections, hplaced, hothers, bind, Except.bind, pure, Except.pure]
    · rw [List.map_cons, hcontent, GanttGroup.content, htasks]
    · rw [List.map_cons, hheaders]
    · rw [List.flatMap_cons, hbars]
    · exact .cons rfl (barsDown_of_placeTasks hplaced) hdown

end

/-! ## From side to side -/

section

variable {config : Config} {day later : Nat}

/-- Later days are not further left. -/
theorem dayX_le_dayX (hroom : config.RoomForGantt) (h : day ≤ later) :
    (dayX config day : Rat) ≤ dayX config later := by
  have hwidth : (0 : Rat) ≤ config.ganttDayWidth := Rat.intCast_nonneg.2 hroom.dayWidth
  have hdays : (day : Rat) * config.ganttDayWidth ≤ (later : Rat) * config.ganttDayWidth :=
    mul_le_mul_of_nonneg_right (Nat.cast_le.2 h) hwidth
  exact add_le_add_right hdays _

/-- The first day is where the column of labels ends. -/
theorem dayX_zero : (dayX config 0 : Rat) = config.ganttLabelWidth := by
  have hzero : ((0 : Nat) : Rat) * config.ganttDayWidth = 0 := by rw [Nat.cast_zero, zero_mul]
  exact (congrArg (_ + ·) hzero).trans (add_zero _)

/-- Each day is one width further right. -/
theorem dayX_add (day count : Nat) :
    (dayX config (day + count) : Rat) = dayX config day + (count : Rat) * config.ganttDayWidth := by
  simp only [dayX]
  push_cast
  ring

/-- A bar ends five days after the day it starts at. -/
theorem right_bar (place : Cursor Rat) :
    (bar config place : Rect Rat).right = dayX config (3 * place.index + 5) := by
  rw [dayX_add]
  rfl

/-- There are five days for each task, and a bar starts three days after the one before it. -/
theorem three_mul_add_five_le_dayCount {index count : Nat} (h : index < count) :
    3 * index + 5 ≤ dayCount count := by
  have hdays : 5 * count ≤ dayCount count := Nat.le_max_left _ _
  omega

/-- A bar that is passed lies between the first and the last day of the grid. -/
theorem IsPassed.within_days (hroom : config.RoomForGantt) {start stop : Cursor Rat}
    {t : PositionedTask Rat} (h : IsPassed config start stop t) :
    (config.ganttLabelWidth : Rat) ≤ t.bar.left ∧ t.bar.right ≤ dayX config (dayCount stop.index) := by
  obtain ⟨place, -, hnext, hbar⟩ := h
  rw [hbar, right_bar]
  constructor
  · rw [← dayX_zero]
    exact dayX_le_dayX hroom (Nat.zero_le _)
  · -- The cursor behind the bar is not past the last task, so the bar ends within the grid.
    exact dayX_le_dayX hroom (three_mul_add_five_le_dayCount hnext.index)

/-- From one grid line to the next there are five days. -/
theorem isChain_gridLines (days : Nat) : (gridLines config days : List (GridLine Rat)).IsChain
    fun a b => b.x = a.x + 5 * (config.ganttDayWidth : Rat) := by
  rw [gridLines, List.isChain_map, List.isChain_iff_getElem]
  -- The line with number `k` is at day `5 * k`.
  intro k hk
  rw [List.getElem_range, List.getElem_range, Nat.mul_succ, dayX_add]
  rfl

/-- The first grid line is at the first day. -/
theorem head?_gridLines (days : Nat) :
    (gridLines config days : List (GridLine Rat)).head?.map (·.x) =
      some (config.ganttLabelWidth : Rat) := by
  rw [gridLines, List.range_succ_eq_map, List.map_cons, List.head?_cons, Option.map_some]
  exact congrArg some dayX_zero

/-- The last of the grid lines is at the last day, if it is a day that has one. -/
theorem getLast?_gridLines {days : Nat} (h : 5 ∣ days) :
    (gridLines config days : List (GridLine Rat)).getLast?.map (·.x) =
      some (dayX config days : Rat) := by
  rw [gridLines, List.range_succ, List.map_append, List.map_singleton, List.getLast?_concat,
    Option.map_some, Nat.mul_div_cancel' h]

/-- The number of days in the grid is a multiple of five. -/
theorem five_dvd_dayCount (count : Nat) : 5 ∣ dayCount count := by
  rcases Nat.le_total (5 * count) 20 with hfew | hmany
  · have hmax : dayCount count = 20 := Nat.max_eq_right hfew
    rw [hmax]
    exact ⟨4, rfl⟩
  · have hmax : dayCount count = 5 * count := Nat.max_eq_left hmany
    rw [hmax]
    exact ⟨count, rfl⟩

/-- No grid line is before the first day or after the last. -/
theorem gridLine_bounds (hroom : config.RoomForGantt) {days : Nat} {g : GridLine Rat}
    (hg : g ∈ (gridLines config days : List (GridLine Rat))) :
    (config.ganttLabelWidth : Rat) ≤ g.x ∧ g.x ≤ dayX config days := by
  obtain ⟨k, hk, rfl⟩ := List.mem_map.1 hg
  have hday : 5 * k ≤ days := by
    have hlt := List.mem_range.1 hk
    omega
  constructor
  · rw [← dayX_zero]
    exact dayX_le_dayX hroom (Nat.zero_le _)
  · exact dayX_le_dayX hroom hday

end

/-! ## The drawing -/

/-- The drawing of a chart whose sections a cursor passes on its way down to `stop`. -/
structure IsDrawn (config : Config) (chart : GanttChart) (l : GanttLayout Rat)
    (groups : List GanttGroup) (stop : Cursor Rat) : Prop where
  content : groups.map (·.content) = chart.sections
  headers : groups.map (·.header) = l.sections
  tasks : groups.flatMap (·.tasks) = l.tasks
  down : GroupsDown config ⟨l.chartTop, 0⟩ groups stop
  gridLines : l.gridLines = gridLines config (dayCount stop.index)
  top : l.chartTop = sectionsTop Rat config chart
  bottom : l.chartBottom = stop.y
  size : l.size = ⟨Scalar.max (dayX config (dayCount stop.index)) 400 + (config.padding : Rat),
    stop.y + config.padding⟩

/-- With colours for its tasks every chart is drawn. -/
theorem exists_isDrawn {config : Config} (hcolors : config.ganttColors ≠ []) (chart : GanttChart) :
    ∃ l groups stop, chart.layout config = .ok l ∧ IsDrawn config chart l groups stop := by
  obtain ⟨column, groups, hcolumn, hcontent, hheaders, htasks, hdown⟩ :=
    exists_groupsDown hcolors 0 ⟨sectionsTop Rat config chart, 0⟩ chart.sections
  -- What comes after the sections cannot fail.
  show ∃ l groups stop,
    (placeSections config 0 ⟨sectionsTop Rat config chart, 0⟩ chart.sections >>= _) = .ok l ∧
      IsDrawn config chart l groups stop
  rw [hcolumn]
  exact ⟨_, groups, column.stop, rfl, hcontent, hheaders, htasks, hdown, rfl, rfl, rfl, rfl⟩

namespace IsDrawn

variable {config : Config} {chart : GanttChart} {l : GanttLayout Rat} {groups : List GanttGroup}
  {stop : Cursor Rat} (h : IsDrawn config chart l groups stop)

include h

/-- The bars show the tasks of the chart in their order. -/
theorem map_task : l.tasks.map (·.task) = chart.tasks := by
  rw [← h.tasks, GanttChart.tasks, ← h.content, List.map_flatMap, List.flatMap_map]
  rfl

/-- The cursor has passed all tasks in the end. -/
theorem index_stop : stop.index = chart.tasks.length := by
  rw [h.down.index_stop, h.tasks, ← h.map_task, List.length_map, Nat.zero_add]

/-- Where the grid ends, in terms of the number of tasks. -/
theorem dayX_last : (dayX config (dayCount stop.index) : Rat) = config.ganttLabelWidth +
    ((max (5 * chart.tasks.length) 20 : Nat) : Rat) * config.ganttDayWidth := by
  rw [h.index_stop]
  rfl

/-- The canvas is as wide as the days ask for, and never less than 400 beside the padding. -/
theorem width_bounds : dayX config (dayCount stop.index) + (config.padding : Rat) ≤ l.size.width ∧
    400 + (config.padding : Rat) ≤ l.size.width := by
  rw [h.size]
  obtain ⟨hdays, hleast⟩ := Scalar.max_le_iff.1
    (le_refl (Scalar.max (dayX config (dayCount stop.index) : Rat) 400))
  exact ⟨add_le_add_left hdays _, add_le_add_left hleast _⟩

theorem height_eq : l.size.height = l.chartBottom + config.padding := by
  rw [h.size, h.bottom]

variable (hroom : config.RoomForGantt)

include hroom

theorem chartTop_nonneg : 0 ≤ l.chartTop := by
  have hpadding : (0 : Rat) ≤ config.padding := Rat.intCast_nonneg.2 hroom.padding
  rw [h.top, sectionsTop]
  split
  · linarith
  · linarith

theorem isPassed {t : PositionedTask Rat} (ht : t ∈ l.tasks) :
    IsPassed config ⟨l.chartTop, 0⟩ stop t := by
  rw [← h.tasks] at ht
  exact h.down.isPassed hroom t ht

theorem between {t : PositionedTask Rat} (ht : t ∈ l.tasks) :
    l.chartTop ≤ t.bar.top ∧ t.bar.bottom ≤ l.chartBottom := by
  have hspacing : (0 : Rat) ≤ config.ganttBarSpacing := Rat.intCast_nonneg.2 hroom.barSpacing
  have hstop := (h.isPassed hroom ht).bottom_add_le_stop
  rw [h.bottom]
  exact ⟨(h.isPassed hroom ht).start_le_top, by linarith⟩

theorem descends : l.Descends config chart groups where
  content := h.content
  headers := h.headers
  tasks := h.tasks
  sizes t ht := (h.isPassed hroom ht).size_bar
  bars := by
    rw [← h.tasks]
    exact h.down.pairwise_bars hroom
  own := h.down.own hroom
  earlier := h.down.pairwise hroom
  between t ht := h.between hroom ht

theorem ruled : l.Ruled config chart.tasks.length where
  first := by
    rw [h.gridLines]
    exact head?_gridLines _
  steps := by
    rw [h.gridLines]
    exact isChain_gridLines _
  last := by
    rw [h.gridLines, getLast?_gridLines (five_dvd_dayCount _), h.dayX_last]
  bars t ht := by
    rw [← h.dayX_last]
    exact (h.isPassed hroom ht).within_days hroom

/-- A height between the top and the bottom of the chart, at an abscissa up to the last day. -/
theorem covers {p : Point Rat} (hx : 0 ≤ p.x ∧ p.x ≤ l.size.width)
    (hy : l.chartTop ≤ p.y ∧ p.y ≤ l.chartBottom) : (l.size.inner 0).Covers p := by
  have hpadding : (0 : Rat) ≤ config.padding := Rat.intCast_nonneg.2 hroom.padding
  have htop := h.chartTop_nonneg hroom
  obtain ⟨hleft, hright⟩ := hx
  obtain ⟨habove, hbelow⟩ := hy
  constructor <;> simp only [Size.inner, h.height_eq] <;> linarith

theorem onCanvas : l.OnCanvas config := by
  have hpadding : (0 : Rat) ≤ config.padding := Rat.intCast_nonneg.2 hroom.padding
  have hlabels : (0 : Rat) ≤ config.ganttLabelWidth := Rat.intCast_nonneg.2 hroom.labelWidth
  have htop := h.chartTop_nonneg hroom
  have hheight := h.height_eq
  obtain ⟨hdays, hleast⟩ := h.width_bounds
  constructor
  case bars =>
    intro t ht
    obtain ⟨hleft, hright⟩ := (h.isPassed hroom ht).within_days hroom
    obtain ⟨habove, hbelow⟩ := h.between hroom ht
    constructor <;> simp only [Size.inner] <;> linarith
  case headers =>
    intro s hs
    rw [← h.headers] at hs
    obtain ⟨g, hg, rfl⟩ := List.mem_map.1 hs
    obtain ⟨habove, hbelow⟩ := h.down.header_bounds hroom g hg
    have hspacing : (0 : Rat) ≤ config.ganttSectionSpacing :=
      Rat.intCast_nonneg.2 hroom.sectionSpacing
    refine h.covers hroom ⟨hpadding, by linarith⟩ ⟨by linarith, ?_⟩
    rw [h.bottom]
    exact hbelow
  case gridLines =>
    intro g hg
    rw [h.gridLines] at hg
    obtain ⟨hleft, hright⟩ := gridLine_bounds hroom hg
    have hend : l.chartTop ≤ l.chartBottom := by
      rw [h.bottom]
      exact (h.down.precedes hroom).y
    have hx : 0 ≤ g.x ∧ g.x ≤ l.size.width := ⟨by linarith, by linarith⟩
    exact ⟨h.covers hroom hx ⟨le_rfl, hend⟩, h.covers hroom hx ⟨hend, le_rfl⟩⟩

end IsDrawn

/-- In the drawing of a chart the bars stand below one another, in the order of the tasks and with the
spacing free between them. Headers stand below the bars of earlier sections and above those of their own,
and there is a grid line at every fifth day, up to the end of at least twenty days that no bar goes beyond.
All of it is on the canvas. -/
theorem bars_arranged {config : Config} (hroom : config.RoomForGantt) (chart : GanttChart) :
    ∃ l : GanttLayout Rat, chart.layout config = .ok l ∧ l.tasks.map (·.task) = chart.tasks ∧
      (∃ groups, l.Descends config chart groups) ∧ l.Ruled config chart.tasks.length ∧
      l.OnCanvas config := by
  obtain ⟨l, groups, stop, hl, hdrawn⟩ := exists_isDrawn hroom.colors chart
  exact ⟨l, hl, hdrawn.map_task, ⟨groups, hdrawn.descends hroom⟩, hdrawn.ruled hroom,
    hdrawn.onCanvas hroom⟩

/-- A chart with a title and three sections, the second of them empty. -/
theorem bars_arranged_around_empty_section :
    ∃ chart, Diagram.parse
          "gantt\ntitle Plan\nsection A\na : 1d\nsection B\nsection C\nc : 1d\nd : 1d" =
        .ok (.gantt chart) ∧ Config.light.RoomForGantt ∧
      ∃ l : GanttLayout Rat, chart.layout Config.light = .ok l ∧
        l.sections.map (·.y) = [117, 177, 201] ∧
        l.tasks.map (·.bar) =
          [⟨180, 129, 330, 157⟩, ⟨270, 213, 420, 241⟩, ⟨360, 249, 510, 277⟩] ∧
        l.gridLines.map (·.x) = [180, 330, 480, 630, 780] ∧ l.chartTop = 105 ∧
        l.chartBottom = 285 ∧ l.size = ⟨820, 325⟩ ∧
        (∃ groups, l.Descends Config.light chart groups) ∧ l.Ruled Config.light 3 ∧
        l.OnCanvas Config.light := by
  have hparse : Diagram.parse
      "gantt\ntitle Plan\nsection A\na : 1d\nsection B\nsection C\nc : 1d\nd : 1d" =
        .ok (.gantt ⟨some "Plan", none,
          [⟨"A", [⟨"a", none, .normal, none, some "1d", none⟩]⟩, ⟨"B", []⟩,
            ⟨"C", [⟨"c", none, .normal, none, some "1d", none⟩,
              ⟨"d", none, .normal, none, some "1d", none⟩]⟩]⟩) := rfl
  have hroom : Config.light.RoomForGantt := by
    constructor <;> decide
  obtain ⟨l, hl, -, hdescends, hruled, hcanvas⟩ := bars_arranged hroom _
  refine ⟨_, hparse, hroom, l, hl, ?_⟩
  have hplaces : l.sections.map (·.y) = [117, 177, 201] ∧
      l.tasks.map (·.bar) =
        [⟨180, 129, 330, 157⟩, ⟨270, 213, 420, 241⟩, ⟨360, 249, 510, 277⟩] ∧
      l.gridLines.map (·.x) = [180, 330, 480, 630, 780] ∧ l.chartTop = 105 ∧
      l.chartBottom = 285 ∧ l.size = ⟨820, 325⟩ := by
    cases hl
    decide +kernel
  obtain ⟨hheaders, hbars, hlines, htop, hbottom, hsize⟩ := hplaces
  exact ⟨hheaders, hbars, hlines, htop, hbottom, hsize, hdescends, hruled, hcanvas⟩

end GanttChart

end TextDiagram
