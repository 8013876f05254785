import TextDiagram.Proofs.Appending
/-!
# Tasks and sections as they are written

The lines of a Gantt chart that spell tasks and those that open sections are told by their first word
and, for tasks, by a colon. A reader keeps the last section open. What comes of it is said here by the
lines alone: the tasks of a chart are those of its task lines, in order, and each of them is in the
section of the last section line before it. The tasks before all section lines share a section of their
own, which is the first one.

Main statements:

* `lineTask?_eq_some_iff`, `heading?_eq_some_iff`: the lines that spell tasks and that open sections.
* `exists_sections_readLines`: what more lines add to a chart with an open section.
* `names_sections_ofLines`: the sections of a chart.
* `exists_place_of_lineTask?`: the place of the task that a line spells.
* `tasks_read_back`: all of it for the chart of a text.
-/

namespace TextDiagram.GanttChart

/-! ## Task lines and section lines -/

namespace Statement

/-- The task that a statement adds. -/
def added? : Statement → Option GanttTask
  | .task t => some t
  | _ => none

/-- The name of the section that a statement opens. -/
def opened? : Statement → Option String
  | .openSection name => some name
  | _ => none

/-- A line that may be a task is one if it has a colon. -/
theorem ofLine_of_isTaskLine {line : Line} (h : IsTaskLine line) :
    ofLine line = match Text.cut [':'] line with
      | some (name, spec) => .task (GanttTask.ofSpec (String.ofList (Text.trim name)) spec)
      | none => .skip := by
  unfold IsTaskLine at h
  rw [List.mem_append, not_or] at h
  simp only [List.mem_cons, List.not_mem_nil, or_false, not_or] at h
  unfold ofLine
  -- The three words with a meaning first, then the ignored ones.
  rw [if_neg h.1.1, if_neg h.1.2.1, if_neg h.1.2.2]
  exact if_neg h.2

/-- Other lines add no task. -/
theorem added?_of_not_isTaskLine {line : Line} (h : ¬IsTaskLine line) :
    (ofLine line).added? = none := by
  unfold IsTaskLine at h
  rw [not_not, List.mem_append] at h
  simp only [List.mem_cons, List.not_mem_nil, or_false] at h
  unfold ofLine
  rcases h with (h | h | h) | h
  · rw [if_pos h]
    rfl
  · rw [if_neg (by rw [h]; decide), if_pos h]
    rfl
  · rw [if_neg (by rw [h]; decide), if_neg (by rw [h]; decide), if_pos h]
    rfl
  · -- No ignored word is one of the three that say something.
    have hwords : ∀ word ∈ ignoredDirectives,
        word ≠ "title" ∧ word ≠ "dateFormat" ∧ word ≠ "section" := by decide
    obtain ⟨htitle, hformat, hsection⟩ := hwords _ h
    rw [if_neg htitle, if_neg hformat, if_neg hsection, if_pos h]
    rfl

end Statement

/-- The task that a line spells. -/
def lineTask? (line : Line) : Option GanttTask := (Statement.ofLine line).added?

/-- The name of the section that a line opens. -/
def heading? (line : Line) : Option String := (Statement.ofLine line).opened?

variable {line : Line} {lines : List Line}

/-- A line spells a task if its first word is no word for something else and it has a colon. The name ends
at the first colon. -/
theorem lineTask?_eq_some_iff {t : GanttTask} : lineTask? line = some t ↔
    Statement.IsTaskLine line ∧ ∃ name spec, line = name ++ ':' :: spec ∧ ':' ∉ name ∧
      t = GanttTask.ofSpec (String.ofList (Text.trim name)) spec := by
  unfold lineTask?
  constructor
  · intro h
    have hline : Statement.IsTaskLine line := by
      by_contra hnot
      rw [Statement.added?_of_not_isTaskLine hnot] at h
      cases h
    rw [Statement.ofLine_of_isTaskLine hline] at h
    cases hcut : Text.cut [':'] line with
    | none =>
      rw [hcut] at h
      cases h
    | some parts =>
      obtain ⟨name, spec⟩ := parts
      rw [hcut] at h
      obtain ⟨hparts, hcolon⟩ := Text.cut_singleton_eq_some_iff.1 hcut
      exact ⟨hline, name, spec, hparts, hcolon, (Option.some.inj h).symm⟩
  · rintro ⟨hline, name, spec, hparts, hcolon, rfl⟩
    rw [Statement.ofLine_of_isTaskLine hline, Text.cut_singleton_eq_some_iff.2 ⟨hparts, hcolon⟩]
    rfl

/-- A line opens a section if its first word says so. The rest of it is the name. -/
theorem heading?_eq_some_iff {name : String} : heading? line = some name ↔
    String.ofList (Text.firstWord line) = "section" ∧
      name = String.ofList (Text.trim (line.drop "section".length)) := by
  constructor
  · intro h
    simp only [heading?, Statement.ofLine] at h
    split at h
    · cases h
    split at h
    · cases h
    split at h
    · next hsection =>
      refine ⟨hsection, (Option.some.inj h).symm.trans ?_⟩
      rw [Statement.rest, hsection]
    split at h
    · cases h
    split at h <;> cases h
  · rintro ⟨hsection, rfl⟩
    -- Of the words with a meaning `section` is tried last.
    unfold heading? Statement.ofLine
    rw [if_neg (by rw [hsection]; decide), if_neg (by rw [hsection]; decide), if_pos hsection,
      hsection]
    rfl

/-! ## What a line does -/

/-- The tasks before the first section line. -/
def leading (lines : List Line) : List GanttTask :=
  (lines.takeWhile fun line => (heading? line).isNone).filterMap lineTask?

/-- The names of the sections that some lines make up. -/
def sectionNames (lines : List Line) : List String :=
  (if leading lines = [] then [] else [defaultSection]) ++ lines.filterMap heading?

/-- What a line does to the sections of a chart: it opens a new one, adds a task or leaves them as they
are. -/
inductive Effect (line : Line) : Prop where
  | opens (name : String) (heading : heading? line = some name) (task : lineTask? line = none)
      (sections : ∀ chart, (Statement.apply chart (Statement.ofLine line)).sections =
        chart.sections ++ [⟨name, []⟩])
  | adds (t : GanttTask) (heading : heading? line = none) (task : lineTask? line = some t)
      (sections : ∀ chart, (Statement.apply chart (Statement.ofLine line)).sections =
        Statement.addTask t chart.sections)
  | keeps (heading : heading? line = none) (task : lineTask? line = none)
      (sections : ∀ chart, (Statement.apply chart (Statement.ofLine line)).sections =
        chart.sections)

/-- Every line opens a section, adds a task or keeps the sections. -/
theorem effect (line : Line) : Effect line := by
  cases hline : Statement.ofLine line with
  | openSection name =>
    refine .opens name ?_ ?_ fun chart => ?_
    · rw [heading?, hline]
      rfl
    · rw [lineTask?, hline]
      rfl
    · rw [hline]
      rfl
  | task t =>
    refine .adds t ?_ ?_ fun chart => ?_
    · rw [heading?, hline]
      rfl
    · rw [lineTask?, hline]
      rfl
    · rw [hline]
      rfl
  | _ =>
    refine .keeps ?_ ?_ fun chart => ?_
    · rw [heading?, hline]
      rfl
    · rw [lineTask?, hline]
      rfl
    · rw [hline]
      rfl

/-- A line that adds a task opens no section. -/
theorem heading?_of_lineTask? {t : GanttTask} (h : lineTask? line = some t) :
    heading? line = none := by
  cases effect line with
  | opens _ _ htask =>
    rw [htask] at h
    cases h
  | adds _ hheading => exact hheading
  | keeps hheading => exact hheading

/-- Nothing leads before a section line. -/
theorem leading_cons_of_heading? {name : String} (h : heading? line = some name) :
    leading (line :: lines) = [] := by
  rw [leading, List.takeWhile_cons_of_neg (by simp [h])]
  rfl

/-- Any other line may add to the tasks that lead. -/
theorem leading_cons (h : heading? line = none) :
    leading (line :: lines) = (lineTask? line).toList ++ leading lines := by
  rw [leading, List.takeWhile_cons_of_pos (by simp [h]), List.filterMap_cons]
  cases lineTask? line <;> rfl

/-! ## What several lines do -/

/-- A task is entered into a section that is open or opened for it, behind all tasks that are there. -/
theorem exists_addTask_eq (t : GanttTask) (sections : List GanttSection) :
    ∃ (init : List GanttSection) (s : GanttSection),
      Statement.addTask t sections = init ++ [⟨s.name, s.tasks ++ [t]⟩] ∧
      init.flatMap (·.tasks) ++ s.tasks = sections.flatMap (·.tasks) := by
  induction sections with
  | nil => exact ⟨[], ⟨defaultSection, []⟩, rfl, rfl⟩
  | cons s more ih =>
    cases more with
    | nil => exact ⟨[], s, rfl, by simp⟩
    | cons next others =>
      obtain ⟨init, last, hsections, htasks⟩ := ih
      refine ⟨s :: init, last, congrArg (s :: ·) hsections, ?_⟩
      rw [List.flatMap_cons, List.flatMap_cons, List.append_assoc, htasks]

/-- A task goes into the last section. -/
theorem addTask_append_singleton (t : GanttTask) (init : List GanttSection) (s : GanttSection) :
    Statement.addTask t (init ++ [s]) = init ++ [⟨s.name, s.tasks ++ [t]⟩] := by
  induction init with
  | nil => rfl
  | cons first more ih =>
    cases more with
    | nil => rfl
    | cons next others => exact congrArg (first :: ·) ih

/-- The first line is read first. -/
theorem readLines_cons (chart : GanttChart) (line : Line) (lines : List Line) :
    readLines chart (line :: lines) =
      readLines (Statement.apply chart (Statement.ofLine line)) lines := rfl

/-- Reading lines one part after the other. -/
theorem readLines_append (chart : GanttChart) (lines more : List Line) :
    readLines chart (lines ++ more) = readLines (readLines chart lines) more :=
  List.foldl_append

/-- Lines add their tasks to the open section until one of them opens the next. -/
theorem exists_sections_readLines {chart : GanttChart} {init : List GanttSection}
    {s : GanttSection} (h : chart.sections = init ++ [s]) (lines : List Line) :
    ∃ later, (readLines chart lines).sections =
        init ++ ⟨s.name, s.tasks ++ leading lines⟩ :: later ∧
      later.map (·.name) = lines.filterMap heading? := by
  -- A section line makes the open section one of those before, so both parts vary.
  induction lines generalizing chart init s with
  | nil =>
    refine ⟨[], ?_, rfl⟩
    rw [readLines, List.foldl_nil, h, leading, List.takeWhile_nil, List.filterMap_nil,
      List.append_nil]
  | cons line rest ih =>
    rw [readLines_cons]
    cases effect line with
    | opens name hheading htask hsections =>
      have hopen : (Statement.apply chart (Statement.ofLine line)).sections =
          (init ++ [s]) ++ [⟨name, []⟩] := by
        rw [hsections, h]
      obtain ⟨later, hlater, hnames⟩ := ih hopen
      refine ⟨⟨name, leading rest⟩ :: later, ?_, ?_⟩
      · rw [hlater, leading_cons_of_heading? hheading, List.append_nil, List.append_assoc]
        rfl
      · rw [List.map_cons, hnames, List.filterMap_cons_some hheading]
    | adds t hheading htask hsections =>
      have hopen : (Statement.apply chart (Statement.ofLine line)).sections =
          init ++ [⟨s.name, s.tasks ++ [t]⟩] := by
        rw [hsections, h, addTask_append_singleton]
      obtain ⟨later, hlater, hnames⟩ := ih hopen
      refine ⟨later, ?_, ?_⟩
      · rw [hlater, leading_cons hheading, htask, Option.toList_some, List.append_assoc]
      · rw [hnames, List.filterMap_cons_none hheading]
    | keeps hheading htask hsections =>
      obtain ⟨later, hlater, hnames⟩ := ih ((hsections chart).trans h)
      refine ⟨later, ?_, ?_⟩
      · rw [hlater, leading_cons hheading, htask, Option.toList_none, List.nil_append]
      · rw [hnames, List.filterMap_cons_none hheading]

/-- The names of the sections, the default one included. -/
theorem names_sections_readLines {chart : GanttChart} (h : chart.sections = [])
    (lines : List Line) :
    (readLines chart lines).sections.map (·.name) = sectionNames lines := by
  induction lines generalizing chart with
  | nil =>
    rw [readLines, List.foldl_nil, h]
    rfl
  | cons line rest ih =>
    rw [readLines_cons, sectionNames]
    cases effect line with
    | opens name hheading htask hsections =>
      have hopen : (Statement.apply chart (Statement.ofLine line)).sections =
          [] ++ [⟨name, []⟩] := by
        rw [hsections, h]
      obtain ⟨later, hlater, hnames⟩ := exists_sections_readLines hopen rest
      rw [hlater, leading_cons_of_heading? hheading, List.filterMap_cons_some hheading, ← hnames]
      rfl
    | adds t hheading htask hsections =>
      -- A section is opened for the task, as none is open.
      have hopen : (Statement.apply chart (Statement.ofLine line)).sections =
          [] ++ [⟨defaultSection, [t]⟩] := by
        rw [hsections, h]
        rfl
      obtain ⟨later, hlater, hnames⟩ := exists_sections_readLines hopen rest
      rw [hlater, leading_cons hheading, htask, List.filterMap_cons_none hheading, ← hnames]
      rfl
    | keeps hheading htask hsections =>
      rw [ih ((hsections chart).trans h), leading_cons hheading, htask,
        List.filterMap_cons_none hheading]
      rfl

/-- Every section line opens a section, and tasks before the first one have a section before all. -/
theorem names_sections_ofLines (lines : List Line) :
    (ofLines lines).sections.map (·.name) = sectionNames lines :=
  names_sections_readLines rfl lines

/-- Reading adds the tasks of the lines in their order. -/
theorem tasks_readLines (chart : GanttChart) (lines : List Line) :
    (readLines chart lines).tasks = chart.tasks ++ lines.filterMap lineTask? := by
  induction lines generalizing chart with
  | nil => exact (List.append_nil _).symm
  | cons line rest ih =>
    rw [readLines_cons, ih, tasks]
    cases effect line with
    | opens name hheading htask hsections =>
      rw [hsections, List.filterMap_cons_none htask, List.flatMap_append, List.flatMap_singleton,
        List.append_nil]
      rfl
    | adds t hheading htask hsections =>
      rw [hsections, tasks_addTask, List.filterMap_cons_some htask, List.append_assoc]
      rfl
    | keeps hheading htask hsections =>
      rw [hsections, List.filterMap_cons_none htask]
      rfl

/-- Every task line adds its own task behind the others. -/
theorem tasks_ofLines (lines : List Line) :
    (ofLines lines).tasks = lines.filterMap lineTask? :=
  tasks_readLines _ lines

/-- A name that ends the names of sections is that of the last section line, or there is no such line. -/
theorem eq_getLast?_of_sectionNames {names : List String} {name : String}
    (h : names ++ [name] = sectionNames lines) :
    name = (lines.filterMap heading?).getLast?.getD defaultSection := by
  have hlast := congrArg List.getLast? h
  rw [List.getLast?_concat, sectionNames, List.getLast?_append] at hlast
  cases hheadings : (lines.filterMap heading?).getLast? with
  | some last =>
    rw [hheadings, Option.some_or] at hlast
    exact Option.some.inj hlast
  | none =>
    rw [hheadings, Option.none_or] at hlast
    split at hlast
    · cases hlast
    · exact Option.some.inj hlast

/-- The task of a line is in the section of the last section line before it. The sections and tasks
before it are those of the lines before it, so it is told from tasks and sections that are equal to it. -/
theorem exists_place_of_lineTask? {t : GanttTask} (h : lineTask? line = some t)
    (before after : List Line) :
    ∃ earlier s later front back, (ofLines (before ++ line :: after)).sections =
        earlier ++ s :: later ∧
      s.tasks = front ++ t :: back ∧
      s.name = (before.filterMap heading?).getLast?.getD defaultSection ∧
      earlier.map (·.name) ++ [s.name] = sectionNames (before ++ [line]) ∧
      earlier.flatMap (·.tasks) ++ front = before.filterMap lineTask? := by
  have hread : (ofLines (before ++ [line])).sections =
      Statement.addTask t (ofLines before).sections := by
    rw [ofLines, readLines_append, ← ofLines, readLines_cons]
    cases effect line with
    | adds t' _ htask hsections =>
      obtain rfl := Option.some.inj (htask.symm.trans h)
      exact hsections _
    | opens _ _ htask => cases htask.symm.trans h
    | keeps _ htask => cases htask.symm.trans h
  -- The task goes into the section that is open before the line, and later lines add behind it.
  obtain ⟨init, s, hadded, htasks⟩ := exists_addTask_eq t (ofLines before).sections
  obtain ⟨later, hlater, -⟩ := exists_sections_readLines (hread.trans hadded) after
  have hnames : init.map (·.name) ++ [s.name] = sectionNames (before ++ [line]) := by
    rw [← names_sections_ofLines, hread, hadded, List.map_append]
    rfl
  have hheadings : (before ++ [line]).filterMap heading? = before.filterMap heading? := by
    rw [List.filterMap_append, List.filterMap_cons_none (heading?_of_lineTask? h),
      List.filterMap_nil, List.append_nil]
  refine ⟨init, ⟨s.name, s.tasks ++ [t] ++ leading after⟩, later, s.tasks, leading after, ?_, ?_, ?_,
    hnames, ?_⟩
  · rw [List.append_cons, ofLines, readLines_append, ← ofLines, hlater]
  · exact List.append_assoc _ _ _
  · rw [← hheadings]
    exact eq_getLast?_of_sectionNames hnames
  · rw [htasks, ← tasks_ofLines]
    rfl

/-- No task of a chart is lost or moved. The tasks are those of the task lines, in order. The sections are
those of the section lines, in order, behind one for the tasks before all section lines if there are any.
A task is in the section of the last section line before its own line. Which lines spell tasks and which
open sections is told by the lines themselves. -/
theorem tasks_read_back {text : String} {header : Line} {lines : List Line}
    (hlines : Text.significantLines text.toList = header :: lines)
    (hgantt : String.ofList (Text.firstWord header) = "gantt") :
    (∃ chart : GanttChart, Diagram.parse text = .ok (.gantt chart) ∧
      chart.tasks = lines.filterMap lineTask? ∧
      chart.sections.map (·.name) =
        (if leading lines = [] then [] else ["Default"]) ++ lines.filterMap heading? ∧
      ∀ before line after t, lines = before ++ line :: after → lineTask? line = some t →
        ∃ earlier s later front back, chart.sections = earlier ++ s :: later ∧
          s.tasks = front ++ t :: back ∧
          s.name = (before.filterMap heading?).getLast?.getD "Default" ∧
          earlier.map (·.name) ++ [s.name] = sectionNames (before ++ [line]) ∧
          earlier.flatMap (·.tasks) ++ front = before.filterMap lineTask?) ∧
    (∀ line t, lineTask? line = some t ↔
      String.ofList (Text.firstWord line) ∉
        ["title", "dateFormat", "section"] ++ ignoredDirectives ∧
      ∃ name spec, line = name ++ ':' :: spec ∧ ':' ∉ name ∧
        t = GanttTask.ofSpec (String.ofList (Text.trim name)) spec) ∧
    ∀ line name, heading? line = some name ↔
      String.ofList (Text.firstWord line) = "section" ∧
        name = String.ofList (Text.trim (line.drop "section".length)) := by
  refine ⟨⟨ofLines lines, ?_, tasks_ofLines lines, names_sections_ofLines lines, ?_⟩,
    fun _ _ => lineTask?_eq_some_iff, fun _ _ => heading?_eq_some_iff⟩
  · have hkind : DiagramKind.ofKeyword? "gantt" = some .gantt := by decide
    rw [Diagram.parse, hlines, Diagram.parseLines, hgantt, hkind]
    rfl
  · rintro before line after t rfl ht
    exact exists_place_of_lineTask? ht before after

/-- A task before two sections of one name, a directive with a colon, and a task with a colon of its own in
the second section. -/
theorem tasks_read_back_of_equal_names :
    ∃ chart : GanttChart,
      Diagram.parse "gantt\nplan: 1d\nsection A\nsection A\nexcludes : 1d\nbuild: a:b" =
        .ok (.gantt chart) ∧
      chart.tasks = [⟨"plan", none, .normal, none, some "1d", none⟩,
        ⟨"build", some "a:b", .normal, none, none, none⟩] ∧
      chart.sections.map (·.name) = ["Default", "A", "A"] ∧
      ∃ earlier s later front back, chart.sections = earlier ++ s :: later ∧
        s.tasks = front ++ ⟨"build", some "a:b", .normal, none, none, none⟩ :: back ∧
        s.name = "A" ∧ earlier.map (·.name) ++ [s.name] = ["Default", "A", "A"] ∧
        earlier.flatMap (·.tasks) ++ front = [⟨"plan", none, .normal, none, some "1d", none⟩] := by
  have hlines : Text.significantLines
      "gantt\nplan: 1d\nsection A\nsection A\nexcludes : 1d\nbuild: a:b".toList =
        "gantt".toList :: ["plan: 1d".toList, "section A".toList, "section A".toList,
          "excludes : 1d".toList, "build: a:b".toList] := by decide
  have hbuild : lineTask? "build: a:b".toList =
      some ⟨"build", some "a:b", .normal, none, none, none⟩ := by decide
  obtain ⟨⟨chart, hparse, htasks, hnames, hplace⟩, -⟩ := tasks_read_back hlines (by decide)
  exact ⟨chart, hparse, htasks, hnames, hplace
    ["plan: 1d".toList, "section A".toList, "section A".toList, "excludes : 1d".toList]
    "build: a:b".toList [] _ rfl hbuild⟩

end TextDiagram.GanttChart
