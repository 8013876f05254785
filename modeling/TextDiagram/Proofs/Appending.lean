import Mathlib.Data.List.Perm.Subperm
import TextDiagram.Proofs.Integrity
import TextDiagram.Proofs.Rejection
/-!
# Appending lines

A reader only ever adds. A line adds at most one relation and at most two entities, each behind those
that are there, so a text with more lines is read into a diagram that continues that of the text. A
line that is tried as a relation but rejected does not even touch what has been read.

Main statements:

* `Reading.continues_readLine`: what one line adds.
* `Reading.continues_readLines`: what some lines add.
* `Diagram.parse_append_continues`: what lines add that are appended to any text.
-/

namespace TextDiagram

/-! ## Lists that grow at the end -/

/-- The list has been continued by at most so many entries. -/
def Grown {β : Type} (n : Nat) (entries longer : List β) : Prop :=
  ∃ more, longer = entries ++ more ∧ more.length ≤ n

namespace Grown

variable {β γ : Type} {n m : Nat} {entries longer longest : List β}

theorem refl (n : Nat) (entries : List β) : Grown n entries entries :=
  ⟨[], (List.append_nil entries).symm, Nat.zero_le n⟩

/-- One more entry at the end. -/
theorem snoc (entries : List β) (entry : β) : Grown 1 entries (entries ++ [entry]) :=
  ⟨[entry], rfl, Nat.le_refl 1⟩

/-- Growing twice adds the bounds. -/
theorem trans (h : Grown n entries longer) (h' : Grown m longer longest) :
    Grown (n + m) entries longest := by
  rcases h with ⟨more, rfl, hmore⟩
  rcases h' with ⟨others, rfl, hothers⟩
  refine ⟨more ++ others, List.append_assoc entries more others, ?_⟩
  rw [List.length_append]
  omega

/-- A bound may be made larger. -/
theorem mono (h : Grown n entries longer) (hle : n ≤ m) : Grown m entries longer := by
  rcases h with ⟨more, hmore, hlength⟩
  exact ⟨more, hmore, Nat.le_trans hlength hle⟩

/-- What is read off the entries grows along with them. -/
theorem map (h : Grown n entries longer) (f : β → γ) : Grown n (entries.map f) (longer.map f) := by
  rcases h with ⟨more, rfl, hlength⟩
  refine ⟨more.map f, List.map_append, ?_⟩
  rwa [List.length_map]

/-- The old list is where the grown one begins. -/
theorem isPrefix (h : Grown n entries longer) : entries <+: longer := by
  rcases h with ⟨more, rfl, -⟩
  exact List.prefix_append entries more

/-- A list grows by no more entries than the bound says. -/
theorem length_le (h : Grown n entries longer) : longer.length ≤ entries.length + n := by
  rcases h with ⟨more, rfl, hlength⟩
  rw [List.length_append]
  omega

variable [Keyed β]

/-- Keys after an entry has been put into a list or made sure of: at most its own comes last. -/
theorem of_ite {keys : List String} {k : String} (h : keys = if k ∈ Keyed.keys entries then
    Keyed.keys entries else Keyed.keys entries ++ [k]) : Grown 1 (Keyed.keys entries) keys := by
  subst h
  split
  · exact refl 1 _
  · exact snoc _ k

/-- Putting an entry adds its key, unless it is there. -/
theorem put (entries : List β) (entry : β) :
    Grown 1 (Keyed.keys entries) (Keyed.keys (Keyed.put entry entries)) :=
  of_ite (Keyed.keys_put entry entries)

/-- Ensuring an entry adds its key, unless it is there. -/
theorem ensure (entries : List β) (entry : β) :
    Grown 1 (Keyed.keys entries) (Keyed.keys (Keyed.ensure entry entries)) :=
  of_ite (Keyed.keys_ensure entry entries)

/-- The two ends of a link add two keys at most. -/
theorem ensure_pair (entries : List β) (source target : β) :
    Grown 2 (Keyed.keys entries)
      (Keyed.keys (Keyed.ensure target (Keyed.ensure source entries))) :=
  (ensure entries source).trans (ensure _ target)

end Grown

/-! ## What one line adds -/

namespace Flowchart.Draft

/-- A mention adds one node at most and never moves one. -/
theorem grown_mention (d : Draft) (ref : NodeRef) :
    Grown 1 (Keyed.keys d.nodes) (Keyed.keys (d.mention ref).nodes) := by
  change Grown 1 _ (Keyed.keys (mentionNode d.nodes ref))
  unfold mentionNode
  split
  · exact .refl 1 _
  · exact .put d.nodes ref.node

/-- A statement of a flowchart adds one edge and two nodes at most. -/
theorem grown_apply (d : Draft) (s : Statement) :
    Grown 1 d.edges (d.apply s).edges ∧
      Grown 2 (Keyed.keys d.nodes) (Keyed.keys (d.apply s).nodes) := by
  cases s with
  | closeBlock =>
    change Grown 1 d.edges d.close.edges ∧ Grown 2 _ (Keyed.keys d.close.nodes)
    unfold close
    -- Closing a block moves it among the blocks and touches no edge or node.
    split
    · exact ⟨.refl 1 _, .refl 2 _⟩
    · exact ⟨.refl 1 _, .refl 2 _⟩
  | mention ref => exact ⟨.refl 1 _, (grown_mention d ref).mono (by omega)⟩
  | edge source target label style =>
    constructor
    · exact .snoc d.edges _
    · exact (grown_mention d source).trans (grown_mention _ target)
  | _ => exact ⟨.refl 1 _, .refl 2 _⟩

end Flowchart.Draft

/-- A statement of a sequence diagram adds one message and two participants at most. -/
theorem SequenceDiagram.grown_apply (d : SequenceDiagram) (s : Statement) :
    Grown 1 d.messages (Statement.apply d s).messages ∧
      Grown 2 (Keyed.keys d.participants) (Keyed.keys (Statement.apply d s).participants) := by
  cases s with
  | declare participant =>
    exact ⟨.refl 1 _, (Grown.put d.participants participant).mono (by omega)⟩
  | send message => exact ⟨.snoc d.messages message, .ensure_pair d.participants _ _⟩
  | skip => exact ⟨.refl 1 _, .refl 2 _⟩

/-- A statement of a pie chart adds one slice at most. -/
theorem PieChart.grown_apply (chart : PieChart) (s : Statement) :
    Grown 1 chart.slices (Statement.apply chart s).slices := by
  cases s with
  | slice s => exact .snoc chart.slices s
  | _ => exact .refl 1 _

namespace ClassDiagram.Draft

/-- To change a class declares it, if need be, and nothing else. -/
theorem grown_change (d : Draft) (name : String) {f : ClassDefinition → ClassDefinition}
    (hf : ∀ c, (f c).name = c.name) :
    Grown 2 (Keyed.keys d.classes) (Keyed.keys (d.change name f).classes) := by
  change Grown 2 _ (Keyed.keys (Keyed.modify name f (declared d.classes name)))
  rw [Keyed.keys_modify hf]
  exact (Grown.ensure d.classes (.named name)).mono (by omega)

/-- A statement of a class diagram adds one relationship and two classes at most. -/
theorem grown_apply (d : Draft) (s : Statement) :
    Grown 1 d.relationships (d.apply s).relationships ∧
      Grown 2 (Keyed.keys d.classes) (Keyed.keys (d.apply s).classes) := by
  cases s with
  | openBlock name => exact ⟨.refl 1 _, (Grown.ensure d.classes (.named name)).mono (by omega)⟩
  | declare name => exact ⟨.refl 1 _, (Grown.ensure d.classes (.named name)).mono (by omega)⟩
  | stereotype name text => exact ⟨.refl 1 _, grown_change d name fun _ => rfl⟩
  | addMember name m => exact ⟨.refl 1 _, grown_change d name fun c => name_addMember c m⟩
  | relate r => exact ⟨.snoc d.relationships r, .ensure_pair d.classes _ _⟩
  | skip => exact ⟨.refl 1 _, .refl 2 _⟩

/-- Inside a block no relation and no class is added. -/
theorem applyBody_eq (d : Draft) (name : String) (line : BodyLine) :
    (d.applyBody name line).relationships = d.relationships ∧
      Keyed.keys (d.applyBody name line).classes = Keyed.keys d.classes := by
  cases line with
  | closeBlock => exact ⟨rfl, rfl⟩
  | stereotype text =>
    refine ⟨rfl, Keyed.keys_modify ?_ name d.classes⟩
    intro c
    rfl
  | member m => exact ⟨rfl, Keyed.keys_modify (fun c => name_addMember c m) name d.classes⟩
  | skip => exact ⟨rfl, rfl⟩

/-- So does a line of a class diagram; in the body of a class it adds none. -/
theorem grown_readLine (d : Draft) (line : Line) :
    Grown 1 d.relationships (d.readLine line).relationships ∧
      Grown 2 (Keyed.keys d.classes) (Keyed.keys (d.readLine line).classes) := by
  unfold readLine
  cases d.current with
  | none => exact grown_apply d (Statement.ofLine line)
  | some name =>
    -- Within a body only the members of its class change.
    have hbody := applyBody_eq d name (BodyLine.ofLine line)
    simp only [hbody]
    exact ⟨.refl 1 _, .refl 2 _⟩

end ClassDiagram.Draft

/-- A statement of a state diagram adds one transition and two states at most. -/
theorem StateDiagram.grown_apply (d : StateDiagram) (s : Statement) :
    Grown 1 d.transitions (Statement.apply d s).transitions ∧
      Grown 2 (Keyed.keys d.states) (Keyed.keys (Statement.apply d s).states) := by
  cases s with
  | direction chosen => exact ⟨.refl 1 _, .refl 2 _⟩
  | move t => exact ⟨.snoc d.transitions t, .ensure_pair d.states _ _⟩
  | define id description => exact ⟨.refl 1 _, (Grown.put d.states _).mono (by omega)⟩
  | declare id => exact ⟨.refl 1 _, (Grown.ensure d.states (.named id)).mono (by omega)⟩
  | describe id description =>
    have hkeys : Keyed.keys (Statement.apply d (.describe id description)).states =
        Keyed.keys (Statement.ensured d.states id) := by
      refine Keyed.keys_modify ?_ id (Statement.ensured d.states id)
      intro state
      rfl
    rw [hkeys]
    exact ⟨.refl 1 _, (Grown.ensure d.states (.named id)).mono (by omega)⟩
  | skip => exact ⟨.refl 1 _, .refl 2 _⟩

namespace GanttChart

/-- A task is added behind all others. -/
theorem tasks_addTask (t : GanttTask) (sections : List GanttSection) :
    (Statement.addTask t sections).flatMap (·.tasks) = sections.flatMap (·.tasks) ++ [t] := by
  induction sections with
  | nil => rfl
  | cons s more ih =>
    cases more with
    | nil => simp [Statement.addTask]
    | cons next others =>
      rw [Statement.addTask, List.flatMap_cons, List.flatMap_cons, ih, List.append_assoc]
      simp

/-- A task adds a section only if there is none. -/
theorem grown_names_addTask (t : GanttTask) (sections : List GanttSection) :
    Grown 1 (sections.map (·.name)) ((Statement.addTask t sections).map (·.name)) := by
  cases sections with
  | nil =>
    -- A task before all sections opens one of its own.
    exact .snoc [] _
  | cons s more =>
    -- The task goes into the last section, all names stay.
    have hnames : ∀ more s, (Statement.addTask t (s :: more)).map (·.name) =
        (s :: more).map (·.name) := by
      intro more
      induction more with
      | nil => exact fun _ => rfl
      | cons next others ih =>
        intro s
        rw [Statement.addTask, List.map_cons, ih next, ← List.map_cons]
        simp
    rw [hnames more s]
    exact .refl 1 _

/-- A statement of a Gantt chart adds one task and one section at most. -/
theorem grown_apply (chart : GanttChart) (s : Statement) :
    Grown 1 chart.tasks (Statement.apply chart s).tasks ∧
      Grown 1 (chart.sections.map (·.name)) ((Statement.apply chart s).sections.map (·.name)) := by
  cases s with
  | openSection name =>
    have htasks : (Statement.apply chart (.openSection name)).tasks = chart.tasks := by
      simp [Statement.apply, tasks]
    have hnames : (Statement.apply chart (.openSection name)).sections.map (·.name) =
        chart.sections.map (·.name) ++ [name] := List.map_append
    rw [htasks, hnames]
    exact ⟨.refl 1 _, .snoc _ name⟩
  | task t =>
    have htasks : (Statement.apply chart (.task t)).tasks = chart.tasks ++ [t] :=
      tasks_addTask t chart.sections
    rw [htasks]
    exact ⟨.snoc _ t, grown_names_addTask t chart.sections⟩
  | _ => exact ⟨.refl 1 _, .refl 1 _⟩

end GanttChart

namespace EntityDiagram.Draft

/-- A statement of an entity diagram adds one relationship and two entities at most. -/
theorem grown_apply (d : Draft) (s : Statement) :
    Grown 1 d.relationships (d.apply s).relationships ∧
      Grown 2 (Keyed.keys d.entities) (Keyed.keys (d.apply s).entities) := by
  cases s with
  | openBlock name => exact ⟨.refl 1 _, (Grown.ensure d.entities ⟨name, []⟩).mono (by omega)⟩
  | relate r => exact ⟨.snoc d.relationships r, .ensure_pair d.entities _ _⟩
  | skip => exact ⟨.refl 1 _, .refl 2 _⟩

/-- Inside a block no relation and no entity is added. -/
theorem applyBody_eq (d : Draft) (name : String) (line : Line) :
    (d.applyBody name line).relationships = d.relationships ∧
      Keyed.keys (d.applyBody name line).entities = Keyed.keys d.entities := by
  unfold applyBody
  split
  · exact ⟨rfl, rfl⟩
  · split
    · refine ⟨rfl, Keyed.keys_modify ?_ name d.entities⟩
      intro e
      rfl
    · exact ⟨rfl, rfl⟩

/-- So does a line of an entity diagram; in the body of an entity it adds none. -/
theorem grown_readLine (d : Draft) (line : Line) :
    Grown 1 d.relationships (d.readLine line).relationships ∧
      Grown 2 (Keyed.keys d.entities) (Keyed.keys (d.readLine line).entities) := by
  unfold readLine
  cases d.current with
  | none => exact grown_apply d (Statement.ofLine line)
  | some name =>
    have hbody := applyBody_eq d name line
    simp only [hbody]
    exact ⟨.refl 1 _, .refl 2 _⟩

end EntityDiagram.Draft

/-! ## What some lines add -/

namespace Reading

/-- The second reading is of the same diagram, with at most so many more relations and twice as many
more entities, which follow the others. -/
structure Continues (n : Nat) (s longer : Reading) : Prop where
  kind : longer.kind = s.kind
  links : Grown n s.links longer.links
  entityNames : Grown (2 * n) s.entityNames longer.entityNames

namespace Continues

variable {n m : Nat} {s longer longest : Reading}

theorem refl (s : Reading) : Continues 0 s s := ⟨rfl, .refl 0 _, .refl 0 _⟩

theorem trans (h : Continues n s longer) (h' : Continues m longer longest) :
    Continues (n + m) s longest := by
  have hkind := h'.kind.trans h.kind
  have hlinks := h.links.trans h'.links
  have hnames := h.entityNames.trans h'.entityNames
  exact ⟨hkind, hlinks, hnames.mono (by omega)⟩

end Continues

/-- One line adds at most one relation and at most two entities. -/
theorem continues_readLine (s : Reading) (line : Line) : Continues 1 s (s.readLine line) := by
  cases s with
  | flowchart direction d =>
    have h := d.grown_apply (Flowchart.Statement.ofLine line)
    exact ⟨rfl, h.1.map _, h.2⟩
  | sequence d =>
    have h := d.grown_apply (SequenceDiagram.Statement.ofLine line)
    exact ⟨rfl, h.1.map _, h.2⟩
  | pie chart =>
    exact ⟨rfl, (chart.grown_apply (PieChart.Statement.ofLine line)).map _, .refl 2 _⟩
  | classes d => exact ⟨rfl, (d.grown_readLine line).1.map _, (d.grown_readLine line).2⟩
  | states d =>
    have h := d.grown_apply (StateDiagram.Statement.ofLine line)
    exact ⟨rfl, h.1.map _, h.2⟩
  | gantt chart =>
    have h := chart.grown_apply (GanttChart.Statement.ofLine line)
    exact ⟨rfl, h.1.map _, h.2.mono (by omega)⟩
  | entities d => exact ⟨rfl, (d.grown_readLine line).1.map _, (d.grown_readLine line).2⟩

/-- Reading on continues a diagram, with bounds for each line. -/
theorem continues_readLines (s : Reading) (lines : List Line) :
    Continues lines.length s (s.readLines lines) := by
  induction lines generalizing s with
  | nil => exact .refl s
  | cons line lines ih =>
    -- The first line, then the others from the state it leads to.
    have hlines := (continues_readLine s line).trans (ih (s.readLine line))
    rwa [Nat.add_comm] at hlines

/-- A line that is tried and not rejected adds a relation. -/
theorem exists_links_readLine {s : Reading} {line : Line} (htries : s.Tries line)
    (h : ¬s.Rejects line) : ∃ link, (s.readLine line).links = s.links ++ [link] := by
  cases s with
  | flowchart direction d =>
    -- In each kind the line is either the statement that adds a link or one of the rejected forms.
    rcases htries.ofBareLine_cases.2 h with ⟨source, target, label, style, hedge⟩
    have hline : Flowchart.Statement.ofLine line = .edge source target label style := hedge
    refine ⟨.edge ⟨source.id, target.id, label, style⟩, ?_⟩
    rw [readLine, hline]
    exact List.map_append
  | sequence d =>
    rcases htries.ofLine_cases.2 h with ⟨message, hmessage⟩
    refine ⟨.message message, ?_⟩
    rw [readLine, hmessage]
    exact List.map_append
  | pie chart =>
    rcases htries.ofLine_cases.2 h with ⟨slice, hslice⟩
    refine ⟨.slice slice, ?_⟩
    rw [readLine, hslice]
    exact List.map_append
  | classes d =>
    rcases htries.2.ofLine_cases.2 h with ⟨r, hr⟩
    refine ⟨.relationship r, ?_⟩
    rw [readLine, ClassDiagram.Draft.readLine, htries.1, hr]
    exact List.map_append
  | states d =>
    rcases htries.ofLine_cases.2 h with ⟨t, ht⟩
    refine ⟨.transition t, ?_⟩
    rw [readLine, ht]
    exact List.map_append
  | gantt chart =>
    rcases htries.ofLine_cases.2 (not_not.1 h) with ⟨t, ht⟩
    refine ⟨.task t, ?_⟩
    rw [readLine, ht]
    have htasks : (GanttChart.Statement.apply chart (.task t)).tasks = chart.tasks ++ [t] :=
      GanttChart.tasks_addTask t chart.sections
    rw [links, htasks, List.map_append]
    rfl
  | entities d =>
    rcases htries.2.ofLine_cases.2 h with ⟨r, hr⟩
    refine ⟨.entityRelationship r, ?_⟩
    rw [readLine, EntityDiagram.Draft.readLine, htries.1, hr]
    exact List.map_append

end Reading

/-! ## What becomes of the diagram -/

namespace Diagram

/-- The second diagram has all that the first one has: relations as the first ones of its list, and
entities, which in a flowchart and in a sequence diagram are the first ones too. -/
structure ContinuedBy (d longer : Diagram) : Prop where
  kind : longer.kind = d.kind
  links : d.links <+: longer.links
  entities : d.entityNames.Subperm longer.entityNames
  inOrder : d.kind = .flowchart ∨ d.kind = .sequence → d.entityNames <+: longer.entityNames

end Diagram

namespace Reading.Continues

variable {n : Nat} {s longer : Reading}

/-- What continues while reading continues in the finished diagrams. -/
theorem finish (h : Continues n s longer) : s.finish.ContinuedBy longer.finish := by
  have hperm := perm_entityNames_finish s
  have hperm' := perm_entityNames_finish longer
  refine ⟨?_, ?_, ?_, ?_⟩
  · rw [kind_finish, kind_finish]
    exact h.kind
  · rw [links_finish, links_finish]
    exact h.links.isPrefix
  · -- Both lists may have been sorted, so the one need not begin with the other.
    have hgrown := h.entityNames.isPrefix.sublist.subperm
    exact hperm.subperm.trans (hgrown.trans hperm'.symm.subperm)
  · intro hkind
    rw [kind_finish] at hkind
    rw [entityNames_finish hkind, entityNames_finish (h.kind ▸ hkind)]
    exact h.entityNames.isPrefix

/-- A finished diagram has at most one more link for each line read on. -/
theorem length_links_finish (h : Continues n s longer) :
    longer.finish.links.length ≤ s.finish.links.length + n := by
  rw [links_finish, links_finish]
  exact h.links.length_le

/-- A finished diagram has at most two more entities for each line read on. -/
theorem length_entityNames_finish (h : Continues n s longer) :
    longer.finish.entityNames.length ≤ s.finish.entityNames.length + 2 * n := by
  rw [(perm_entityNames_finish s).length_eq, (perm_entityNames_finish longer).length_eq]
  exact h.entityNames.length_le

end Reading.Continues

namespace Diagram

/-- Parsing is reading to the end and finishing. -/
theorem parse_of_ofText {text : String} {s : Reading} (h : Reading.ofText text = .ok s) :
    parse text = .ok s.finish := by
  rw [parse_eq, h]
  rfl

/-- Reading is append-only and skips faulty lines as a whole. Any lines may be added to a text that is
parsed, after any line break: the diagram of the longer text continues that of the text. If one line
is added, it has at most one relation and two entities more. If that line is tried as a relation and
rejected, then nothing at all changes in what has been read, and if it is not rejected there is one
relation more. -/
theorem parse_append_continues {text : String} {d : Diagram} (hparse : parse text = .ok d) :
    ∃ s : Reading, Reading.ofText text = .ok s ∧ s.finish = d ∧
      ∀ c, Text.isLineBreak c = true →
        (∀ more : String, ∃ longer, parse (text ++ String.singleton c ++ more) = .ok longer ∧
          d.ContinuedBy longer) ∧
        ∀ line : String, (∀ b ∈ line.toList, Text.isLineBreak b = false) →
          ∃ s' : Reading, Reading.ofText (text ++ String.singleton c ++ line) = .ok s' ∧
            parse (text ++ String.singleton c ++ line) = .ok s'.finish ∧
            s'.finish.links.length ≤ d.links.length + 1 ∧
            s'.finish.entityNames.length ≤ d.entityNames.length + 2 ∧
            ∀ trimmed, Text.significant? line.toList = some trimmed → s.Tries trimmed →
              (s.Rejects trimmed → s' = s) ∧
              (¬s.Rejects trimmed → ∃ link, s'.finish.links = d.links ++ [link]) := by
  rw [parse_eq] at hparse
  cases hs : Reading.ofText text with
  | error e =>
    rw [hs] at hparse
    cases hparse
  | ok s =>
    rw [hs] at hparse
    obtain rfl : s.finish = d := Except.ok.inj hparse
    refine ⟨s, rfl, rfl, fun c hc => ⟨fun more => ?_, fun line hline => ?_⟩⟩
    · -- A line break ends the last line, so what was read stays read.
      have hmore := Reading.ofText_append hs hc more
      exact ⟨_, parse_of_ofText hmore, (s.continues_readLines _).finish⟩
    · -- One line is one significant line or none.
      have hread := Reading.ofText_append hs hc line
      rw [Text.significantLines_of_forall_not_isLineBreak hline] at hread
      refine ⟨_, hread, parse_of_ofText hread, ?_⟩
      cases htrimmed : Text.significant? line.toList with
      | none =>
        refine ⟨Nat.le_add_right _ 1, Nat.le_add_right _ 2, ?_⟩
        intro trimmed h
        cases h
      | some trimmed =>
        have hcontinues := s.continues_readLine trimmed
        refine ⟨hcontinues.length_links_finish, hcontinues.length_entityNames_finish, ?_⟩
        intro trimmed' h htries
        cases h
        constructor
        · intro hrejects
          exact Reading.readLine_of_rejects htries hrejects
        · intro hrejects
          rcases Reading.exists_links_readLine htries hrejects with ⟨link, hlinks⟩
          refine ⟨link, ?_⟩
          rw [Reading.links_finish, Reading.links_finish]
          exact hlinks

/-- Two edges after another one, and in place of them an edge with a label that is not closed. -/
theorem parse_append_open_label :
    ∃ d, parse "flowchart TD\nA-->B" = .ok d ∧
      (∃ longer, parse "flowchart TD\nA-->B\nB-->C\nC-->A" = .ok longer ∧ d.ContinuedBy longer) ∧
      parse "flowchart TD\nA-->B\nC-->|yes D" = .ok d := by
  have hparse : parse "flowchart TD\nA-->B" = .ok (.flowchart
      ⟨.topDown, [⟨"A", "A", .rectangle⟩, ⟨"B", "B", .rectangle⟩], [⟨"A", "B", none, .solid⟩],
        [], [], []⟩) := rfl
  have hreading : Reading.ofText "flowchart TD\nA-->B" = .ok (.flowchart .topDown
      ⟨[⟨"A", "A", .rectangle⟩, ⟨"B", "B", .rectangle⟩], [⟨"A", "B", none, .solid⟩],
        [], [], [], []⟩) := rfl
  have hedges : "flowchart TD\nA-->B" ++ String.singleton '\n' ++ "B-->C\nC-->A" =
      "flowchart TD\nA-->B\nB-->C\nC-->A" := by decide
  have hopen : "flowchart TD\nA-->B" ++ String.singleton '\n' ++ "C-->|yes D" =
      "flowchart TD\nA-->B\nC-->|yes D" := by decide
  have hwhole : ∀ b ∈ "C-->|yes D".toList, Text.isLineBreak b = false := by
    have hall : "C-->|yes D".toList.all (fun b => !Text.isLineBreak b) = true := by decide
    intro b hb
    simpa using List.all_eq_true.1 hall b hb
  have htrimmed : Text.significant? "C-->|yes D".toList = some "C-->|yes D".toList := by decide
  have hbare : Flowchart.Statement.bare "C-->|yes D".toList = "C-->|yes D".toList := by decide
  have hline : Flowchart.Statement.IsEdgeLine "C-->|yes D".toList :=
    ⟨⟨("-->".toList, .solid), by decide, by decide +kernel⟩, by decide +kernel⟩
  have hlabel : Text.trim "|yes D".toList = '|' :: "yes D".toList := by decide
  have hfault : Flowchart.Statement.HasEdgeFault "C-->|yes D".toList :=
    ⟨"C".toList, .solid, "|yes D".toList, by decide, .openLabel hlabel (by decide)⟩
  rcases parse_append_continues hparse with ⟨s, hs, hfinish, happend⟩
  rw [hreading] at hs
  obtain rfl := Except.ok.inj hs
  -- The general theorem, once with two more edges and once with the rejected line.
  rcases happend '\n' (by decide) with ⟨hmore, hone⟩
  rcases hone "C-->|yes D" hwhole with ⟨s', -, hlonger, -, -, htried⟩
  have hlonger' := hmore "B-->C\nC-->A"
  rw [hedges] at hlonger'
  rw [hopen] at hlonger
  rw [← hbare] at hline hfault
  have hsame := (htried _ htrimmed hline).1 hfault
  rw [hsame, hfinish] at hlonger
  exact ⟨_, hparse, hlonger', hlonger⟩

end Diagram

end TextDiagram
