import TextDiagram.Proofs.ClassDiagram.Layout
import TextDiagram.Proofs.EntityDiagram.Layout
import TextDiagram.Proofs.Flowchart.Layout
import TextDiagram.Proofs.Gantt.Layout
import TextDiagram.Proofs.Sequence.Layout
import TextDiagram.Proofs.StateDiagram.Layout
/-!
# Every diagram that can be read can be placed

Placement looks things up under the names that relations mention. What is read from a text mentions
only names of its own entities, and each of those is placed, so every look-up succeeds. Pie charts
are left out: they can fail, and they have no relations.

Main statements:

* `Layout.linked_of_lists`: a layout that lists a well-referenced diagram is linked like it.
* `Diagram.exists_layout_holds`, `Diagram.exists_layout_touches`: well-referenced diagrams.
* `Diagram.layout_complete_of_parse`: the layout of what is read from any text.
-/

namespace TextDiagram

/-- No width, height, radius or distance of rows is negative. -/
structure Config.NonNegativeSizes (config : Config) : Prop where
  nodeWidth : 0 ≤ config.nodeWidth
  nodeHeight : 0 ≤ config.nodeHeight
  stateWidth : 0 ≤ config.stateWidth
  stateHeight : 0 ≤ config.stateHeight
  startEndRadius : 0 ≤ config.startEndRadius
  classBoxWidth : 0 ≤ config.classBoxWidth
  classHeaderHeight : 0 ≤ config.classHeaderHeight
  classMemberHeight : 0 ≤ config.classMemberHeight
  entityWidth : 0 ≤ config.entityWidth
  entityHeaderHeight : 0 ≤ config.entityHeaderHeight
  entityAttributeHeight : 0 ≤ config.entityAttributeHeight
  messageSpacing : 0 ≤ config.messageSpacing

theorem Config.nonNegativeSizes_ofTheme (theme : Theme) : (ofTheme theme).NonNegativeSizes := by
  cases theme <;> constructor <;> decide

/-- Placed entities and relations have the names of those that they were made of. -/
theorem Linked.of_placed {α β γ δ ε : Type} [Keyed β] {entities : List β} {relations : List γ}
    {ends : γ → String × String} {placed : List δ} {entity : δ → β}
    {outline : δ → String × Outline α} {ways : List ε} {relation : ε → γ} {link : ε → Link α}
    (h : Linked (Keyed.keys entities) (relations.map ends))
    (hentities : placed.map entity = entities) (hrelations : ways.map relation = relations)
    (houtline : ∀ p, (outline p).1 = Keyed.key (entity p))
    (hlink : ∀ w, ((link w).source, (link w).target) = ends (relation w)) :
    Linked (Keyed.keys (placed.map outline))
      ((ways.map link).map fun link => (link.source, link.target)) := by
  -- Outlines have the names of the entities in the same order, and links the ends of the relations.
  have hkeys : Keyed.keys (placed.map outline) = Keyed.keys entities := by
    rw [← hentities, Keyed.keys, Keyed.keys, List.map_map, List.map_map]
    exact List.map_congr_left fun p _ => houtline p
  have hends : (ways.map link).map (fun link => (link.source, link.target)) =
      relations.map ends := by
    rw [← hrelations, List.map_map, List.map_map]
    exact List.map_congr_left fun w _ => hlink w
  rw [hkeys, hends]
  exact h

/-- The names of outlines and the ends of links are those of the diagram. -/
theorem Layout.linked_of_lists {α : Type} {l : Layout α} {d : Diagram} (h : l.Lists d)
    (hd : d.WellReferenced) :
    Linked (Keyed.keys l.outlines) (l.links.map fun link => (link.source, link.target)) := by
  -- A layout lists the parts of a diagram of its own kind only.
  cases d with
  | flowchart d =>
    cases l with
    | flowchart l => exact hd.linked.of_placed h.1 h.2 (fun _ => rfl) fun _ => rfl
    | _ => exact h.elim
  | sequence d =>
    cases l with
    | sequence l => exact Linked.of_placed hd h.1 h.2 (fun _ => rfl) fun _ => rfl
    | _ => exact h.elim
  | classes d =>
    cases l with
    | classes l => exact hd.linked.of_placed h.1 h.2 (fun _ => rfl) fun _ => rfl
    | _ => exact h.elim
  | states d =>
    cases l with
    | states l => exact hd.linked.of_placed h.1 h.2 (fun _ => rfl) fun _ => rfl
    | _ => exact h.elim
  | entities d =>
    cases l with
    | entities l => exact hd.linked.of_placed h.1 h.2 (fun _ => rfl) fun _ => rfl
    | _ => exact h.elim
  | pie d => cases l <;> exact h.elim
  | gantt d =>
    cases l with
    | gantt l => exact Linked.nil
    | _ => exact h.elim

namespace Diagram

variable {config : Config} {d : Diagram}

/-- A well-referenced diagram can be placed, in whatever arithmetic. -/
theorem exists_layout_holds (α : Type) [Scalar α] [Trig α] (hcolors : config.ganttColors ≠ [])
    (hd : d.WellReferenced) (hkind : d.kind ≠ .pie) :
    ∃ l : Layout α, d.layout config = .ok l ∧ l.Lists d ∧
      Attached Outline.Holds l.outlines l.links := by
  cases d with
  | flowchart d =>
    rcases Flowchart.exists_layout α config hd with ⟨l, hl, hnodes, hedges, hframed⟩
    have hlists : (Layout.flowchart l).Lists (.flowchart d) := ⟨hnodes, hedges⟩
    exact ⟨_, congrArg (Except.map Layout.flowchart) hl, hlists,
      hframed.holds (Layout.linked_of_lists hlists hd)⟩
  | sequence d =>
    rcases SequenceDiagram.exists_layout α config hd with ⟨l, hl, hplaced, hsent, hrows⟩
    have hlists : (Layout.sequence l).Lists (.sequence d) := ⟨hplaced, hsent⟩
    exact ⟨_, congrArg (Except.map Layout.sequence) hl, hlists,
      SequenceDiagram.InRow.holds (Layout.linked_of_lists hlists hd).nodup hrows⟩
  | pie d => exact absurd rfl hkind
  | classes d =>
    rcases ClassDiagram.exists_layout α config hd with ⟨l, hl, hboxes, hlines, hconnected⟩
    have hlists : (Layout.classes l).Lists (.classes d) := ⟨hboxes, hlines⟩
    have hlinked := Layout.linked_of_lists hlists hd
    exact ⟨_, congrArg (Except.map Layout.classes) hl, hlists,
      (hconnected.framed hlinked.nodup).holds hlinked⟩
  | states d =>
    rcases StateDiagram.exists_layout α config hd with ⟨l, hl, hstates, hmoves, hframed⟩
    have hlists : (Layout.states l).Lists (.states d) := ⟨hstates, hmoves⟩
    exact ⟨_, congrArg (Except.map Layout.states) hl, hlists,
      hframed.holds (Layout.linked_of_lists hlists hd)⟩
  | gantt d =>
    rcases GanttChart.exists_layout α d hcolors with ⟨l, hl, htasks⟩
    -- Tasks have no relations, so nothing is attached.
    exact ⟨.gantt l, congrArg (Except.map Layout.gantt) hl, htasks, Attached.nil⟩
  | entities d =>
    rcases EntityDiagram.exists_layout α config hd with ⟨l, hl, hboxes, hlines, hconnected⟩
    have hlists : (Layout.entities l).Lists (.entities d) := ⟨hboxes, hlines⟩
    have hlinked := Layout.linked_of_lists hlists hd
    exact ⟨_, congrArg (Except.map Layout.entities) hl, hlists,
      (hconnected.framed hlinked.nodup).holds hlinked⟩

/-- In exact arithmetic and without negative sizes relations run from boundary to boundary, and
from lifeline to lifeline. -/
theorem exists_layout_touches [Trig Rat] (hcolors : config.ganttColors ≠ [])
    (hsizes : config.NonNegativeSizes) (hd : d.WellReferenced) (hkind : d.kind ≠ .pie) :
    ∃ l : Layout Rat, d.layout config = .ok l ∧ l.Lists d ∧
      Attached Outline.Touches l.outlines l.links := by
  -- Without negative sizes the sides of all frames are in order, kind by kind.
  cases d with
  | flowchart d =>
    rcases Flowchart.exists_layout Rat config hd with ⟨l, hl, hnodes, hedges, hframed⟩
    have hlists : (Layout.flowchart l).Lists (.flowchart d) := ⟨hnodes, hedges⟩
    exact ⟨_, congrArg (Except.map Layout.flowchart) hl, hlists,
      hframed.touches (Layout.linked_of_lists hlists hd)
        (Flowchart.valid_of_mem_nodeFrames hsizes.nodeWidth hsizes.nodeHeight)⟩
  | sequence d =>
    rcases SequenceDiagram.exists_layout Rat config hd with ⟨l, hl, hplaced, hsent, hrows⟩
    have hlists : (Layout.sequence l).Lists (.sequence d) := ⟨hplaced, hsent⟩
    exact ⟨_, congrArg (Except.map Layout.sequence) hl, hlists,
      SequenceDiagram.InRow.touches hsizes.messageSpacing
        (Layout.linked_of_lists hlists hd).nodup hrows⟩
  | pie d => exact absurd rfl hkind
  | classes d =>
    rcases ClassDiagram.exists_layout Rat config hd with ⟨l, hl, hboxes, hlines, hconnected⟩
    have hlists : (Layout.classes l).Lists (.classes d) := ⟨hboxes, hlines⟩
    have hlinked := Layout.linked_of_lists hlists hd
    exact ⟨_, congrArg (Except.map Layout.classes) hl, hlists,
      (hconnected.framed hlinked.nodup).touches hlinked
        (ClassDiagram.valid_of_mem_namedFrames hsizes.classBoxWidth hsizes.classHeaderHeight
          hsizes.classMemberHeight)⟩
  | states d =>
    rcases StateDiagram.exists_layout Rat config hd with ⟨l, hl, hstates, hmoves, hframed⟩
    have hlists : (Layout.states l).Lists (.states d) := ⟨hstates, hmoves⟩
    exact ⟨_, congrArg (Except.map Layout.states) hl, hlists,
      hframed.touches (Layout.linked_of_lists hlists hd)
        (StateDiagram.valid_of_mem_frames hsizes.stateWidth hsizes.stateHeight
          hsizes.startEndRadius)⟩
  | gantt d =>
    rcases GanttChart.exists_layout Rat d hcolors with ⟨l, hl, htasks⟩
    exact ⟨.gantt l, congrArg (Except.map Layout.gantt) hl, htasks, Attached.nil⟩
  | entities d =>
    rcases EntityDiagram.exists_layout Rat config hd with ⟨l, hl, hboxes, hlines, hconnected⟩
    have hlists : (Layout.entities l).Lists (.entities d) := ⟨hboxes, hlines⟩
    have hlinked := Layout.linked_of_lists hlists hd
    exact ⟨_, congrArg (Except.map Layout.entities) hl, hlists,
      (hconnected.framed hlinked.nodup).touches hlinked
        (EntityDiagram.valid_of_mem_namedFrames hsizes.entityWidth hsizes.entityHeaderHeight
          hsizes.entityAttributeHeight)⟩

/-- The layout of what is read from any text succeeds, lists every entity and every relation once
and in order, and ties every relation to its own two entities: to the middles of their sides in
whatever arithmetic, and so to their boundaries in exact arithmetic. -/
theorem layout_complete_of_parse {config : Config} (hcolors : config.ganttColors ≠ [])
    {text : String} {d : Diagram} (hparse : parse text = .ok d) (hkind : d.kind ≠ .pie) :
    (∀ (α : Type) [Scalar α] [Trig α], ∃ l : Layout α, d.layout config = .ok l ∧ l.Lists d ∧
      Attached Outline.Holds l.outlines l.links) ∧
    (config.NonNegativeSizes → ∀ [Trig Rat], ∃ l : Layout Rat, d.layout config = .ok l ∧
      l.Lists d ∧ Attached Outline.Touches l.outlines l.links) := by
  rcases exists_ofLines_of_parse hparse with ⟨kind, header, lines, rfl⟩
  have hd := wellReferenced_ofLines kind header lines
  refine ⟨?_, ?_⟩
  · intro α _ _
    exact exists_layout_holds α hcolors hd hkind
  · intro hsizes _
    exact exists_layout_touches hcolors hsizes hd hkind

/-- Two nodes and an edge between them, in the light theme. -/
theorem layout_complete_one_edge :
    ∃ d, Config.light.ganttColors ≠ [] ∧ parse "graph LR\nA-->B" = .ok d ∧ d.kind ≠ .pie ∧
      Config.light.NonNegativeSizes ∧
      (∃ l : Layout Float, d.layout Config.light = .ok l ∧ l.Lists d ∧
        Attached Outline.Holds l.outlines l.links) ∧
      ∀ [Trig Rat], ∃ l : Layout Rat, d.layout Config.light = .ok l ∧ l.Lists d ∧
        Attached Outline.Touches l.outlines l.links := by
  have hcolors : Config.light.ganttColors ≠ [] := by decide
  have hparse : parse "graph LR\nA-->B" = .ok (.flowchart
      ⟨.leftRight, [⟨"A", "A", .rectangle⟩, ⟨"B", "B", .rectangle⟩], [⟨"A", "B", none, .solid⟩],
        [], [], []⟩) := rfl
  have hsizes := Config.nonNegativeSizes_ofTheme .light
  have h := layout_complete_of_parse hcolors hparse (by decide)
  exact ⟨_, hcolors, hparse, by decide, hsizes, h.1 Float, h.2 hsizes⟩

end Diagram

end TextDiagram
