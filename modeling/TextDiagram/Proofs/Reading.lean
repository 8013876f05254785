import TextDiagram.Diagram
import TextDiagram.Proofs.Text.Lines
/-!
# Reading line by line

A reading is what has been made of the lines so far, for diagrams of all kinds. The first significant
line starts it, every further one is read into it, and at the end it is finished. Lines that are added
to a text after a break are read into the reading of the text.

Main statements:

* `Diagram.parse_eq`: a text is parsed by finishing its reading.
* `Reading.ofText_append`: reading goes on where a text ends.
* `Reading.parse_of_splitLines`, `Reading.exists_of_parse`: reading goes on inside a text.
-/

namespace TextDiagram

namespace Diagram

/-- A relation of a diagram of any kind. The slices of a pie chart and the tasks of a Gantt chart count
as relations too. -/
inductive Link where
  | edge (e : FlowEdge)
  | message (m : Message)
  | slice (s : PieSlice)
  | relationship (r : ClassRelationship)
  | transition (t : StateTransition)
  | task (t : GanttTask)
  | entityRelationship (r : EntityRelationship)
  deriving DecidableEq, Repr, Inhabited

/-- The relations of a diagram as declared. -/
def links : Diagram → List Link
  | flowchart chart => chart.edges.map .edge
  | sequence d => d.messages.map .message
  | pie chart => chart.slices.map .slice
  | classes d => d.relationships.map .relationship
  | states d => d.transitions.map .transition
  | gantt chart => chart.tasks.map .task
  | entities d => d.relationships.map .entityRelationship

/-- The names of the entities of a diagram: nodes, participants, classes, states, sections and
entities in the narrow sense. A pie chart has none. -/
def entityNames : Diagram → List String
  | flowchart chart => Keyed.keys chart.nodes
  | sequence d => Keyed.keys d.participants
  | pie _ => []
  | classes d => Keyed.keys d.classes
  | states d => Keyed.keys d.states
  | gantt chart => chart.sections.map (·.name)
  | entities d => Keyed.keys d.entities

end Diagram

/-- A diagram of any kind while it is read. -/
inductive Reading where
  | flowchart (direction : Direction) (draft : Flowchart.Draft)
  | sequence (diagram : SequenceDiagram)
  | pie (chart : PieChart)
  | classes (draft : ClassDiagram.Draft)
  | states (diagram : StateDiagram)
  | gantt (chart : GanttChart)
  | entities (draft : EntityDiagram.Draft)
  deriving DecidableEq, Repr, Inhabited

namespace Reading

/-- A diagram of which only the header has been read. -/
def start (kind : DiagramKind) (header : Line) : Reading :=
  match kind with
  | .flowchart => .flowchart ((Direction.ofLine? header).getD .topDown) .empty
  | .sequence => .sequence ⟨[], []⟩
  | .pie => .pie (PieChart.ofHeader header)
  | .classes => .classes .empty
  | .states => .states ⟨[], [], .topDown⟩
  | .gantt => .gantt ⟨none, none, []⟩
  | .entities => .entities .empty

/-- Reads one line. -/
def readLine : Reading → Line → Reading
  | flowchart direction d, line => flowchart direction (d.apply (Flowchart.Statement.ofLine line))
  | sequence d, line =>
    sequence (SequenceDiagram.Statement.apply d (SequenceDiagram.Statement.ofLine line))
  | pie chart, line => pie (PieChart.Statement.apply chart (PieChart.Statement.ofLine line))
  | classes d, line => classes (d.readLine line)
  | states d, line => states (StateDiagram.Statement.apply d (StateDiagram.Statement.ofLine line))
  | gantt chart, line => gantt (GanttChart.Statement.apply chart (GanttChart.Statement.ofLine line))
  | entities d, line => entities (d.readLine line)

/-- The reading after some lines. -/
def readLines (s : Reading) (lines : List Line) : Reading := lines.foldl readLine s

/-- The diagram as it stands at the end of the text. -/
def finish : Reading → Diagram
  | flowchart direction d => .flowchart (d.finish.chart direction)
  | sequence d => .sequence d
  | pie chart => .pie chart
  | classes d => .classes d.diagram
  | states d => .states { d with states := Keyed.sorted d.states }
  | gantt chart => .gantt chart
  | entities d => .entities d.diagram

/-- The kind of the diagram. -/
def kind : Reading → DiagramKind
  | flowchart _ _ => .flowchart
  | sequence _ => .sequence
  | pie _ => .pie
  | classes _ => .classes
  | states _ => .states
  | gantt _ => .gantt
  | entities _ => .entities

/-- The relations read so far. -/
def links : Reading → List Diagram.Link
  | flowchart _ d => d.edges.map .edge
  | sequence d => d.messages.map .message
  | pie chart => chart.slices.map .slice
  | classes d => d.relationships.map .relationship
  | states d => d.transitions.map .transition
  | gantt chart => chart.tasks.map .task
  | entities d => d.relationships.map .entityRelationship

/-- The names of the entities read so far, in the order of first mention. -/
def entityNames : Reading → List String
  | flowchart _ d => Keyed.keys d.nodes
  | sequence d => Keyed.keys d.participants
  | pie _ => []
  | classes d => Keyed.keys d.classes
  | states d => Keyed.keys d.states
  | gantt chart => chart.sections.map (·.name)
  | entities d => Keyed.keys d.entities

/-- The reading of the significant lines of a text. -/
def ofLines : List Line → Except ParseError Reading
  | [] => .error .emptyInput
  | header :: lines =>
    let keyword := String.ofList (Text.firstWord header)
    match DiagramKind.ofKeyword? keyword with
    | some kind => .ok ((start kind header).readLines lines)
    | none => .error (.unknownKind keyword)

/-- The reading of a text. -/
def ofText (text : String) : Except ParseError Reading :=
  ofLines (Text.significantLines text.toList)

/-- Reading a flowchart reads its draft. -/
theorem readLines_flowchart (direction : Direction) (d : Flowchart.Draft) (lines : List Line) :
    (flowchart direction d).readLines lines = flowchart direction (d.readLines lines) :=
  List.foldl_hom (flowchart direction) fun _ _ => rfl

/-- Reading a pie chart. -/
theorem readLines_pie (chart : PieChart) (lines : List Line) :
    (pie chart).readLines lines = pie (PieChart.readLines chart lines) :=
  List.foldl_hom pie fun _ _ => rfl

/-- Reading a class diagram reads its draft. -/
theorem readLines_classes (d : ClassDiagram.Draft) (lines : List Line) :
    (classes d).readLines lines = classes (d.readLines lines) :=
  List.foldl_hom classes fun _ _ => rfl

/-- Reading an entity diagram reads its draft. -/
theorem readLines_entities (d : EntityDiagram.Draft) (lines : List Line) :
    (entities d).readLines lines = entities (d.readLines lines) :=
  List.foldl_hom entities fun _ _ => rfl

/-- Reading line by line gives the diagram of all lines. -/
theorem finish_readLines_start (kind : DiagramKind) (header : Line) (lines : List Line) :
    ((start kind header).readLines lines).finish = Diagram.ofLines kind header lines := by
  -- The lines act on the draft of the kind alone.
  cases kind with
  | flowchart => exact congrArg finish (readLines_flowchart _ _ lines)
  | sequence => exact congrArg finish (List.foldl_hom sequence fun _ _ => rfl)
  | pie => exact congrArg finish (readLines_pie _ lines)
  | classes => exact congrArg finish (readLines_classes _ lines)
  | states => exact congrArg finish (List.foldl_hom states fun _ _ => rfl)
  | gantt => exact congrArg finish (List.foldl_hom gantt fun _ _ => rfl)
  | entities => exact congrArg finish (readLines_entities _ lines)

end Reading

/-- A text is parsed by finishing its reading. -/
theorem Diagram.parse_eq (text : String) : parse text = (Reading.ofText text).map Reading.finish := by
  unfold parse parseLines Reading.ofText Reading.ofLines
  cases Text.significantLines text.toList with
  | nil => rfl
  | cons header lines =>
    simp only
    cases DiagramKind.ofKeyword? (String.ofList (Text.firstWord header)) with
    | none => rfl
    | some kind => exact congrArg Except.ok (Reading.finish_readLines_start kind header lines).symm

/-- Whatever is parsed is a reading that has been finished. -/
theorem Diagram.exists_ofText_of_parse {text : String} {d : Diagram} (h : parse text = .ok d) :
    ∃ s, Reading.ofText text = .ok s ∧ s.finish = d := by
  rw [parse_eq] at h
  cases hs : Reading.ofText text with
  | error e =>
    rw [hs] at h
    cases h
  | ok s =>
    rw [hs] at h
    exact ⟨s, rfl, Except.ok.inj h⟩

/-- What stays alike when a block is closed is alike at the end, if as many blocks are open. -/
theorem Flowchart.Draft.finish_congr {β : Type} {f : Draft → β}
    (hclose : ∀ {d d' : Draft}, f d = f d' → f d.close = f d'.close) {d d' : Draft}
    (hblocks : d.openBlocks.length = d'.openBlocks.length) (h : f d = f d') :
    f d.finish = f d'.finish := by
  have hrepeat : ∀ n, f (Nat.repeat close n d) = f (Nat.repeat close n d') := by
    intro n
    induction n with
    | zero => exact h
    | succ n ih => exact hclose ih
  rw [finish, finish, hblocks]
  exact hrepeat _

namespace Reading

/-- Finishing keeps the kind. -/
theorem kind_finish (s : Reading) : s.finish.kind = s.kind := by
  cases s <;> rfl

/-- Blocks that are still open at the end have no bearing on anything but the blocks. -/
theorem exists_finish_eq (d : Flowchart.Draft) :
    ∃ subgraphs, d.finish = { d with openBlocks := [], subgraphs := subgraphs } := by
  have hclose : ∀ d : Flowchart.Draft, ∃ blocks subgraphs,
      d.close = { d with openBlocks := blocks, subgraphs := subgraphs } := by
    intro d
    unfold Flowchart.Draft.close
    split <;> exact ⟨_, _, rfl⟩
  have hrepeat : ∀ n : Nat, ∃ blocks subgraphs, Nat.repeat Flowchart.Draft.close n d =
      { d with openBlocks := blocks, subgraphs := subgraphs } := by
    intro n
    induction n with
    | zero => exact ⟨_, _, rfl⟩
    | succ n ih =>
      obtain ⟨blocks, subgraphs, ih⟩ := ih
      rw [Nat.repeat, ih]
      exact hclose { d with openBlocks := blocks, subgraphs := subgraphs }
  obtain ⟨blocks, subgraphs, hfinish⟩ := hrepeat d.openBlocks.length
  have hopen := d.finish_openBlocks
  rw [Flowchart.Draft.finish, hfinish] at hopen
  obtain rfl : blocks = [] := hopen
  exact ⟨subgraphs, hfinish⟩

/-- Closing the open blocks adds no edge and no node. -/
theorem edges_nodes_finish (d : Flowchart.Draft) :
    d.finish.edges = d.edges ∧ d.finish.nodes = d.nodes := by
  obtain ⟨subgraphs, hfinish⟩ := exists_finish_eq d
  rw [hfinish]
  exact ⟨rfl, rfl⟩

/-- Finishing adds no link. -/
theorem links_finish (s : Reading) : s.finish.links = s.links := by
  cases s with
  | flowchart direction d => exact congrArg (List.map Diagram.Link.edge) (edges_nodes_finish d).1
  | _ => rfl

/-- At the end entities may be sorted. -/
theorem perm_entityNames_finish (s : Reading) : s.finish.entityNames.Perm s.entityNames := by
  cases s with
  | flowchart direction d =>
    have hnodes : Keyed.keys d.finish.nodes = Keyed.keys d.nodes :=
      congrArg Keyed.keys (edges_nodes_finish d).2
    exact .of_eq hnodes
  | classes d => exact (Keyed.perm_sorted d.classes).map Keyed.key
  | states d => exact (Keyed.perm_sorted d.states).map Keyed.key
  | entities d => exact (Keyed.perm_sorted d.entities).map Keyed.key
  | _ => exact .refl _

/-- Nodes and participants stay in the order of first mention. -/
theorem entityNames_finish {s : Reading} (h : s.kind = .flowchart ∨ s.kind = .sequence) :
    s.finish.entityNames = s.entityNames := by
  cases s with
  | flowchart direction d => exact congrArg Keyed.keys (edges_nodes_finish d).2
  | sequence d => rfl
  | _ => simp [kind] at h

/-- Reading lines one part after the other. -/
theorem readLines_append (s : Reading) (lines more : List Line) :
    s.readLines (lines ++ more) = (s.readLines lines).readLines more := List.foldl_append

/-- No line changes the kind. -/
theorem kind_readLine (s : Reading) (line : Line) : (s.readLine line).kind = s.kind := by
  cases s <;> rfl

/-- No lines change the kind. -/
theorem kind_readLines (s : Reading) (lines : List Line) : (s.readLines lines).kind = s.kind := by
  induction lines generalizing s with
  | nil => rfl
  | cons line lines ih => exact (ih (s.readLine line)).trans (kind_readLine s line)

/-- The lines below the header have been read into a diagram of which only the header had been read. -/
theorem eq_readLines_start {header : Line} {lines : List Line} {s : Reading}
    (h : ofLines (header :: lines) = .ok s) : s = (start s.kind header).readLines lines := by
  unfold ofLines at h
  simp only at h
  split at h
  · next kind _ =>
    obtain rfl := Except.ok.inj h
    have hkind : (start kind header).kind = kind := by cases kind <;> rfl
    rw [kind_readLines, hkind]
  · cases h

/-- Lines below those that have been read are read into their reading. -/
theorem ofLines_append {lines : List Line} {s : Reading} (h : ofLines lines = .ok s)
    (more : List Line) : ofLines (lines ++ more) = .ok (s.readLines more) := by
  -- The lines have been read, so the header is in them and not in what follows.
  cases lines with
  | nil => cases h
  | cons header lines =>
    unfold ofLines at h ⊢
    simp only [List.cons_append] at h ⊢
    cases hkind : DiagramKind.ofKeyword? (String.ofList (Text.firstWord header)) with
    | none =>
      rw [hkind] at h
      cases h
    | some kind =>
      rw [hkind] at h
      cases h
      exact congrArg Except.ok List.foldl_append

/-- The first lines have been read if all lines have, as the header is one of them. -/
theorem exists_ofLines_of_append {lines more : List Line} {whole : Reading}
    (h : ofLines (lines ++ more) = .ok whole) (hheader : lines ≠ []) :
    ∃ s, ofLines lines = .ok s ∧ s.kind = whole.kind ∧ s.readLines more = whole := by
  obtain ⟨header, lines, rfl⟩ := List.exists_cons_of_ne_nil hheader
  cases hs : ofLines (header :: lines) with
  | error e =>
    -- A header that is refused is refused with all that follows it.
    unfold ofLines at hs h
    simp only [List.cons_append] at hs h
    cases hkind : DiagramKind.ofKeyword? (String.ofList (Text.firstWord header)) with
    | none =>
      rw [hkind] at h
      cases h
    | some kind =>
      rw [hkind] at hs
      cases hs
  | ok s =>
    rw [ofLines_append hs] at h
    obtain rfl := Except.ok.inj h
    exact ⟨s, rfl, (kind_readLines s more).symm, rfl⟩

/-- What follows a text after a line break is read into the reading of the text. -/
theorem ofText_append {text : String} {s : Reading} (h : ofText text = .ok s) {c : Char}
    (hc : Text.isLineBreak c = true) (more : String) :
    ofText (text ++ String.singleton c ++ more) =
      .ok (s.readLines (Text.significantLines more.toList)) := by
  have hchars : (text ++ String.singleton c ++ more).toList = text.toList ++ c :: more.toList := by
    simp
  rw [ofText, hchars, Text.significantLines_append hc]
  exact ofLines_append h (Text.significantLines more.toList)

/-- A significant line below a text is read last, without the blanks at its ends. -/
theorem parse_append_significant {text : String} {s : Reading} (h : ofText text = .ok s)
    {line : String} (hline : ∀ c ∈ line.toList, Text.isLineBreak c = false) {kept : Line}
    (hsignificant : Text.significant? line.toList = some kept) :
    Diagram.parse (text ++ "\n" ++ line) = .ok (s.readLine kept).finish := by
  have hfeed : "\n" = String.singleton '\n' := by decide
  rw [Diagram.parse_eq, hfeed, ofText_append h (by decide),
    Text.significantLines_of_forall_not_isLineBreak hline, hsignificant]
  rfl

/-- A diagram with one more line below, if the line is trimmed. -/
theorem parse_append_line {text : String} {s : Reading} (h : ofText text = .ok s) {line : String}
    (hline : ∀ c ∈ line.toList, Text.isLineBreak c = false)
    (hsignificant : Text.significant? line.toList = some line.toList) :
    Diagram.parse (text ++ "\n" ++ line) = .ok (s.readLine line.toList).finish :=
  parse_append_significant h hline hsignificant

/-! ## Lines with one effect -/

/-- Outside of blocks the line changes what has been read in one way and in no other: so it does where it
is read, and so it does at the end of a text, unless line breaks cut it into pieces. -/
structure HasEffect {δ : Type} (reading : δ → Reading) (outside : δ → Prop) (effect : δ → δ)
    (line : String) : Prop where
  reads : ∀ d, outside d → (reading d).readLine line.toList = reading (effect d)
  parses : (∀ c ∈ line.toList, Text.isLineBreak c = false) → ∀ (text : String) (d : δ),
    ofText text = .ok (reading d) → outside d →
      Diagram.parse (text ++ "\n" ++ line) = .ok (reading (effect d)).finish

/-- What is read of a line at the end of a text is what is left of it without the blanks at its ends. -/
theorem HasEffect.of_significant {δ : Type} {reading : δ → Reading} {outside : δ → Prop}
    {effect : δ → δ} {line : String} {kept : Line}
    (hsignificant : Text.significant? line.toList = some kept)
    (hreads : ∀ d, outside d → (reading d).readLine line.toList = reading (effect d))
    (hkept : ∀ d, outside d → (reading d).readLine kept = reading (effect d)) :
    HasEffect reading outside effect line where
  reads := hreads
  parses hwhole text d htext hd := by
    rw [parse_append_significant htext hwhole hsignificant, hkept d hd]

/-! ## Lines in the middle of a text -/

variable {text : String} {d : Diagram} {s : Reading} {before after : List Line}

/-- A text is parsed from the reading of its first lines, whatever else it has been read from. -/
theorem parse_of_splitLines (h : ofLines (Text.significant before) = .ok s)
    (hsplit : Text.splitLines text.toList = before ++ after) :
    Diagram.parse text = .ok (s.readLines (Text.significant after)).finish := by
  rw [Diagram.parse_eq, ofText, Text.significantLines_eq, hsplit, Text.significant_append,
    ofLines_append h]
  rfl

/-- The first lines of a text that is parsed have been read, if the header is one of them. -/
theorem exists_of_parse (h : Diagram.parse text = .ok d)
    (hsplit : Text.splitLines text.toList = before ++ after)
    (hheader : Text.significant before ≠ []) :
    ∃ s, ofLines (Text.significant before) = .ok s ∧ s.kind = d.kind ∧
      (s.readLines (Text.significant after)).finish = d := by
  obtain ⟨whole, hwhole, hfinish⟩ := Diagram.exists_ofText_of_parse h
  rw [ofText, Text.significantLines_eq, hsplit, Text.significant_append] at hwhole
  obtain ⟨s, hs, hkind, hlines⟩ := exists_ofLines_of_append hwhole hheader
  refine ⟨s, hs, ?_, ?_⟩
  · rw [hkind, ← hfinish, kind_finish]
  · rw [hlines, hfinish]

/-- A line that could not be the header of a text that is parsed stands below the header. -/
theorem significant_ne_nil_of_parse (h : Diagram.parse text = .ok d) {line kept : Line}
    (hsplit : Text.splitLines text.toList = before ++ line :: after)
    (hline : Text.significant? line = some kept)
    (hkept : DiagramKind.ofKeyword? (String.ofList (Text.firstWord kept)) = none) :
    Text.significant before ≠ [] := by
  intro hbefore
  obtain ⟨s, hs, -⟩ := Diagram.exists_ofText_of_parse h
  rw [ofText, Text.significantLines_eq, hsplit, Text.significant_append, hbefore,
    Text.significant_cons, hline] at hs
  simp only [List.nil_append, Option.toList_some, List.singleton_append, ofLines, hkept] at hs
  cases hs

end Reading

end TextDiagram
