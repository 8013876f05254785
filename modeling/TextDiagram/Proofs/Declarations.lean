import TextDiagram.Proofs.Integrity
import TextDiagram.Proofs.Mention
import TextDiagram.Proofs.Reading
import TextDiagram.Proofs.Rejection
/-!
# What declarations leave behind

Nodes, participants and states may be mentioned many times, with a declaration or in passing. The three
readers take note of that in three ways of their own. What comes of it is the same: an entity keeps the
place of its first mention and has what its last declaration says, and a mention in passing changes
nothing. It is stated over the lines of a text as a whole, line by line without regard to the lines
before.

Main statements:

* `Flowchart.mentionNode_eq_note`, `SequenceDiagram.participants_apply`, `StateDiagram.states_apply`:
  what one statement does is taking note of its mentions.
* `Diagram.remembers_of_parse`: every diagram remembers the last declarations of its text.
-/

namespace TextDiagram

/-! ## Flowcharts -/

namespace NodeRef

/-- A mention of a node declares it if it has brackets; the id stands in for an empty label. -/
def mention (ref : NodeRef) : Mention FlowNode :=
  match ref.shape with
  | none => .bare ref.id
  | some shape => .declaration ⟨ref.id, (ref.label.filter (· ≠ "")).getD ref.id, shape⟩

/-- No label is read without its brackets. -/
theorem label_eq_none_of_ofText? {t : List Char} {ref : NodeRef} (h : ofText? t = some ref)
    (hshape : ref.shape = none) : ref.label = none := by
  have hbody : ∀ {t className}, body? t className = some ref → ref.label = none := by
    intro t className h
    obtain ⟨parts, -, h⟩ := Option.bind_eq_some_iff.1 h
    simp only at h
    split at h
    · obtain rfl := Option.some.inj h
      rfl
    · obtain ⟨bracketed, -, rfl⟩ := Option.map_eq_some_iff.1 h
      cases hshape
  unfold ofText? at h
  split at h
  · exact hbody h
  · exact hbody h

end NodeRef

/-- A node of which only the id is known. -/
def FlowNode.plain (id : String) : FlowNode := ⟨id, id, .rectangle⟩

namespace Flowchart

/-- The mentions of nodes in a statement, as they are written. -/
def Statement.references : Statement → List NodeRef
  | .mention ref => [ref]
  | .edge source target _ _ => [source, target]
  | _ => []

/-- What a line says about nodes. -/
def mentions (line : Line) : List (Mention FlowNode) :=
  (Statement.ofLine line).references.map NodeRef.mention

theorem exists_ofText?_of_mem_join {left right : List Char} {label : Option String}
    {style : EdgeStyle} {ref : NodeRef}
    (h : ref ∈ (Statement.join left right label style).references) :
    ∃ t, NodeRef.ofText? t = some ref := by
  unfold Statement.join at h
  split at h
  · next source target hsource htarget =>
    obtain rfl | rfl := List.mem_pair.1 h
    · exact ⟨left, hsource⟩
    · exact ⟨right, htarget⟩
  · cases h

theorem exists_ofText?_of_mem_ofNodeLine {line : Line} {ref : NodeRef}
    (h : ref ∈ (Statement.ofNodeLine line).references) : ∃ t, NodeRef.ofText? t = some ref := by
  unfold Statement.ofNodeLine at h
  split at h
  · next left style right _ =>
    obtain hskip | ⟨after, label, heq⟩ := Statement.ofEdge_eq_skip_or_join left right style
    · rw [hskip] at h
      cases h
    · exact exists_ofText?_of_mem_join (heq ▸ h)
  · split at h
    · next hread =>
      obtain rfl := List.mem_singleton.1 h
      exact ⟨line, hread⟩
    · cases h

/-- Every mention in a line has been read from some part of it. -/
theorem exists_ofText?_of_mem_references {line : Line} {ref : NodeRef}
    (h : ref ∈ (Statement.ofLine line).references) : ∃ t, NodeRef.ofText? t = some ref := by
  -- Lines of other forms mention no node, whatever else they say.
  rw [Statement.ofLine, Statement.ofBareLine] at h
  split at h
  · cases h
  split at h
  · unfold Statement.ofBlockLine at h
    split at h <;> cases h
  split at h
  · split at h <;> cases h
  split at h
  · split at h <;> cases h
  split at h
  · unfold Statement.ofClassLine at h
    split at h <;> cases h
  split at h
  · cases h
  · exact exists_ofText?_of_mem_ofNodeLine h

/-- A node is noted as it is mentioned. -/
theorem mentionNode_eq_note {ref : NodeRef} (h : ref.shape = none → ref.label = none)
    (nodes : List FlowNode) :
    Draft.mentionNode nodes ref = Mention.note FlowNode.plain nodes ref.mention := by
  obtain ⟨id, label, shape, className⟩ := ref
  cases shape with
  | none =>
    obtain rfl : label = none := h rfl
    rw [Draft.mentionNode]
    by_cases hhas : Keyed.has nodes id = true
    · simp [NodeRef.mention, Mention.note, Keyed.ensure, hhas, FlowNode.plain, Keyed.key]
    · have hnew : id ∉ Keyed.keys nodes := mt (Keyed.has_iff_mem_keys nodes id).2 hhas
      simp [NodeRef.mention, Mention.note, Keyed.ensure, hhas, FlowNode.plain, Keyed.key, NodeRef.node,
        Keyed.put_eq_append, hnew]
  | some shape =>
    have hlabel : NodeRef.node ⟨id, label, some shape, className⟩ =
        ⟨id, (label.filter (· ≠ "")).getD id, shape⟩ := by
      cases label with
      | none => rfl
      | some label =>
        by_cases hempty : label = ""
        · simp [NodeRef.node, Option.filter, hempty]
        · simp [NodeRef.node, Option.filter, hempty]
    rw [Draft.mentionNode, hlabel]
    simp [NodeRef.mention, Mention.note]

theorem nodes_apply {s : Statement} (h : ∀ ref ∈ s.references, ref.shape = none → ref.label = none)
    (d : Draft) : (d.apply s).nodes =
      (s.references.map NodeRef.mention).foldl (Mention.note FlowNode.plain) d.nodes := by
  cases s with
  | closeBlock =>
    show d.close.nodes = d.nodes
    unfold Draft.close
    split <;> rfl
  | mention ref =>
    have href := mentionNode_eq_note (h ref (by simp [Statement.references])) d.nodes
    exact href
  | edge source target label style =>
    have hsource := mentionNode_eq_note (h source (by simp [Statement.references])) d.nodes
    have htarget := mentionNode_eq_note (h target (by simp [Statement.references]))
    calc (d.apply (.edge source target label style)).nodes
        = Draft.mentionNode (Draft.mentionNode d.nodes source) target := rfl
      _ = Mention.note FlowNode.plain (Mention.note FlowNode.plain d.nodes source.mention)
            target.mention := by rw [htarget, hsource]
  | _ => rfl

theorem nodes_ofLines (header : Line) (lines : List Line) :
    (ofLines header lines).nodes =
      Mention.entities FlowNode.plain (lines.flatMap mentions) := by
  have hstep : ∀ (d : Draft) (line : Line), (d.apply (Statement.ofLine line)).nodes =
      (mentions line).foldl (Mention.note FlowNode.plain) d.nodes := by
    intro d line
    refine nodes_apply (fun ref href => ?_) d
    obtain ⟨t, ht⟩ := exists_ofText?_of_mem_references href
    exact NodeRef.label_eq_none_of_ofText? ht
  have hlines : (Draft.empty.readLines lines).nodes =
      Mention.entities FlowNode.plain (lines.flatMap mentions) :=
    Mention.entities_of_steps (fun _ => rfl) Draft.nodes (fun d _ line _ => hstep d line) rfl lines
  exact (Reading.edges_nodes_finish (Draft.empty.readLines lines)).2.trans hlines

end Flowchart

/-! ## Sequence diagrams -/

/-- A participant of which only the id is known. -/
def Participant.plain (id : String) : Participant := ⟨id, id, false⟩

namespace SequenceDiagram

/-- What a statement says about participants. -/
def Statement.mentions : Statement → List (Mention Participant)
  | .declare participant => [.declaration participant]
  | .send message => [.bare message.source, .bare message.target]
  | .skip => []

/-- What a line says about participants. -/
def mentions (line : Line) : List (Mention Participant) := (Statement.ofLine line).mentions

theorem participants_apply (d : SequenceDiagram) (s : Statement) :
    (Statement.apply d s).participants =
      s.mentions.foldl (Mention.note Participant.plain) d.participants := by
  cases s with
  | declare participant => rfl
  | send message => rfl
  | skip => rfl

theorem participants_ofLines (lines : List Line) : (ofLines lines).participants =
    Mention.entities Participant.plain (lines.flatMap mentions) :=
  Mention.entities_of_steps (fun _ => rfl) SequenceDiagram.participants
    (fun d _ line _ => participants_apply d (Statement.ofLine line)) rfl lines

end SequenceDiagram

/-! ## State diagrams -/

/-- A state with something said about it besides its label. -/
def StateNode.described (id description : String) : StateNode :=
  { StateNode.named id with description := some description }

namespace StateDiagram

/-- What a statement says about states. -/
def Statement.mentions : Statement → List (Mention StateNode)
  | .direction _ | .skip => []
  | .move transition => [.bare transition.source, .bare transition.target]
  | .declare id => [.bare id]
  | .define id description | .describe id description => [.declaration (.described id description)]

/-- What a line says about states. -/
def mentions (line : Line) : List (Mention StateNode) := (Statement.ofLine line).mentions

theorem exists_define_of_defined? {line : Line} {s : Statement}
    (h : Statement.defined? line = some s) :
    ∃ name text, Text.isIdent name = true ∧ s = .define (String.ofList name) (String.ofList text) := by
  obtain ⟨rest, -, h⟩ := Option.bind_eq_some_iff.1 h
  obtain ⟨⟨text, rest⟩, -, h⟩ := Option.bind_eq_some_iff.1 h
  simp only at h
  split at h
  · split at h
    · obtain ⟨name, -, h⟩ := Option.bind_eq_some_iff.1 h
      split at h
      · next hname => exact ⟨name, text, hname, (Option.some.inj h).symm⟩
      · cases h
    · cases h
  · cases h

theorem exists_declare_of_declared? {line : Line} {s : Statement}
    (h : Statement.declared? line = some s) : ∃ id, s = .declare id := by
  obtain ⟨rest, -, h⟩ := Option.bind_eq_some_iff.1 h
  obtain ⟨⟨name, rest⟩, -, h⟩ := Option.bind_eq_some_iff.1 h
  simp only at h
  split at h
  · exact ⟨_, (Option.some.inj h).symm⟩
  · cases h

theorem exists_describe_of_described? {line : Line} {s : Statement}
    (h : Statement.described? line = some s) : ∃ id description, s = .describe id description := by
  obtain ⟨⟨name, rest⟩, -, h⟩ := Option.bind_eq_some_iff.1 h
  simp only at h
  split at h
  · obtain ⟨text, -, rfl⟩ := Option.map_eq_some_iff.1 h
    exact ⟨_, _, rfl⟩
  · cases h

/-- A description in quotes is not for the marker. -/
theorem ne_markerId_of_ofLine {line : Line} {id description : String}
    (h : Statement.ofLine line = .define id description) : id ≠ StateNode.markerId := by
  rw [Statement.ofLine] at h
  split at h
  · split at h <;> cases h
  split at h
  · split at h <;> cases h
  · cases hread : ((Statement.defined? line).or (Statement.declared? line)).or
      (Statement.described? line) with
    | none =>
      rw [hread] at h
      cases h
    | some statement =>
      rw [hread] at h
      obtain rfl : statement = .define id description := h
      rw [Option.or_eq_some_iff, Option.or_eq_some_iff] at hread
      obtain (hread | ⟨-, hread⟩) | ⟨-, hread⟩ := hread
      · obtain ⟨name, text, hname, heq⟩ := exists_define_of_defined? hread
        cases heq
        intro hmarker
        rw [← String.ofList_toList (s := StateNode.markerId), String.ofList_inj] at hmarker
        rw [hmarker] at hname
        exact absurd hname (by decide)
      · obtain ⟨name, heq⟩ := exists_declare_of_declared? hread
        cases heq
      · obtain ⟨name, text, heq⟩ := exists_describe_of_described? hread
        cases heq

/-- A state is noted as it is mentioned, if the states so far have their ids for labels. -/
theorem states_apply {d : StateDiagram} (hnodup : (Keyed.keys d.states).Nodup)
    (hlabel : ∀ s ∈ d.states, s.label = (StateNode.named s.id).label) {line : Line} :
    (Statement.apply d (Statement.ofLine line)).states =
      (mentions line).foldl (Mention.note StateNode.named) d.states := by
  rw [mentions]
  cases hline : Statement.ofLine line with
  | define id description =>
    have hplain : StateNode.described id description = ⟨id, id, some description⟩ := by
      rw [StateNode.described, StateNode.named, if_neg (ne_markerId_of_ofLine hline)]
    simp only [Statement.mentions, hplain]
    rfl
  | describe id description =>
    refine Keyed.modify_ensure ({ · with description := some description }) (StateNode.named id) rfl
      hnodup fun s hs hkey => ?_
    have hid : s.id = id := hkey
    have hs := hlabel s hs
    rw [hid] at hs
    simp [hid, hs, StateNode.named]
  | direction chosen => rfl
  | move transition => rfl
  | declare id => rfl
  | skip => rfl

/-- Whatever is declared, the label is the id, and that of the marker is empty. -/
theorem label_of_mem_mentions {line : Line} {m : Mention StateNode} (hm : m ∈ mentions line)
    {record : StateNode} (hrecord : m.record? = some record) :
    record.label = (StateNode.named record.id).label := by
  have hdeclared : ∀ {id description : String}, m ∈ [.declaration (.described id description)] →
      record.label = (StateNode.named record.id).label := by
    intro id description hm
    obtain rfl := List.mem_singleton.1 hm
    obtain rfl := Option.some.inj hrecord
    rfl
  have hbare : ∀ id, m ≠ .bare id := by
    rintro id rfl
    cases hrecord
  rw [mentions] at hm
  cases hline : Statement.ofLine line with
  | define id description => exact hdeclared (hline ▸ hm)
  | describe id description => exact hdeclared (hline ▸ hm)
  | _ => simp [hline, Statement.mentions, hbare] at hm

theorem states_readLines (lines : List Line) : (readLines ⟨[], [], .topDown⟩ lines).states =
    Mention.entities StateNode.named (lines.flatMap mentions) := by
  refine Mention.entities_of_steps (fun _ => rfl) StateDiagram.states ?_ rfl lines
  intro d before line hd
  -- A description is added to the state that is there, so the label of that state has to be known.
  have hlabel : ∀ s ∈ Mention.entities StateNode.named (before.flatMap mentions),
      s.label = (StateNode.named s.id).label := by
    refine Mention.forall_mem_entities (fun _ => rfl) fun m hm record hrecord => ?_
    obtain ⟨line, -, hm⟩ := List.mem_flatMap.1 hm
    exact label_of_mem_mentions hm hrecord
  have hnodup : (Keyed.keys (Mention.entities StateNode.named (before.flatMap mentions))).Nodup :=
    Mention.nodup_keys_entities (fun _ => rfl) _
  rw [← hd] at hlabel hnodup
  exact states_apply hnodup hlabel

end StateDiagram

/-! ## Diagrams -/

namespace Diagram

/-- The nodes, the participants or the states of a diagram are those that some lines mention. Each has
what the last declaration of it among the lines says, or only its id if there is none. They stand in the
order of first mention, states in that of their ids. -/
def Remembers (lines : List Line) : Diagram → Prop
  | .flowchart chart =>
    chart.nodes = Mention.entities FlowNode.plain (lines.flatMap Flowchart.mentions)
  | .sequence d =>
    d.participants = Mention.entities Participant.plain (lines.flatMap SequenceDiagram.mentions)
  | .states d =>
    d.states = Keyed.sorted
      (Mention.entities StateNode.named (lines.flatMap StateDiagram.mentions))
  | .pie _ | .classes _ | .gantt _ | .entities _ => True

/-- Whatever a text says, its diagram remembers the last declarations among the lines below the
header. -/
theorem remembers_of_parse {text : String} {d : Diagram} (h : parse text = .ok d) :
    d.Remembers (Text.significantLines text.toList).tail := by
  obtain ⟨kind, header, lines, hlines, rfl⟩ := exists_significantLines_of_parse h
  rw [hlines, List.tail_cons]
  cases kind with
  | flowchart => exact Flowchart.nodes_ofLines header lines
  | sequence => exact SequenceDiagram.participants_ofLines lines
  | states => exact congrArg Keyed.sorted (StateDiagram.states_readLines lines)
  | _ => trivial

/-- A node, a participant and a state that are declared anew between mentions in passing. -/
theorem remembers_of_parse_redeclared :
    (∃ chart, parse "flowchart TD\nA[Alpha] --> B\nC --> A\nA(One)\nA --> A" =
        .ok (.flowchart chart) ∧
      chart.nodes = [⟨"A", "One", .rounded⟩, ⟨"B", "B", .rectangle⟩, ⟨"C", "C", .rectangle⟩] ∧
      (Diagram.flowchart chart).Remembers
        (Text.significantLines
          "flowchart TD\nA[Alpha] --> B\nC --> A\nA(One)\nA --> A".toList).tail) ∧
    (∃ d, parse "sequenceDiagram\nactor A\nB->A: x\nparticipant A as Ann\nA->B: y" =
        .ok (.sequence d) ∧
      d.participants = [⟨"A", "Ann", false⟩, ⟨"B", "B", false⟩] ∧
      (Diagram.sequence d).Remembers
        (Text.significantLines
          "sequenceDiagram\nactor A\nB->A: x\nparticipant A as Ann\nA->B: y".toList).tail) ∧
    (∃ d, parse "stateDiagram\nstate \"one\" as A\n[*] --> A\nA : two\nstate A" =
        .ok (.states d) ∧
      d.states = [⟨"A", "A", some "two"⟩, ⟨"[*]", "", none⟩] ∧
      (Diagram.states d).Remembers
        (Text.significantLines
          "stateDiagram\nstate \"one\" as A\n[*] --> A\nA : two\nstate A".toList).tail) :=
  ⟨⟨_, rfl, rfl, remembers_of_parse rfl⟩, ⟨_, rfl, rfl, remembers_of_parse rfl⟩,
    ⟨_, rfl, rfl, remembers_of_parse rfl⟩⟩

end Diagram

end TextDiagram
