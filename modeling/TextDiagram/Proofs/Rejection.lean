import TextDiagram.Proofs.Reading
import TextDiagram.Proofs.Text.Cut
/-!
# Lines that are tried as relations

In a diagram of each kind some lines are tried as relations: those with an operator that no other form
of line lays claim to, and likewise the lines of slices and tasks. Such a line is understood as a whole
or not at all. The faults that make it one of no effect are named here, kind by kind: an end that is
missing or not well formed, a colon that is missing, a label that is not closed.

Main statements:

* `Flowchart.Statement.IsEdgeLine.ofBareLine_cases` and so on: a faulty line says nothing, any other
  line a relation.
* `Reading.readLine_of_rejects`: a line that is tried but rejected leaves everything as it was.
-/

namespace TextDiagram

/-! ## Flowcharts -/

namespace Flowchart.Statement

/-- The line has an edge operator and does not start with a word that says something else. -/
structure IsEdgeLine (line : Line) : Prop where
  operator : ∃ entry ∈ edgeTokens, entry.1 <:+: line
  opening : ∀ opening ∈ ["subgraph ", "classDef ", "style "] ++ ignoredOpenings,
    ¬opening.toList <+: line

/-- What may be wrong with the texts on the two sides of an edge operator. -/
inductive EdgeFault (left right : List Char) : Prop where
  | source (h : NodeRef.ofText? left = none)
  | openLabel {rest : List Char} (hlabel : Text.trim right = '|' :: rest) (h : '|' ∉ rest)
  | labelledTarget {rest label after : List Char} (hlabel : Text.trim right = '|' :: rest)
    (hcut : Text.cut ['|'] rest = some (label, after)) (h : NodeRef.ofText? after = none)
  | target (hlabel : ∀ rest, Text.trim right ≠ '|' :: rest)
    (h : NodeRef.ofText? (Text.trim right) = none)

/-- Something is wrong with the line as an edge. -/
def HasEdgeFault (line : Line) : Prop :=
  ∃ left style right, Text.findToken edgeTokens line = some (left, style, right) ∧
    EdgeFault left right

/-- The edge between two texts that are mentions of nodes. -/
def join (left right : List Char) (label : Option String) (style : EdgeStyle) : Statement :=
  match NodeRef.ofText? left, NodeRef.ofText? right with
  | some source, some target => .edge source target label style
  | _, _ => .skip

/-- Without a bar behind the operator an edge has no label. -/
theorem ofEdge_of_forall_ne {right : List Char} (h : ∀ rest, Text.trim right ≠ '|' :: rest)
    (left : List Char) (style : EdgeStyle) :
    ofEdge left style right = join left (Text.trim right) none style := by
  unfold ofEdge
  extract_lets edge
  split
  · next rest heq => exact absurd heq (h rest)
  · rfl

/-- A label without its second bar makes the line meaningless. -/
theorem ofEdge_of_open_label {right rest : List Char} (h : Text.trim right = '|' :: rest)
    (hcut : Text.cut ['|'] rest = none) (left : List Char) (style : EdgeStyle) :
    ofEdge left style right = .skip := by
  unfold ofEdge
  simp only [h, hcut]

/-- A label ends at its second bar, and the target follows it. -/
theorem ofEdge_of_label {right rest label after : List Char} (h : Text.trim right = '|' :: rest)
    (hcut : Text.cut ['|'] rest = some (label, after)) (left : List Char) (style : EdgeStyle) :
    ofEdge left style right =
      join left after ((Text.trimmed? label).map String.ofList) style := by
  unfold ofEdge
  simp only [h, hcut]
  rfl

/-- A line with an operator is skipped or joins the texts of two mentions. -/
theorem ofEdge_eq_skip_or_join (left right : List Char) (style : EdgeStyle) :
    ofEdge left style right = .skip ∨
      ∃ after label, ofEdge left style right = join left after label style := by
  by_cases hlabel : ∃ rest, Text.trim right = '|' :: rest
  · obtain ⟨rest, hlabel⟩ := hlabel
    cases hcut : Text.cut ['|'] rest with
    | none => exact .inl (ofEdge_of_open_label hlabel hcut left style)
    | some parts => exact .inr ⟨_, _, ofEdge_of_label hlabel hcut left style⟩
  · exact .inr ⟨_, _, ofEdge_of_forall_ne (not_exists.1 hlabel) left style⟩

/-- An edge needs two ends that are read as nodes. -/
theorem join_eq_skip {left right : List Char}
    (h : NodeRef.ofText? left = none ∨ NodeRef.ofText? right = none) (label : Option String)
    (style : EdgeStyle) : join left right label style = .skip := by
  unfold join
  rcases h with h | h
  · rw [h]
  · rw [h]
    cases NodeRef.ofText? left <;> rfl

/-- An end is not read, or there is an edge. -/
theorem bad_end_or_join (left right : List Char) (label : Option String) (style : EdgeStyle) :
    NodeRef.ofText? left = none ∨ NodeRef.ofText? right = none ∨
      ∃ source target, join left right label style = .edge source target label style := by
  unfold join
  cases NodeRef.ofText? left with
  | none => exact Or.inl rfl
  | some source =>
    cases NodeRef.ofText? right with
    | none => exact Or.inr (Or.inl rfl)
    | some target => exact Or.inr (Or.inr ⟨source, target, rfl⟩)

/-- A line with a fault is skipped. -/
theorem ofEdge_of_fault {left right : List Char} (h : EdgeFault left right) (style : EdgeStyle) :
    ofEdge left style right = .skip := by
  cases h with
  | source h =>
    -- A bad source is noticed whatever stands behind the operator, a label that is not closed
    -- included.
    by_cases hlabel : ∃ rest, Text.trim right = '|' :: rest
    · rcases hlabel with ⟨rest, hlabel⟩
      cases hcut : Text.cut ['|'] rest with
      | none => exact ofEdge_of_open_label hlabel hcut left style
      | some parts =>
        rw [ofEdge_of_label hlabel hcut]
        exact join_eq_skip (Or.inl h) _ style
    · rw [ofEdge_of_forall_ne (not_exists.1 hlabel)]
      exact join_eq_skip (Or.inl h) none style
  | openLabel hlabel h =>
    exact ofEdge_of_open_label hlabel (Text.cut_singleton_eq_none_iff.2 h) left style
  | labelledTarget hlabel hcut h =>
    rw [ofEdge_of_label hlabel hcut]
    exact join_eq_skip (Or.inr h) _ style
  | target hlabel h =>
    rw [ofEdge_of_forall_ne hlabel]
    exact join_eq_skip (Or.inr h) none style

/-- A line without a fault is an edge. -/
theorem fault_or_edge (left right : List Char) (style : EdgeStyle) :
    EdgeFault left right ∨
      ∃ source target label, ofEdge left style right = .edge source target label style := by
  by_cases hlabel : ∃ rest, Text.trim right = '|' :: rest
  · rcases hlabel with ⟨rest, hlabel⟩
    cases hcut : Text.cut ['|'] rest with
    | none => exact Or.inl (.openLabel hlabel (Text.cut_singleton_eq_none_iff.1 hcut))
    | some parts =>
      rw [ofEdge_of_label hlabel hcut]
      -- With a label the target is what stands behind the second bar.
      rcases bad_end_or_join left parts.2 ((Text.trimmed? parts.1).map String.ofList) style with
        hsource | htarget | ⟨source, target, hjoin⟩
      · exact Or.inl (.source hsource)
      · exact Or.inl (.labelledTarget hlabel hcut htarget)
      · exact Or.inr ⟨source, target, _, hjoin⟩
  · have hplain := not_exists.1 hlabel
    rw [ofEdge_of_forall_ne hplain]
    rcases bad_end_or_join left (Text.trim right) none style with
      hsource | htarget | ⟨source, target, hjoin⟩
    · exact Or.inl (.source hsource)
    · exact Or.inl (.target hplain htarget)
    · exact Or.inr ⟨source, target, none, hjoin⟩

/-- A line with an operator that opens no other statement is read as nodes and edges. -/
theorem IsEdgeLine.ofBareLine_eq {line : Line} (h : IsEdgeLine line) :
    ofBareLine line = ofNodeLine line := by
  -- No other form of line is tried before nodes and edges, as the line has an operator.
  have hend : line ≠ "end".toList := by
    rintro rfl
    exact absurd h.operator (by decide)
  have hopening : ∀ opening ∈ ["subgraph ", "classDef ", "style "] ++ ignoredOpenings,
      Text.after? opening line = none :=
    fun opening hmem => Text.isPrefixOf?_eq_none_iff.2 (h.opening opening hmem)
  have hsubgraph := hopening "subgraph " (by simp)
  have hclassDef := hopening "classDef " (by simp)
  have hstyle := hopening "style " (by simp)
  have htoken : (Text.findToken edgeTokens line).isNone = false := by
    rw [Option.isNone_eq_false_iff]
    exact Text.findToken_isSome_iff.2 h.operator
  have hignored : (ignoredOpenings.any fun opening => (Text.after? opening line).isSome) = false := by
    rw [List.any_eq_false]
    intro opening hmem
    rw [hopening opening (List.mem_append_right _ hmem)]
    exact Bool.false_ne_true
  unfold ofBareLine
  rw [if_neg hend, hsubgraph, hclassDef, hstyle, htoken, hignored]
  simp

/-- A faulty edge says nothing, and any other one says that two nodes are joined. -/
theorem IsEdgeLine.ofBareLine_cases {line : Line} (h : IsEdgeLine line) :
    (HasEdgeFault line → ofBareLine line = .skip) ∧
      (¬HasEdgeFault line →
        ∃ source target label style, ofBareLine line = .edge source target label style) := by
  rw [h.ofBareLine_eq]
  rcases Option.isSome_iff_exists.1 (Text.findToken_isSome_iff.2 h.operator) with
    ⟨⟨left, style, right⟩, htoken⟩
  have hline : ofNodeLine line = ofEdge left style right := by
    rw [ofNodeLine, htoken]
  have hfault : HasEdgeFault line ↔ EdgeFault left right := Text.exists_findToken_iff htoken
  rw [hline, hfault]
  constructor
  · intro hbad
    exact ofEdge_of_fault hbad style
  · intro hgood
    rcases fault_or_edge left right style with hbad | ⟨source, target, label, hedge⟩
    · exact absurd hbad hgood
    · exact ⟨source, target, label, style, hedge⟩

end Flowchart.Statement

/-! ## Sequence diagrams -/

namespace SequenceDiagram.Statement

/-- The line has a message operator and does not declare a participant. -/
structure IsMessageLine (line : Line) : Prop where
  operator : ∃ entry ∈ messageTokens, entry.1 <:+: line
  opening : ∀ opening ∈ ["participant ", "actor "], ¬opening.toList <+: line

/-- What may be wrong with the texts on the two sides of a message operator. -/
inductive MessageFault (left right : List Char) : Prop where
  | colon (h : ':' ∉ right)
  | source (h : Text.trim left = [])
  | target (h : target (Text.beforeColon right) = [])

/-- Something is wrong with the line as a message, by whatever operator it is read. -/
def HasMessageFault (line : Line) : Prop :=
  ∀ entry ∈ messageTokens, ∀ left right, Text.cut entry.1 line = some (left, right) →
    MessageFault left right

/-- When a line is not a message with a given operator. -/
theorem message?_eq_none_iff {line left right : List Char} {entry : List Char × MessageStyle}
    (h : Text.cut entry.1 line = some (left, right)) :
    message? line entry = none ↔ MessageFault left right := by
  -- The reader fails at the colon, at the source or at the target.
  have hparts : message? line entry = none ↔
      ':' ∉ right ∨ Text.trim left = [] ∨ target (Text.beforeColon right) = [] := by
    unfold message? Text.beforeColon
    rw [h, ← Text.cut_singleton_eq_none_iff]
    simp only [Option.bind_some]
    cases Text.cut [':'] right with
    | none => simp
    | some parts => simp [or_iff_not_imp_left]
  rw [hparts]
  constructor
  · rintro (hcolon | hsource | htarget)
    · exact .colon hcolon
    · exact .source hsource
    · exact .target htarget
  · rintro (hcolon | hsource | htarget)
    · exact Or.inl hcolon
    · exact Or.inr (Or.inl hsource)
    · exact Or.inr (Or.inr htarget)

/-- A line has a fault if it is not a message with any operator. -/
theorem hasMessageFault_iff {line : Line} :
    HasMessageFault line ↔ messageTokens.findSome? (message? line) = none := by
  rw [List.findSome?_eq_none_iff]
  refine forall₂_congr fun entry _ => ?_
  constructor
  · intro hfault
    cases hcut : Text.cut entry.1 line with
    | none =>
      -- An operator that does not occur is no way to read the line.
      simp only [message?, hcut, Option.bind_none]
    | some parts => exact (message?_eq_none_iff hcut).2 (hfault parts.1 parts.2 hcut)
  · intro hnone left right hcut
    exact (message?_eq_none_iff hcut).1 hnone

/-- A faulty message says nothing, and any other one is sent. -/
theorem IsMessageLine.ofLine_cases {line : Line} (h : IsMessageLine line) :
    (HasMessageFault line → ofLine line = .skip) ∧
      (¬HasMessageFault line → ∃ message, ofLine line = .send message) := by
  have hparticipant := Text.isPrefixOf?_eq_none_iff.2 (h.opening "participant " (by simp))
  have hactor := Text.isPrefixOf?_eq_none_iff.2 (h.opening "actor " (by simp))
  unfold ofLine Text.after?
  rw [hparticipant, hactor, hasMessageFault_iff]
  cases messageTokens.findSome? (message? line) with
  | none => exact ⟨fun _ => rfl, fun h => absurd rfl h⟩
  | some message => exact ⟨fun h => (nomatch h), fun _ => ⟨message, rfl⟩⟩

end SequenceDiagram.Statement

/-! ## Pie charts -/

namespace PieChart.Statement

/-- The line starts with a double quote. -/
def IsSliceLine (line : Line) : Prop := ∃ rest, Text.trimStart line = '"' :: rest

/-- What may be wrong with the text after the double quote that opens a label. -/
inductive SliceFault (rest : List Char) : Prop where
  | openLabel (h : '"' ∉ rest)
  | label {label after : List Char} (hcut : Text.cutLast ['"'] some rest = some (label, after))
    (h : label = [] ∨ '\n' ∈ label)
  | value {label after : List Char} (hcut : Text.cutLast ['"'] some rest = some (label, after))
    (h : value? after = none)

/-- Something is wrong with the line as a slice. -/
def HasSliceFault (line : Line) : Prop :=
  ∃ rest, Text.trimStart line = '"' :: rest ∧ SliceFault rest

/-- When a line that starts with a quote is not a slice. -/
theorem slice?_eq_none_iff {line rest : Line} (h : Text.trimStart line = '"' :: rest) :
    slice? line = none ↔ SliceFault rest := by
  unfold slice?
  simp only [h]
  cases hcut : Text.cutLast ['"'] some rest with
  | none => exact ⟨fun _ => .openLabel (Text.cutLast_singleton_eq_none_iff.1 hcut), fun _ => rfl⟩
  | some parts =>
    rcases parts with ⟨label, after⟩
    simp only [Option.bind_some]
    -- The label is checked before the value is read.
    by_cases hlabel : (label.isEmpty || label.contains '\n') = true
    · rw [if_pos hlabel]
      rw [Bool.or_eq_true, List.isEmpty_iff, List.contains_iff_mem] at hlabel
      exact ⟨fun _ => .label hcut hlabel, fun _ => rfl⟩
    · rw [if_neg hlabel]
      rw [Bool.or_eq_true, List.isEmpty_iff, List.contains_iff_mem] at hlabel
      rw [Option.map_eq_none_iff]
      -- The last quote of the line is where the label ends, so faults of all kinds are about the
      -- same cut.
      refine ⟨.value hcut, fun h => ?_⟩
      cases h with
      | openLabel h =>
        rw [Text.cutLast_singleton_eq_none_iff.2 h] at hcut
        cases hcut
      | label hcut' h =>
        rw [hcut] at hcut'
        cases hcut'
        exact absurd h hlabel
      | value hcut' h =>
        rw [hcut] at hcut'
        cases hcut'
        exact h

/-- What starts with a double quote is neither of the words that are looked for before slices. -/
theorem IsSliceLine.ofLine_eq {line : Line} (h : IsSliceLine line) :
    ofLine line = (slice? line).elim .skip .slice := by
  obtain ⟨rest, hrest⟩ := h
  have hshow : line ≠ "showData".toList := by
    rintro rfl
    cases hrest
  have htitle : Text.after? "title " line = none := by
    refine Text.isPrefixOf?_eq_none_iff.2 ?_
    rintro ⟨text, rfl⟩
    cases hrest
  unfold ofLine
  rw [if_neg hshow, htitle]
  cases slice? line <;> rfl

/-- A faulty slice says nothing, and any other one is added. -/
theorem IsSliceLine.ofLine_cases {line : Line} (h : IsSliceLine line) :
    (HasSliceFault line → ofLine line = .skip) ∧
      (¬HasSliceFault line → ∃ s, ofLine line = .slice s) := by
  have hread := h.ofLine_eq
  rcases h with ⟨rest, hrest⟩
  have hfault : HasSliceFault line ↔ slice? line = none := by
    rw [slice?_eq_none_iff hrest]
    constructor
    · rintro ⟨rest', hrest', hfault⟩
      rw [hrest] at hrest'
      cases hrest'
      exact hfault
    · intro hfault
      exact ⟨rest, hrest, hfault⟩
  rw [hread, hfault]
  cases slice? line with
  | none => exact ⟨fun _ => rfl, fun h => absurd rfl h⟩
  | some s => exact ⟨fun h => (nomatch h), fun _ => ⟨s, rfl⟩⟩

end PieChart.Statement

/-! ## Class diagrams -/

namespace ClassDiagram

/-- The line has a relationship operator and neither declares a class nor gives one a stereotype. -/
structure IsRelationLine (line : Line) : Prop where
  operator : ∃ entry ∈ relationTokens, entry.1 <:+: line
  declaration : declaration? line = none
  stereotype : stereotype? line = none

/-- What may be wrong with the texts on the two sides of a relationship operator. -/
inductive RelationFault (left right : List Char) : Prop where
  | left (h : leftOperand? left = none)
  | right (h : rightOperand? (Text.beforeColon right) = none)

/-- Something is wrong with the line as a relationship. -/
def HasRelationFault (line : Line) : Prop :=
  ∃ left token right, Text.findToken relationTokens line = some (left, token, right) ∧
    RelationFault left right

/-- When a line with an operator is not a relationship between classes. -/
theorem relationship?_eq_none_iff {line left right : List Char} {token : RelationToken}
    (h : Text.findToken relationTokens line = some (left, token, right)) :
    relationship? line = none ↔ RelationFault left right := by
  have hoperands : relationship? line = none ↔
      leftOperand? left = none ∨ rightOperand? (Text.beforeColon right) = none := by
    unfold relationship? Text.beforeColon
    rw [h]
    simp only [Option.bind_some]
    cases Text.cut [':'] right with
    | none => cases leftOperand? left <;> cases hright : rightOperand? right <;> simp [hright]
    | some parts =>
      cases leftOperand? left <;> cases hright : rightOperand? parts.1 <;> simp [hright]
  rw [hoperands]
  constructor
  · rintro (hleft | hright)
    · exact .left hleft
    · exact .right hright
  · rintro (hleft | hright)
    · exact Or.inl hleft
    · exact Or.inr hright

/-- A line with a relationship operator is not read as a member of a class. -/
theorem inlineMember?_eq_none {line : Line} (h : ∃ entry ∈ relationTokens, entry.1 <:+: line) :
    inlineMember? line = none := by
  -- Each operator has one of the two pairs in it that keep a line from being a member.
  have hdashes : ∀ entry ∈ relationTokens, "--".toList <:+: entry.1 ∨ "..".toList <:+: entry.1 := by
    decide
  rcases h with ⟨entry, hmem, hinfix⟩
  unfold inlineMember?
  rw [if_pos]
  rw [Bool.or_eq_true, Text.occurs, Text.occurs, Text.cut_isSome_iff, Text.cut_isSome_iff]
  exact (hdashes entry hmem).imp (fun h => h.trans hinfix) fun h => h.trans hinfix

/-- A faulty relationship says nothing, and any other one relates two classes. -/
theorem IsRelationLine.ofLine_cases {line : Line} (h : IsRelationLine line) :
    (HasRelationFault line → Statement.ofLine line = .skip) ∧
      (¬HasRelationFault line → ∃ r, Statement.ofLine line = .relate r) := by
  rcases Option.isSome_iff_exists.1 (Text.findToken_isSome_iff.2 h.operator) with
    ⟨⟨left, token, right⟩, htoken⟩
  have hfault : HasRelationFault line ↔ relationship? line = none := by
    rw [relationship?_eq_none_iff htoken]
    exact Text.exists_findToken_iff htoken
  unfold Statement.ofLine
  rw [h.declaration, h.stereotype, inlineMember?_eq_none h.operator, hfault]
  cases relationship? line with
  | none => exact ⟨fun _ => rfl, fun h => absurd rfl h⟩
  | some r => exact ⟨fun h => (nomatch h), fun _ => ⟨r, rfl⟩⟩

end ClassDiagram

/-! ## State diagrams -/

namespace StateDiagram.Statement

/-- The line has an arrow and does not give the direction. -/
structure IsTransitionLine (line : Line) : Prop where
  operator : "-->".toList <:+: line
  opening : ¬"direction ".toList <+: line

/-- What may be wrong with the texts on the two sides of an arrow. -/
inductive TransitionFault (left right : List Char) : Prop where
  | source (h : endpoint? left = none)
  | target (h : endpoint? (Text.beforeColon right) = none)

/-- Something is wrong with the line as a transition. -/
def HasTransitionFault (line : Line) : Prop :=
  ∃ left right, Text.cut "-->".toList line = some (left, right) ∧ TransitionFault left right

/-- When a line with an arrow is not a transition. -/
theorem transition?_eq_none_iff {left right : List Char} :
    transition? left right = none ↔ TransitionFault left right := by
  have hends : transition? left right = none ↔
      endpoint? left = none ∨ endpoint? (Text.beforeColon right) = none := by
    unfold transition? Text.beforeColon
    cases Text.cut [':'] right with
    | none => cases endpoint? left <;> simp
    | some parts => cases endpoint? left <;> simp
  rw [hends]
  constructor
  · rintro (hsource | htarget)
    · exact .source hsource
    · exact .target htarget
  · rintro (hsource | htarget)
    · exact Or.inl hsource
    · exact Or.inr htarget

/-- A faulty transition says nothing, and any other one is added. -/
theorem IsTransitionLine.ofLine_cases {line : Line} (h : IsTransitionLine line) :
    (HasTransitionFault line → ofLine line = .skip) ∧
      (¬HasTransitionFault line → ∃ t, ofLine line = .move t) := by
  have hdirection : Text.after? "direction " line = none := Text.isPrefixOf?_eq_none_iff.2 h.opening
  rcases Option.isSome_iff_exists.1 (Text.cut_isSome_iff.2 h.operator) with ⟨⟨left, right⟩, hcut⟩
  have hfault : HasTransitionFault line ↔ transition? left right = none := by
    rw [transition?_eq_none_iff]
    constructor
    · rintro ⟨left', right', hcut', hfault⟩
      rw [hcut] at hcut'
      cases hcut'
      exact hfault
    · intro hfault
      exact ⟨left, right, hcut, hfault⟩
  unfold ofLine
  rw [hdirection, hcut, hfault]
  simp only [Option.isSome_none, Bool.false_eq_true, if_false]
  cases transition? left right with
  | none => exact ⟨fun _ => rfl, fun h => absurd rfl h⟩
  | some t => exact ⟨fun h => (nomatch h), fun _ => ⟨t, rfl⟩⟩

end StateDiagram.Statement

/-! ## Gantt charts -/

namespace GanttChart.Statement

/-- The first word of the line is no word for something else than a task. -/
def IsTaskLine (line : Line) : Prop :=
  String.ofList (Text.firstWord line) ∉ ["title", "dateFormat", "section"] ++ ignoredDirectives

/-- A line without a colon says nothing, and any other one adds a task. -/
theorem IsTaskLine.ofLine_cases {line : Line} (h : IsTaskLine line) :
    (':' ∉ line → ofLine line = .skip) ∧ (':' ∈ line → ∃ t, ofLine line = .task t) := by
  unfold IsTaskLine at h
  rw [List.mem_append, not_or] at h
  simp only [List.mem_cons, List.not_mem_nil, or_false, not_or] at h
  unfold ofLine
  rw [if_neg h.1.1, if_neg h.1.2.1, if_neg h.1.2.2, if_neg h.2]
  constructor
  · intro hcolon
    rw [Text.cut_singleton_eq_none_iff.2 hcolon]
  · intro hcolon
    cases hcut : Text.cut [':'] line with
    | none => exact absurd hcolon (Text.cut_singleton_eq_none_iff.1 hcut)
    | some parts => exact ⟨_, rfl⟩

end GanttChart.Statement

/-! ## Entity-relationship diagrams -/

namespace EntityDiagram

/-- The line has a relationship operator and does not open a block. -/
structure IsRelationLine (line : Line) : Prop where
  operator : ∃ entry ∈ cardinalityTokens, entry.1 <:+: line
  block : blockName? line = none

/-- What may be wrong with the texts on the two sides of a relationship operator. -/
inductive RelationFault (left right : List Char) : Prop where
  | colon (h : ':' ∉ right)
  | source (h : wholeName? left = none)
  | target (h : wholeName? (Text.beforeColon right) = none)

/-- Something is wrong with the line as a relationship. -/
def HasRelationFault (line : Line) : Prop :=
  ∃ left ends right, Text.findToken cardinalityTokens line = some (left, ends, right) ∧
    RelationFault left right

/-- When a line with an operator is not a relationship between entities. -/
theorem relationship?_eq_none_iff {line left right : List Char} {ends : Ends}
    (h : Text.findToken cardinalityTokens line = some (left, ends, right)) :
    relationship? line = none ↔ RelationFault left right := by
  have hparts : relationship? line = none ↔ ':' ∉ right ∨ wholeName? left = none ∨
      wholeName? (Text.beforeColon right) = none := by
    unfold relationship? Text.beforeColon
    rw [h, ← Text.cut_singleton_eq_none_iff]
    simp only [Option.bind_some]
    cases Text.cut [':'] right with
    | none => simp
    | some parts => cases wholeName? left <;> simp
  rw [hparts]
  constructor
  · rintro (hcolon | hsource | htarget)
    · exact .colon hcolon
    · exact .source hsource
    · exact .target htarget
  · rintro (hcolon | hsource | htarget)
    · exact Or.inl hcolon
    · exact Or.inr (Or.inl hsource)
    · exact Or.inr (Or.inr htarget)

/-- A faulty relationship says nothing, and any other one relates two entities. -/
theorem IsRelationLine.ofLine_cases {line : Line} (h : IsRelationLine line) :
    (HasRelationFault line → Statement.ofLine line = .skip) ∧
      (¬HasRelationFault line → ∃ r, Statement.ofLine line = .relate r) := by
  rcases Option.isSome_iff_exists.1 (Text.findToken_isSome_iff.2 h.operator) with
    ⟨⟨left, ends, right⟩, htoken⟩
  have hfault : HasRelationFault line ↔ relationship? line = none := by
    rw [relationship?_eq_none_iff htoken]
    exact Text.exists_findToken_iff htoken
  unfold Statement.ofLine
  rw [h.block, hfault]
  cases relationship? line with
  | none => exact ⟨fun _ => rfl, fun h => absurd rfl h⟩
  | some r => exact ⟨fun h => (nomatch h), fun _ => ⟨r, rfl⟩⟩

end EntityDiagram

/-! ## All kinds -/

namespace Reading

/-- The line is tried as a relation, a slice or a task where it stands. In an open block of a class or
an entity no line is. -/
def Tries : Reading → Line → Prop
  | flowchart _ _, line => Flowchart.Statement.IsEdgeLine (Flowchart.Statement.bare line)
  | sequence _, line => SequenceDiagram.Statement.IsMessageLine line
  | pie _, line => PieChart.Statement.IsSliceLine line
  | classes d, line => d.current = none ∧ ClassDiagram.IsRelationLine line
  | states _, line => StateDiagram.Statement.IsTransitionLine line
  | gantt _, line => GanttChart.Statement.IsTaskLine line
  | entities d, line => d.current = none ∧ EntityDiagram.IsRelationLine line

/-- Something is wrong with a line that is tried. -/
def Rejects : Reading → Line → Prop
  | flowchart _ _, line => Flowchart.Statement.HasEdgeFault (Flowchart.Statement.bare line)
  | sequence _, line => SequenceDiagram.Statement.HasMessageFault line
  | pie _, line => PieChart.Statement.HasSliceFault line
  | classes _, line => ClassDiagram.HasRelationFault line
  | states _, line => StateDiagram.Statement.HasTransitionFault line
  | gantt _, line => ':' ∉ line
  | entities _, line => EntityDiagram.HasRelationFault line

/-- A line that is tried but rejected leaves everything as it was. -/
theorem readLine_of_rejects {s : Reading} {line : Line} (htries : s.Tries line)
    (h : s.Rejects line) : s.readLine line = s := by
  cases s with
  | flowchart direction d =>
    have hskip : Flowchart.Statement.ofLine line = .skip := htries.ofBareLine_cases.1 h
    rw [readLine, hskip, Flowchart.Draft.apply_skip]
  | sequence d =>
    rw [readLine, htries.ofLine_cases.1 h, SequenceDiagram.Statement.apply_skip]
  | pie chart =>
    rw [readLine, htries.ofLine_cases.1 h, PieChart.Statement.apply_skip]
  | classes d =>
    rw [readLine, ClassDiagram.Draft.readLine, htries.1, htries.2.ofLine_cases.1 h]
    simp only [ClassDiagram.Draft.apply_skip]
  | states d =>
    rw [readLine, htries.ofLine_cases.1 h, StateDiagram.Statement.apply_skip]
  | gantt chart =>
    rw [readLine, htries.ofLine_cases.1 h, GanttChart.Statement.apply_skip]
  | entities d =>
    rw [readLine, EntityDiagram.Draft.readLine, htries.1, htries.2.ofLine_cases.1 h]
    simp only [EntityDiagram.Draft.apply_skip]

end Reading

end TextDiagram
