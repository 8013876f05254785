import TextDiagram.Diagram
/-!
# Referential integrity

Every relation of a diagram joins two of its entities, whatever the lines it was read from. Each
reader keeps its draft `Linked` line by line; at the end nothing is left to check.

Main statements:

* `Linked.ensure_pair`: a relation is added together with its ends.
* `Flowchart.Draft.Sound.apply`, `SequenceDiagram.linked_apply`,
  `ClassDiagram.Draft.linked_readLine`, `StateDiagram.linked_apply`,
  `EntityDiagram.Draft.linked_readLine`: one line keeps the draft of each kind linked.
* `wellReferenced_of_parse`: what is read from any text is well referenced.
-/

namespace TextDiagram

/-- Names without repetition, and pairs of them. -/
structure Linked (names : List String) (pairs : List (String × String)) : Prop where
  nodup : names.Nodup
  mem : ∀ pair ∈ pairs, pair.1 ∈ names ∧ pair.2 ∈ names

/-- A selection of names, each at most once. -/
def Selects (names ids : List String) : Prop := ids.Nodup ∧ ∀ id ∈ ids, id ∈ names

namespace Linked

variable {names : List String} {pairs : List (String × String)}

theorem nil : Linked [] [] := ⟨.nil, by simp⟩

/-- Pairs stay linked when names are added. -/
theorem mono {more : List String} (h : Linked names pairs) (hnodup : more.Nodup)
    (hsub : ∀ name ∈ names, name ∈ more) : Linked more pairs :=
  ⟨hnodup, fun pair hpair => ⟨hsub _ (h.mem pair hpair).1, hsub _ (h.mem pair hpair).2⟩⟩

/-- A pair of known names may be added. -/
theorem snoc {source target : String} (h : Linked names pairs) (hsource : source ∈ names)
    (htarget : target ∈ names) : Linked names (pairs ++ [(source, target)]) := by
  refine ⟨h.nodup, fun pair hpair => ?_⟩
  -- A pair was there before, or it is the one that is added.
  rcases List.mem_append.1 hpair with hold | hnew
  · exact h.mem pair hold
  · rw [List.mem_singleton.1 hnew]
    exact ⟨hsource, htarget⟩

variable {β : Type} [Keyed β] {entries : List β}

/-- Declaring an entity, or declaring it anew, keeps the pairs linked. -/
theorem put (h : Linked (Keyed.keys entries) pairs) (entry : β) :
    Linked (Keyed.keys (Keyed.put entry entries)) pairs :=
  h.mono (Keyed.nodup_keys_put h.nodup) fun _ hname => Keyed.mem_keys_put.2 (Or.inr hname)

/-- So does mentioning it. -/
theorem ensure (h : Linked (Keyed.keys entries) pairs) (entry : β) :
    Linked (Keyed.keys (Keyed.ensure entry entries)) pairs :=
  h.mono (Keyed.nodup_keys_ensure h.nodup) fun _ hname => Keyed.mem_keys_ensure.2 (Or.inr hname)

/-- And so does a change to an entity that keeps its name. -/
theorem modify (h : Linked (Keyed.keys entries) pairs) {f : β → β}
    (hf : ∀ e, Keyed.key (f e) = Keyed.key e) (k : String) :
    Linked (Keyed.keys (Keyed.modify k f entries)) pairs := by
  rwa [Keyed.keys_modify hf]

/-- A relation may be added once both its ends have been declared. -/
theorem ensure_pair (h : Linked (Keyed.keys entries) pairs) (source target : β) :
    Linked (Keyed.keys (Keyed.ensure target (Keyed.ensure source entries)))
      (pairs ++ [(Keyed.key source, Keyed.key target)]) := by
  refine ((h.ensure source).ensure target).snoc ?_ ?_
  · exact Keyed.mem_keys_ensure.2 (Or.inr (Keyed.mem_keys_ensure.2 (Or.inl rfl)))
  · exact Keyed.mem_keys_ensure.2 (Or.inl rfl)

/-- The order of the names does not matter. -/
theorem sorted (h : Linked (Keyed.keys entries) pairs) :
    Linked (Keyed.keys (Keyed.sorted entries)) pairs := by
  refine h.mono ?_ fun _ hname => Keyed.mem_keys_sorted.2 hname
  exact ((Keyed.perm_sorted entries).map Keyed.key).nodup_iff.2 h.nodup

end Linked

theorem Selects.mono {names more ids : List String} (h : Selects names ids)
    (hsub : ∀ name ∈ names, name ∈ more) : Selects more ids :=
  ⟨h.1, fun id hid => hsub id (h.2 id hid)⟩

/-! ## Flowcharts -/

namespace Flowchart

/-- The two ends of each edge. -/
def ends (edges : List FlowEdge) : List (String × String) :=
  edges.map fun edge => (edge.source, edge.target)

namespace Draft

/-- Edges join nodes, and blocks, open or closed, list nodes. -/
structure Sound (d : Draft) : Prop where
  linked : Linked (Keyed.keys d.nodes) (ends d.edges)
  openBlocks : ∀ block ∈ d.openBlocks, Selects (Keyed.keys d.nodes) block.nodeIds
  subgraphs : ∀ block ∈ d.subgraphs, Selects (Keyed.keys d.nodes) block.nodeIds

theorem sound_empty : Sound empty := ⟨Linked.nil, by simp [empty], by simp [empty]⟩

/-- A mention adds its own node and no other. -/
theorem mem_keys_mentionNode {nodes : List FlowNode} {ref : NodeRef} {id : String} :
    id ∈ Keyed.keys (mentionNode nodes ref) ↔ id = ref.id ∨ id ∈ Keyed.keys nodes := by
  unfold mentionNode
  split
  · next h =>
    have hmem := (Keyed.has_iff_mem_keys nodes ref.id).1 h.1
    exact ⟨Or.inr, fun hid => hid.elim (fun heq => heq ▸ hmem) (fun hid => hid)⟩
  · exact Keyed.mem_keys_put

/-- A node that is mentioned again is not added again. -/
theorem nodup_keys_mentionNode {nodes : List FlowNode} (h : (Keyed.keys nodes).Nodup)
    (ref : NodeRef) : (Keyed.keys (mentionNode nodes ref)).Nodup := by
  unfold mentionNode
  split
  · exact h
  · exact Keyed.nodup_keys_put h

/-- A block lists a node once, however often it is mentioned there. -/
theorem selects_addNode {names : List String} {block : OpenBlock} {id : String}
    (h : Selects names block.nodeIds) (hid : id ∈ names) :
    Selects names (block.addNode id).nodeIds := by
  simp only [OpenBlock.addNode]
  split
  · exact h
  · next hnew =>
    -- The node is new to the block, so its list stays without repetition.
    have hnot : id ∉ block.nodeIds := by simpa using hnew
    refine ⟨List.nodup_append.2 ⟨h.1, by simp, ?_⟩, ?_⟩
    · intro a ha b hb hab
      exact hnot (List.mem_singleton.1 hb ▸ hab ▸ ha)
    · intro name hname
      rcases List.mem_append.1 hname with hold | hname
      · exact h.2 name hold
      · exact List.mem_singleton.1 hname ▸ hid

/-- A mentioned node is there before its block lists it. -/
theorem Sound.mention {d : Draft} (h : d.Sound) (ref : NodeRef) : (d.mention ref).Sound := by
  have hself : ref.id ∈ Keyed.keys (mentionNode d.nodes ref) := mem_keys_mentionNode.2 (Or.inl rfl)
  -- No node gets lost, so what the blocks selected is still selected.
  have hsub : ∀ id ∈ Keyed.keys d.nodes, id ∈ Keyed.keys (mentionNode d.nodes ref) :=
    fun id hid => mem_keys_mentionNode.2 (Or.inr hid)
  refine ⟨?_, ?_, ?_⟩
  · exact h.linked.mono (nodup_keys_mentionNode h.linked.nodup ref) hsub
  · intro block hblock
    simp only [Draft.mention, mentionInBlock] at hblock ⊢
    split at hblock
    · simp at hblock
    · next inner outer heq =>
      -- Only the innermost block changes.
      rcases List.mem_cons.1 hblock with rfl | houter
      · exact selects_addNode ((h.openBlocks inner (by simp [heq])).mono hsub) hself
      · exact (h.openBlocks block (by simp [heq, houter])).mono hsub
  · exact fun block hblock => (h.subgraphs block hblock).mono hsub

theorem mem_keys_mention {d : Draft} {ref : NodeRef} {id : String} :
    id ∈ Keyed.keys (d.mention ref).nodes ↔ id = ref.id ∨ id ∈ Keyed.keys d.nodes :=
  mem_keys_mentionNode

/-- A block that is closed lists what it listed when it was open. -/
theorem Sound.close {d : Draft} (h : d.Sound) : d.close.Sound := by
  unfold Draft.close
  split
  · exact h
  · next inner outer heq =>
    refine ⟨h.linked, ?_, ?_⟩
    · intro block hblock
      cases outer with
      | nil => simp at hblock
      | cons parent others =>
        -- The block around the closed one lists the same nodes and one more block.
        rcases List.mem_cons.1 hblock with rfl | hothers
        · exact h.openBlocks parent (by simp [heq])
        · exact h.openBlocks block (by simp [heq, hothers])
    · intro block hblock
      rcases List.mem_append.1 hblock with hold | hnew
      · exact h.subgraphs block hold
      · rw [List.mem_singleton.1 hnew]
        exact h.openBlocks inner (by simp [heq])

/-- One statement keeps the draft sound. -/
theorem Sound.apply {d : Draft} (h : d.Sound) (s : Statement) : (d.apply s).Sound := by
  cases s with
  | closeBlock => exact h.close
  | openBlock id label =>
    -- The new block lists no node yet.
    refine ⟨h.linked, ?_, h.subgraphs⟩
    intro block hblock
    rcases List.mem_cons.1 hblock with rfl | hold
    · exact ⟨.nil, by simp⟩
    · exact h.openBlocks block hold
  | defineStyle name style => exact ⟨h.linked, h.openBlocks, h.subgraphs⟩
  | styleNode nodeId style => exact ⟨h.linked, h.openBlocks, h.subgraphs⟩
  | attachStyle nodeIds name => exact ⟨h.linked, h.openBlocks, h.subgraphs⟩
  | mention ref => exact h.mention ref
  | edge source target label style =>
    -- Both ends have been mentioned before the edge is recorded.
    have hends := (h.mention source).mention target
    refine ⟨?_, hends.openBlocks, hends.subgraphs⟩
    have hsource : source.id ∈ Keyed.keys ((d.mention source).mention target).nodes :=
      mem_keys_mention.2 (Or.inr (mem_keys_mention.2 (Or.inl rfl)))
    have htarget : target.id ∈ Keyed.keys ((d.mention source).mention target).nodes :=
      mem_keys_mention.2 (Or.inl rfl)
    simpa [ends, Draft.apply] using hends.linked.snoc hsource htarget
  | skip => exact h

/-- What holds at the start and is kept by every statement holds when the reading is finished.
Closing what is still open at the end does what lines that close blocks do. -/
theorem holds_finish {P : Draft → Prop} (hempty : P empty)
    (hstep : ∀ d s, P d → P (d.apply s)) (lines : List Line) :
    P (Draft.empty.readLines lines).finish := by
  have hlines : ∀ d, P d → P (d.readLines lines) := by
    induction lines with
    | nil => exact fun d hd => hd
    | cons line lines ih => exact fun d hd => ih _ (hstep d (Statement.ofLine line) hd)
  have hclose : ∀ n d, P d → P (Nat.repeat Draft.close n d) := by
    intro n
    induction n with
    | zero => exact fun d hd => hd
    | succ n ih => exact fun d hd => hstep _ .closeBlock (ih d hd)
  exact hclose _ _ (hlines _ hempty)

end Draft

/-- Edges join nodes and blocks list nodes, each node once. -/
structure WellReferenced (chart : Flowchart) : Prop where
  linked : Linked (Keyed.keys chart.nodes) (ends chart.edges)
  subgraphs : ∀ block ∈ chart.subgraphs, Selects (Keyed.keys chart.nodes) block.nodeIds

/-- A flowchart read from any lines is well referenced, also if blocks were left open. -/
theorem wellReferenced_ofLines (header : Line) (lines : List Line) :
    (ofLines header lines).WellReferenced := by
  -- The drafts on the way are sound, and closing the blocks that are still open keeps them so.
  have h := Draft.holds_finish Draft.sound_empty (fun _ s hd => hd.apply s) lines
  exact ⟨h.linked, h.subgraphs⟩

end Flowchart

/-! ## Sequence diagrams -/

namespace SequenceDiagram

/-- The two ends of each message. -/
def ends (messages : List Message) : List (String × String) :=
  messages.map fun message => (message.source, message.target)

/-- Messages pass between participants. -/
def WellReferenced (d : SequenceDiagram) : Prop :=
  Linked (Keyed.keys d.participants) (ends d.messages)

/-- A message is recorded together with its two participants. -/
theorem linked_apply {d : SequenceDiagram} (h : d.WellReferenced) (s : Statement) :
    (Statement.apply d s).WellReferenced := by
  cases s with
  | declare participant => exact h.put participant
  | send message =>
    have hpair := h.ensure_pair (⟨message.source, message.source, false⟩ : Participant)
      ⟨message.target, message.target, false⟩
    show Linked _ (ends (d.messages ++ [message]))
    rw [ends, List.map_append]
    exact hpair
  | skip => exact h

/-- By induction on the lines. -/
theorem wellReferenced_ofLines (lines : List Line) : (ofLines lines).WellReferenced := by
  -- Every draft on the way is linked, so the induction goes over all of them.
  have key : ∀ d : SequenceDiagram, d.WellReferenced → (d.readLines lines).WellReferenced := by
    induction lines with
    | nil => exact fun d h => h
    | cons line lines ih => exact fun d h => ih _ (linked_apply h (Statement.ofLine line))
  exact key ⟨[], []⟩ Linked.nil

end SequenceDiagram

/-! ## Class diagrams -/

namespace ClassDiagram

/-- The two ends of each relationship. -/
def ends (relationships : List ClassRelationship) : List (String × String) :=
  relationships.map fun r => (r.source, r.target)

theorem name_addMember (c : ClassDefinition) (m : ClassMember) : (c.addMember m).name = c.name := by
  unfold ClassDefinition.addMember
  split <;> rfl

namespace Draft

/-- Relationships join classes. -/
def IsLinked (d : Draft) : Prop := Linked (Keyed.keys d.classes) (ends d.relationships)

/-- A class that is changed is declared first. -/
theorem linked_change {d : Draft} (h : d.IsLinked) (name : String)
    {f : ClassDefinition → ClassDefinition} (hf : ∀ c, (f c).name = c.name) :
    (d.change name f).IsLinked :=
  (h.ensure (ClassDefinition.named name)).modify hf name

/-- One line outside a block keeps a class diagram linked. -/
theorem linked_apply {d : Draft} (h : d.IsLinked) (s : Statement) : (d.apply s).IsLinked := by
  cases s with
  | openBlock name => exact h.ensure (ClassDefinition.named name)
  | declare name => exact h.ensure (ClassDefinition.named name)
  | stereotype name text => exact linked_change h name fun _ => rfl
  | addMember name member => exact linked_change h name fun c => name_addMember c member
  | relate r =>
    -- Both classes are there before the relationship is recorded.
    have hpair := h.ensure_pair (ClassDefinition.named r.source) (ClassDefinition.named r.target)
    show Linked _ (ends (d.relationships ++ [r]))
    rw [ends, List.map_append]
    exact hpair
  | skip => exact h

/-- A line inside a block changes one class only, and not its name. -/
theorem linked_applyBody {d : Draft} (h : d.IsLinked) (name : String) (line : BodyLine) :
    (d.applyBody name line).IsLinked := by
  cases line with
  | closeBlock => exact h
  | stereotype text =>
    refine h.modify ?_ name
    exact fun _ => rfl
  | member m => exact h.modify (fun c => name_addMember c m) name
  | skip => exact h

/-- A line is read inside the open block or outside. -/
theorem linked_readLine {d : Draft} (h : d.IsLinked) (line : Line) :
    (d.readLine line).IsLinked := by
  unfold readLine
  split
  · exact linked_applyBody h _ _
  · exact linked_apply h _

theorem linked_readLines {d : Draft} (h : d.IsLinked) (lines : List Line) :
    (d.readLines lines).IsLinked := by
  induction lines generalizing d with
  | nil => exact h
  | cons line lines ih => exact ih (linked_readLine h line)

end Draft

/-- Relationships join classes, which stand in the order of their names. -/
structure WellReferenced (d : ClassDiagram) : Prop where
  linked : Linked (Keyed.keys d.classes) (ends d.relationships)
  increasing : (Keyed.keys d.classes).Pairwise (· < ·)

/-- At the end the classes are sorted, which keeps the diagram linked. -/
theorem wellReferenced_ofLines (lines : List Line) : (ofLines lines).WellReferenced := by
  have hempty : Draft.empty.IsLinked := Linked.nil
  have h := Draft.linked_readLines hempty lines
  exact ⟨h.sorted, Keyed.pairwise_lt_keys_sorted h.nodup⟩

end ClassDiagram

/-! ## State diagrams -/

namespace StateDiagram

/-- The two ends of each transition. -/
def ends (transitions : List StateTransition) : List (String × String) :=
  transitions.map fun t => (t.source, t.target)

/-- Transitions join states. -/
def IsLinked (d : StateDiagram) : Prop := Linked (Keyed.keys d.states) (ends d.transitions)

/-- One line keeps a state diagram linked; a direction has no bearing on it. -/
theorem linked_apply {d : StateDiagram} (h : d.IsLinked) (s : Statement) :
    (Statement.apply d s).IsLinked := by
  cases s with
  | direction chosen => exact h
  | move t =>
    -- The two states are there before the transition is recorded.
    have hpair := h.ensure_pair (StateNode.named t.source) (StateNode.named t.target)
    show Linked _ (ends (d.transitions ++ [t]))
    rw [ends, List.map_append]
    exact hpair
  | define id description => exact h.put ⟨id, id, some description⟩
  | declare id => exact h.ensure (StateNode.named id)
  | describe id description =>
    refine (h.ensure (StateNode.named id)).modify ?_ id
    exact fun _ => rfl
  | skip => exact h

theorem linked_readLines {d : StateDiagram} (h : d.IsLinked) (lines : List Line) :
    (d.readLines lines).IsLinked := by
  induction lines generalizing d with
  | nil => exact h
  | cons line lines ih => exact ih (linked_apply h (Statement.ofLine line))

/-- Transitions join states, which stand in the order of their ids. -/
structure WellReferenced (d : StateDiagram) : Prop where
  linked : Linked (Keyed.keys d.states) (ends d.transitions)
  increasing : (Keyed.keys d.states).Pairwise (· < ·)

theorem wellReferenced_ofLines (lines : List Line) : (ofLines lines).WellReferenced := by
  have hempty : IsLinked ⟨[], [], .topDown⟩ := Linked.nil
  have h := linked_readLines hempty lines
  exact ⟨h.sorted, Keyed.pairwise_lt_keys_sorted h.nodup⟩

end StateDiagram

/-! ## Entity-relationship diagrams -/

namespace EntityDiagram

/-- The two ends of each relationship. -/
def ends (relationships : List EntityRelationship) : List (String × String) :=
  relationships.map fun r => (r.source, r.target)

namespace Draft

/-- Relationships join entities. -/
def IsLinked (d : Draft) : Prop := Linked (Keyed.keys d.entities) (ends d.relationships)

/-- One line outside a block keeps an entity-relationship diagram linked. -/
theorem linked_apply {d : Draft} (h : d.IsLinked) (s : Statement) : (d.apply s).IsLinked := by
  cases s with
  | openBlock name => exact h.ensure ⟨name, []⟩
  | relate r =>
    -- The two entities are there before the relationship is recorded.
    have hpair := h.ensure_pair (⟨r.source, []⟩ : Entity) ⟨r.target, []⟩
    show Linked _ (ends (d.relationships ++ [r]))
    rw [ends, List.map_append]
    exact hpair
  | skip => exact h

/-- An attribute changes one entity only, and not its name. -/
theorem linked_applyBody {d : Draft} (h : d.IsLinked) (name : String) (line : Line) :
    (d.applyBody name line).IsLinked := by
  unfold applyBody
  split
  · exact h
  · split
    · refine h.modify ?_ name
      exact fun _ => rfl
    · exact h

theorem linked_readLine {d : Draft} (h : d.IsLinked) (line : Line) :
    (d.readLine line).IsLinked := by
  unfold readLine
  split
  · exact linked_applyBody h _ _
  · exact linked_apply h _

theorem linked_readLines {d : Draft} (h : d.IsLinked) (lines : List Line) :
    (d.readLines lines).IsLinked := by
  induction lines generalizing d with
  | nil => exact h
  | cons line lines ih => exact ih (linked_readLine h line)

end Draft

/-- Relationships join entities, which stand in the order of their names. -/
structure WellReferenced (d : EntityDiagram) : Prop where
  linked : Linked (Keyed.keys d.entities) (ends d.relationships)
  increasing : (Keyed.keys d.entities).Pairwise (· < ·)

theorem wellReferenced_ofLines (lines : List Line) : (ofLines lines).WellReferenced := by
  have hempty : Draft.empty.IsLinked := Linked.nil
  have h := Draft.linked_readLines hempty lines
  exact ⟨h.sorted, Keyed.pairwise_lt_keys_sorted h.nodup⟩

end EntityDiagram

/-! ## Diagrams of all kinds -/

namespace Diagram

/-- Every relation joins two entities of the diagram. Charts have no relations. -/
def WellReferenced : Diagram → Prop
  | .flowchart chart => chart.WellReferenced
  | .sequence d => d.WellReferenced
  | .classes d => d.WellReferenced
  | .states d => d.WellReferenced
  | .entities d => d.WellReferenced
  | .pie _ | .gantt _ => True

/-- What is read from any lines is well referenced, whatever the kind. Pie and gantt charts have no
relations. -/
theorem wellReferenced_ofLines (kind : DiagramKind) (header : Line) (lines : List Line) :
    (ofLines kind header lines).WellReferenced := by
  cases kind with
  | flowchart => exact Flowchart.wellReferenced_ofLines header lines
  | sequence => exact SequenceDiagram.wellReferenced_ofLines lines
  | pie => trivial
  | classes => exact ClassDiagram.wellReferenced_ofLines lines
  | states => exact StateDiagram.wellReferenced_ofLines lines
  | gantt => trivial
  | entities => exact EntityDiagram.wellReferenced_ofLines lines

/-- A text that is read was read line by line as a diagram of some kind. -/
theorem exists_significantLines_of_parse {text : String} {d : Diagram} (h : parse text = .ok d) :
    ∃ kind header lines, Text.significantLines text.toList = header :: lines ∧
      d = ofLines kind header lines := by
  unfold parse at h
  cases hlines : Text.significantLines text.toList with
  | nil => simp [hlines, parseLines] at h
  | cons header lines =>
    simp only [hlines, parseLines] at h
    split at h
    · next kind _ =>
      cases h
      exact ⟨kind, header, lines, rfl, rfl⟩
    · cases h

theorem exists_ofLines_of_parse {text : String} {d : Diagram} (h : parse text = .ok d) :
    ∃ kind header lines, d = ofLines kind header lines := by
  rcases exists_significantLines_of_parse h with ⟨kind, header, lines, -, heq⟩
  exact ⟨kind, header, lines, heq⟩

/-- A flowchart that was parsed was read from some lines as a flowchart. -/
theorem exists_ofLines_of_parse_flowchart {text : String} {chart : Flowchart}
    (h : parse text = .ok (.flowchart chart)) :
    ∃ header lines, chart = Flowchart.ofLines header lines := by
  rcases exists_ofLines_of_parse h with ⟨kind, header, lines, heq⟩
  cases kind with
  | flowchart => exact ⟨header, lines, Diagram.flowchart.inj heq⟩
  | _ => cases heq

/-- What is read from any text is well referenced, whichever of its lines were skipped. -/
theorem wellReferenced_of_parse {text : String} {d : Diagram} (h : parse text = .ok d) :
    d.WellReferenced := by
  rcases exists_ofLines_of_parse h with ⟨kind, header, lines, rfl⟩
  exact wellReferenced_ofLines kind header lines

/-- An arrow that points to the left, before the class at its right has been declared. -/
theorem wellReferenced_arrow_to_the_left :
    ∃ d, parse "classDiagram\nzebra <|-- ant\nclass ant" = .ok (.classes d) ∧
      d.relationships = [⟨"ant", "zebra", .inheritance, none, none, none⟩] ∧ d.WellReferenced := by
  have hparse : parse "classDiagram\nzebra <|-- ant\nclass ant" = .ok (.classes
      ⟨[⟨"ant", none, [], []⟩, ⟨"zebra", none, [], []⟩],
        [⟨"ant", "zebra", .inheritance, none, none, none⟩]⟩) := rfl
  exact ⟨_, hparse, rfl, wellReferenced_of_parse hparse⟩

end Diagram

end TextDiagram
