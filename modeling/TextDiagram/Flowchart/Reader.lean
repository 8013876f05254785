import TextDiagram.Flowchart.Statement
/-!
# Reading a flowchart

The statements of a flowchart act one after the other on a draft. Blocks that are still open at the
end are closed, innermost first.

Main statements:

* `Draft.apply_skip`: a line that is no statement has no effect.
* `Draft.close_openBlocks`: closing takes exactly the innermost block off.
* `Draft.finish_openBlocks`: at the end no block is open.
-/

namespace TextDiagram.Flowchart

/-- A block that has not been closed. -/
structure OpenBlock where
  id : String
  label : String
  nodeIds : List String
  subgraphIds : List String
  deriving DecidableEq, Repr, Inhabited

namespace OpenBlock

/-- Adds a node unless the block lists it already. -/
def addNode (block : OpenBlock) (id : String) : OpenBlock :=
  { block with
    nodeIds := if block.nodeIds.contains id then block.nodeIds else block.nodeIds ++ [id] }

/-- Adds a block that was closed directly inside. -/
def addSubgraph (block : OpenBlock) (id : String) : OpenBlock :=
  { block with subgraphIds := block.subgraphIds ++ [id] }

/-- The block as it stands when it is closed. -/
def closed (block : OpenBlock) : Subgraph :=
  ⟨block.id, block.label, block.nodeIds, block.subgraphIds⟩

end OpenBlock

/-- A flowchart while it is read. The innermost open block comes first. -/
structure Draft where
  nodes : List FlowNode
  edges : List FlowEdge
  openBlocks : List OpenBlock
  subgraphs : List Subgraph
  classDefs : List (String × NodeStyle)
  nodeClasses : List (String × String)
  deriving DecidableEq, Repr, Inhabited

namespace Draft

/-- Nothing has been read. -/
def empty : Draft := ⟨[], [], [], [], [], []⟩

/-- Nodes after a mention: a new node is added last, and brackets change the label and the shape of
a known one. -/
def mentionNode (nodes : List FlowNode) (ref : NodeRef) : List FlowNode :=
  if Keyed.has nodes ref.id ∧ ref.shape.isNone then nodes else Keyed.put ref.node nodes

/-- Open blocks after a mention: the node belongs to the innermost one. -/
def mentionInBlock (blocks : List OpenBlock) (id : String) : List OpenBlock :=
  match blocks with
  | [] => []
  | block :: outer => block.addNode id :: outer

/-- Takes note of a mention of a node. -/
def mention (d : Draft) (ref : NodeRef) : Draft :=
  { d with
    nodes := mentionNode d.nodes ref
    nodeClasses := match ref.className with
      | some name => Keyed.put (ref.id, name) d.nodeClasses
      | none => d.nodeClasses
    openBlocks := mentionInBlock d.openBlocks ref.id }

/-- Closes the innermost open block, if there is one. -/
def close (d : Draft) : Draft :=
  match d.openBlocks with
  | [] => d
  | block :: outer =>
    { d with
      openBlocks := match outer with
        | [] => []
        | parent :: others => parent.addSubgraph block.id :: others
      subgraphs := d.subgraphs ++ [block.closed] }

/-- The name of the style that belongs to one node alone. -/
def privateStyle (nodeId : String) : String := "__style_" ++ nodeId

/-- What one statement changes. -/
def apply (d : Draft) : Statement → Draft
  | .closeBlock => d.close
  | .openBlock id label => { d with openBlocks := ⟨id, label, [], []⟩ :: d.openBlocks }
  | .defineStyle name style => { d with classDefs := Keyed.put (name, style) d.classDefs }
  | .styleNode nodeId style =>
    { d with
      classDefs := Keyed.put (privateStyle nodeId, style) d.classDefs
      nodeClasses := Keyed.put (nodeId, privateStyle nodeId) d.nodeClasses }
  | .attachStyle nodeIds name =>
    { d with
      nodeClasses := nodeIds.foldl (fun known id => Keyed.put (id, name) known) d.nodeClasses }
  | .mention ref => d.mention ref
  | .edge source target label style =>
    let d := (d.mention source).mention target
    { d with edges := d.edges ++ [⟨source.id, target.id, label, style⟩] }
  | .skip => d

/-- The draft after some lines. -/
def readLines (d : Draft) (lines : List Line) : Draft :=
  lines.foldl (fun d line => d.apply (Statement.ofLine line)) d

/-- Closes all blocks that are still open. -/
def finish (d : Draft) : Draft := Nat.repeat close d.openBlocks.length d

/-- The flowchart of a finished draft. -/
def chart (d : Draft) (direction : Direction) : Flowchart where
  direction := direction
  nodes := d.nodes
  edges := d.edges
  subgraphs := d.subgraphs
  classDefs := d.classDefs
  nodeClasses := d.nodeClasses

end Draft

/-- Reads a flowchart from its header line and the lines after it. -/
def ofLines (header : Line) (lines : List Line) : Flowchart :=
  (Draft.empty.readLines lines).finish.chart ((Direction.ofLine? header).getD .topDown)

/-! ## Elementary facts -/

namespace Draft

@[simp] theorem apply_skip (d : Draft) : d.apply .skip = d := rfl

theorem close_openBlocks (d : Draft) : d.close.openBlocks.length = d.openBlocks.length - 1 := by
  unfold close
  split
  · next h => simp [h]
  · next block outer h => cases outer <;> simp [h]

theorem finish_openBlocks (d : Draft) : d.finish.openBlocks = [] := by
  have key : ∀ (n : Nat) (d : Draft),
      (Nat.repeat close n d).openBlocks.length = d.openBlocks.length - n := by
    intro n
    induction n with
    | zero => intro d; rfl
    | succ n ih =>
      intro d
      simp only [Nat.repeat, close_openBlocks, ih]
      omega
  have := key d.openBlocks.length d
  rw [Nat.sub_self] at this
  exact List.eq_nil_of_length_eq_zero this

end Draft

end TextDiagram.Flowchart
