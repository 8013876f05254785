import TextDiagram.Proofs.Integrity
import TextDiagram.Proofs.Mention
import TextDiagram.Proofs.Rejection
/-!
# Blocks of a flowchart as a forest

A reader keeps the blocks that are open on a stack. What it makes of them is said here without a
stack: the lines of a text form a tree in which a block holds the lines from its opening to the
`end` that belongs to it. An opening takes the first `end` after it that no later opening has taken;
without such an `end` its block holds all lines that follow. An `end` that no opening takes says
nothing. The blocks of the chart are the blocks of the tree in postorder.

Main statements:

* `Body.lines_ofLines`: the tree holds all lines in order, those that read `end` apart.
* `Balanced.bodies_append`: which `end` belongs to an opening.
* `Draft.finish_readLines`: reading lines is reading the bodies that they make up.
* `Draft.openBlocks_and_subgraphs_read`: what reading a body does to the stack and to the chart.
* `subgraphs_ofLines_snoc`: what one more line does to the blocks of a chart.
* `subgraphs_eq_records`: the blocks of a chart are the records of the tree.
-/

namespace TextDiagram

namespace Flowchart

/-! ## Lines in blocks -/

/-- The line closes a block. -/
def IsEnd (line : Line) : Prop := Statement.bare line = "end".toList

/-- The line opens a block. -/
def IsOpening (line : Line) : Prop := "subgraph ".toList <+: Statement.bare line

instance (line : Line) : Decidable (IsEnd line) := inferInstanceAs (Decidable (_ = _))

instance (line : Line) : Decidable (IsOpening line) := inferInstanceAs (Decidable (_ <+: _))

/-- A line that opens a block. -/
abbrev Opening := { line : Line // IsOpening line }

/-- A line that neither opens a block nor closes one. -/
abbrev PlainLine := { line : Line // ¬IsEnd line ∧ ¬IsOpening line }

/-- The id and the label of a block: those written in the opening, or the text after the keyword for
both. -/
def blockName (opening : Line) : String × String :=
  match Statement.blockHead? (Statement.bare opening) with
  | some (id, label) => (String.ofList id, String.ofList (Text.unquote label))
  | none =>
    let label := String.ofList
      (Text.unquote ((Statement.bare opening).drop "subgraph ".toList.length))
    (label, label)

/-- The nodes that a statement mentions, as they are written. -/
def Statement.mentioned : Statement → List String
  | .mention ref => [ref.id]
  | .edge source target _ _ => [source.id, target.id]
  | _ => []

/-- An `end` line closes a block. -/
theorem ofLine_of_isEnd {line : Line} (h : IsEnd line) : Statement.ofLine line = .closeBlock := by
  rw [Statement.ofLine, Statement.ofBareLine]
  exact if_pos h

/-- No line opens and closes a block. -/
theorem IsOpening.not_isEnd {line : Line} (h : IsOpening line) : ¬IsEnd line := by
  rcases h with ⟨rest, hline⟩
  rw [IsEnd, ← hline]
  intro heq
  cases heq

/-- An opening line opens the block that it names. -/
theorem ofLine_of_isOpening {line : Line} (h : IsOpening line) :
    Statement.ofLine line = .openBlock (blockName line).1 (blockName line).2 := by
  have hend : Statement.bare line ≠ "end".toList := h.not_isEnd
  rcases h with ⟨rest, hline⟩
  have hrest : Text.after? "subgraph " (Statement.bare line) = some rest := by
    rw [← hline]
    exact Text.isPrefixOf?_append _ rest
  have hdrop : (Statement.bare line).drop "subgraph ".toList.length = rest := by
    rw [← hline]
    exact List.drop_left
  rw [Statement.ofLine, Statement.ofBareLine, if_neg hend, hrest]
  simp only [Statement.ofBlockLine, blockName, hdrop]
  cases Statement.blockHead? (Statement.bare line) <;> rfl

/-- The statement neither opens a block nor closes one. -/
def Statement.IsPlain : Statement → Prop
  | .openBlock _ _ | .closeBlock => False
  | _ => True

/-- What is read as nodes or as an edge opens and closes no block. -/
theorem Statement.isPlain_ofNodeLine (line : Line) : (ofNodeLine line).IsPlain := by
  unfold ofNodeLine
  cases Text.findToken edgeTokens line with
  | none => cases NodeRef.ofText? line <;> trivial
  | some parts =>
    rcases parts with ⟨left, style, right⟩
    rcases fault_or_edge left right style with hfault | ⟨source, target, label, hedge⟩
    · simp only [ofEdge_of_fault hfault, IsPlain]
    · simp only [hedge, IsPlain]

/-- A line that neither opens nor closes a block is read as a statement that does neither. -/
theorem PlainLine.isPlain_ofLine (line : PlainLine) : (Statement.ofLine line.1).IsPlain := by
  have hend : Statement.bare line.1 ≠ "end".toList := line.2.1
  have hsubgraph : Text.after? "subgraph " (Statement.bare line.1) = none :=
    Text.isPrefixOf?_eq_none_iff.2 line.2.2
  -- The other openings of lines are tried one after the other; none of them is about blocks.
  rw [Statement.ofLine, Statement.ofBareLine, if_neg hend, hsubgraph]
  simp only
  split
  · split <;> trivial
  split
  · split <;> trivial
  split
  · unfold Statement.ofClassLine
    split <;> trivial
  split
  · trivial
  · exact Statement.isPlain_ofNodeLine _

/-! ## The tree of a text -/

/-- The inside of a block, or the outermost level of a text. -/
inductive Body where
  | nil
  | line (line : PlainLine) (more : Body)
  | block (opening : Opening) (inner more : Body)

/-- What some lines make up: a body up to the first `end` that belongs to none of their openings,
and a body from each such `end` to the next one. -/
def bodies : List Line → Body × List Body
  | [] => (.nil, [])
  | line :: lines =>
    let rest := bodies lines
    if hend : IsEnd line then (.nil, rest.1 :: rest.2)
    else if hopening : IsOpening line then
      (.block ⟨line, hopening⟩ rest.1 (rest.2.headD .nil), rest.2.tail)
    else (.line ⟨line, hend, hopening⟩ rest.1, rest.2)

namespace Body

/-- One body after another. -/
def append : Body → Body → Body
  | nil, next => next
  | line l more, next => line l (more.append next)
  | block opening inner more, next => block opening inner (more.append next)

/-- The tree of some lines. An `end` that belongs to no opening is passed over. -/
def ofLines (lines : List Line) : Body :=
  (bodies lines).2.foldl append (bodies lines).1

/-- The lines of a body and of the blocks in it. -/
def lines : Body → List Line
  | nil => []
  | line l more => l.1 :: more.lines
  | block opening inner more => opening.1 :: (inner.lines ++ more.lines)

/-- The nodes mentioned in a body, but not in a block in it, as often as they are. -/
def mentions : Body → List String
  | nil => []
  | line l more => (Statement.ofLine l.1).mentioned ++ more.mentions
  | block _ _ more => more.mentions

/-- The ids of the blocks that are directly in a body. -/
def blockIds : Body → List String
  | nil => []
  | line _ more => more.blockIds
  | block opening _ more => (blockName opening.1).1 :: more.blockIds

/-- The block that an opening and the body after it make up. Every node is listed once. -/
def record (opening : Opening) (inner : Body) : Subgraph where
  id := (blockName opening.1).1
  label := (blockName opening.1).2
  nodeIds := inner.mentions.eraseDups
  subgraphIds := inner.blockIds

/-- The blocks in a body in postorder: a block comes after the blocks in it. -/
def records : Body → List Subgraph
  | nil => []
  | line _ more => more.records
  | block opening inner more => inner.records ++ record opening inner :: more.records

end Body

/-- Lines in which every opening has its `end` and every `end` its opening. -/
inductive Balanced : List Line → Prop where
  | nil : Balanced []
  | line {lines : List Line} (line : PlainLine) (h : Balanced lines) : Balanced (line.1 :: lines)
  | block {inner lines : List Line} {last : Line} (opening : Opening) (hinner : Balanced inner)
    (hlast : IsEnd last) (h : Balanced lines) : Balanced (opening.1 :: (inner ++ last :: lines))

/-- At an `end` line a body ends and the next one begins. -/
theorem bodies_end {line : Line} (h : IsEnd line) (lines : List Line) :
    bodies (line :: lines) = (.nil, (bodies lines).1 :: (bodies lines).2) := by
  rw [bodies, dif_pos h]

/-- An opening line takes the first body behind it as its own, the second one goes on around it. -/
theorem bodies_opening (opening : Opening) (lines : List Line) :
    bodies (opening.1 :: lines) = (.block opening (bodies lines).1 ((bodies lines).2.headD .nil),
      (bodies lines).2.tail) := by
  rw [bodies, dif_neg opening.2.not_isEnd, dif_pos opening.2]

/-- Any other line belongs to the body it stands in. -/
theorem bodies_line (line : PlainLine) (lines : List Line) :
    bodies (line.1 :: lines) = (.line line (bodies lines).1, (bodies lines).2) := by
  rw [bodies, dif_neg line.2.1, dif_neg line.2.2]

/-- A line is one of the three kinds. -/
theorem line_cases (line : Line) :
    IsEnd line ∨ (∃ opening : Opening, opening.1 = line) ∨ ∃ plain : PlainLine, plain.1 = line := by
  by_cases hend : IsEnd line
  · exact Or.inl hend
  · by_cases hopening : IsOpening line
    · exact Or.inr (Or.inl ⟨⟨line, hopening⟩, rfl⟩)
    · exact Or.inr (Or.inr ⟨⟨line, hend, hopening⟩, rfl⟩)

/-- Nothing follows the empty rest. -/
theorem Body.append_nil (b : Body) : b.append .nil = b := by
  induction b with
  | nil => rfl
  | line l more ih => exact congrArg (Body.line l) ih
  | block opening inner more _ ih => exact congrArg (Body.block opening inner) ih

/-- A block around well nested lines is one block, and reading goes on behind it. -/
theorem bodies_block_of_append {inner : List Line}
    (h : ∀ rest, bodies (inner ++ rest) =
      ((bodies inner).1.append (bodies rest).1, (bodies rest).2))
    (opening : Opening) {last : Line} (hlast : IsEnd last) (rest : List Line) :
    bodies (opening.1 :: (inner ++ last :: rest)) =
      (.block opening (bodies inner).1 (bodies rest).1, (bodies rest).2) := by
  rw [bodies_opening, h, bodies_end hlast, Body.append_nil]
  rfl

/-- Balanced lines belong to the body that they begin. -/
theorem Balanced.bodies_append {lines : List Line} (h : Balanced lines) (rest : List Line) :
    bodies (lines ++ rest) = ((bodies lines).1.append (bodies rest).1, (bodies rest).2) := by
  induction h generalizing rest with
  | nil => rfl
  | line l h ih => rw [List.cons_append, bodies_line, bodies_line, ih, Body.append]
  | block opening hinner hlast h ihinner ih =>
    rw [List.cons_append, List.append_assoc, List.cons_append,
      bodies_block_of_append ihinner opening hlast,
      bodies_block_of_append ihinner opening hlast, ih, Body.append]

/-- Well nested lines are one body. -/
theorem Balanced.bodies_eq {lines : List Line} (h : Balanced lines) :
    bodies lines = (Body.ofLines lines, []) := by
  have hlines := h.bodies_append []
  rw [List.append_nil] at hlines
  have hothers : (bodies lines).2 = [] := congrArg Prod.snd hlines
  rw [Body.ofLines, hothers, List.foldl_nil, ← hothers]

/-! ## The lines of a tree -/

namespace Body

/-- The lines of a body with another one behind it. -/
theorem lines_append (b next : Body) : (b.append next).lines = b.lines ++ next.lines := by
  induction b with
  | nil => rfl
  | line l more ih => simp only [append, lines, ih, List.cons_append]
  | block opening inner more _ ih =>
    simp only [append, lines, ih, List.cons_append, List.append_assoc]

/-- The records of a body with another one behind it. -/
theorem records_append (b next : Body) : (b.append next).records = b.records ++ next.records := by
  induction b with
  | nil => rfl
  | line l more ih => exact ih
  | block opening inner more _ ih =>
    simp only [append, records, ih, List.cons_append, List.append_assoc]

/-- Cutting a text into bodies keeps all lines but the `end` lines, in their order. -/
theorem lines_bodies (lines : List Line) :
    (bodies lines).1.lines ++ (bodies lines).2.flatMap Body.lines =
      lines.filter fun line => ¬IsEnd line := by
  induction lines with
  | nil => rfl
  | cons l rest ih =>
    rw [List.filter_cons, ← ih]
    rcases line_cases l with hend | ⟨opening, rfl⟩ | ⟨plain, rfl⟩
    · simp [bodies_end hend, hend, Body.lines]
    · rw [bodies_opening]
      -- A block without an `end` takes all that is left, and nothing goes on around it.
      cases (bodies rest).2 with
      | nil => simp [opening.2.not_isEnd, Body.lines]
      | cons next others => simp [opening.2.not_isEnd, Body.lines]
    · simp [bodies_line, plain.2.1, Body.lines]

/-- What is said of one body after another, for what is said of some bodies one after the other. -/
theorem foldl_append_eq {β : Type} {f : Body → List β}
    (h : ∀ b next : Body, f (b.append next) = f b ++ f next) (first : Body) (others : List Body) :
    f (others.foldl append first) = f first ++ others.flatMap f := by
  induction others generalizing first with
  | nil => exact (List.append_nil _).symm
  | cons next others ih => rw [List.foldl_cons, ih, h, List.flatMap_cons, List.append_assoc]

/-- The tree holds every line in its order, except for those that close blocks. -/
theorem lines_ofLines (lines : List Line) :
    (ofLines lines).lines = lines.filter fun line => ¬IsEnd line := by
  rw [ofLines, foldl_append_eq lines_append, lines_bodies]

/-- Bodies behind surplus `end` lines count as part of the text. -/
theorem records_ofLines (lines : List Line) : (ofLines lines).records =
    (bodies lines).1.records ++ (bodies lines).2.flatMap records :=
  foldl_append_eq records_append _ _

/-- A line in front of others does not change the blocks in these. -/
theorem mem_records_cons {block : Subgraph} {lines : List Line}
    (h : block ∈ (ofLines lines).records) (line : Line) :
    block ∈ (ofLines (line :: lines)).records := by
  rw [records_ofLines] at h ⊢
  rcases line_cases line with hend | ⟨opening, rfl⟩ | ⟨plain, rfl⟩
  · rw [bodies_end hend]
    exact h
  · rw [bodies_opening]
    cases hothers : (bodies lines).2 with
    | nil =>
      rw [hothers] at h
      simpa [records] using Or.inl h
    | cons next others =>
      rw [hothers] at h
      simp only [List.flatMap_cons, List.mem_append] at h
      simp only [records, List.headD_cons, List.tail_cons, List.mem_append, List.mem_cons]
      tauto
  · rw [bodies_line]
    exact h

/-- Every opening gives the block that it makes up with the body after it. -/
theorem record_mem_records (before : List Line) (opening : Opening) (lines : List Line) :
    record opening (bodies lines).1 ∈ (ofLines (before ++ opening.1 :: lines)).records := by
  induction before with
  | nil =>
    rw [List.nil_append, records_ofLines, bodies_opening]
    simp [records]
  | cons line before ih => exact mem_records_cons ih line

/-- There is one record for each opening line, with the id and label given there. -/
theorem perm_names_records (b : Body) : (b.records.map fun s => (s.id, s.label)).Perm
    ((b.lines.filter fun line => IsOpening line).map blockName) := by
  induction b with
  | nil => exact .refl _
  | line l more ih =>
    have hplain : ¬IsOpening l.1 := l.2.2
    simpa [records, lines, hplain] using ih
  | block opening inner more hinner hmore =>
    have hopening : IsOpening opening.1 := opening.2
    simp only [records, lines, List.filter_cons, hopening, List.filter_append, List.map_append,
      List.map_cons, decide_true, if_true]
    exact List.perm_middle.trans ((hinner.append hmore).cons _)

end Body

/-! ## Reading a tree -/

/-- The ids of a list with one more, unless it is there already. -/
def addId (known : List String) (id : String) : List String :=
  if known.contains id then known else known ++ [id]

/-- Adding ids one by one leaves each one where it comes first. -/
theorem foldl_addId (ids : List String) : ids.foldl addId [] = ids.eraseDups := by
  induction ids using List.reverseRecOn with
  | nil => rfl
  | append_singleton ids id ih =>
    rw [List.foldl_append, ih, eraseDups_concat]
    simp [addId]

namespace OpenBlock

/-- An open block after all that stands in a body. -/
def holding (block : OpenBlock) (b : Body) : OpenBlock :=
  { block with
    nodeIds := b.mentions.foldl addId block.nodeIds
    subgraphIds := block.subgraphIds ++ b.blockIds }

/-- Adding nodes to a block changes its list of nodes and nothing else. -/
theorem foldl_addNode (block : OpenBlock) (ids : List String) :
    ids.foldl addNode block = { block with nodeIds := ids.foldl addId block.nodeIds } := by
  induction ids generalizing block with
  | nil => rfl
  | cons id ids ih => exact ih (block.addNode id)

/-- What is closed after all that stands in a body is the block that the body makes up. -/
theorem closed_holding (opening : Opening) (inner : Body) :
    (OpenBlock.holding ⟨(blockName opening.1).1, (blockName opening.1).2, [], []⟩ inner).closed =
      Body.record opening inner := by
  simp only [holding, closed, Body.record, foldl_addId, List.nil_append]

end OpenBlock

namespace Draft

/-- Reads the lines of a body and closes each block in it. -/
def read (d : Draft) : Body → Draft
  | .nil => d
  | .line l more => (d.apply (Statement.ofLine l.1)).read more
  | .block opening inner more =>
    ((d.apply (Statement.ofLine opening.1)).read inner).close.read more

/-- Closing blocks one by one, the first one separately. -/
theorem repeat_close (n : Nat) (d : Draft) :
    Nat.repeat close n d.close = Nat.repeat close (n + 1) d := by
  induction n with
  | zero => rfl
  | succ n ih => exact congrArg close ih

/-- What is open in the end is closed, whether or not the innermost block has been before. -/
theorem finish_close (d : Draft) : d.close.finish = d.finish := by
  unfold finish
  rw [close_openBlocks]
  cases hopen : d.openBlocks with
  | nil =>
    have hclose : d.close = d := by simp only [close, hopen]
    rw [hclose]
    rfl
  | cons block outer => exact repeat_close outer.length d

/-- Lines are read as the bodies that they make up, with a block closed after each but the last. -/
theorem finish_readLines (d : Draft) (lines : List Line) :
    (d.readLines lines).finish =
      ((bodies lines).2.foldl (fun d b => d.close.read b) (d.read (bodies lines).1)).finish := by
  induction lines generalizing d with
  | nil => rfl
  | cons l rest ih =>
    have hstep : d.readLines (l :: rest) = (d.apply (Statement.ofLine l)).readLines rest := rfl
    rw [hstep, ih]
    rcases line_cases l with hend | ⟨opening, rfl⟩ | ⟨plain, rfl⟩
    · rw [bodies_end hend, ofLine_of_isEnd hend]
      rfl
    · rw [bodies_opening]
      cases (bodies rest).2 with
      | nil =>
        -- The block is still open at the end of the text.
        exact (finish_close _).symm
      | cons next others => rfl
    · rw [bodies_line]
      rfl

/-- A plain statement adds the nodes that it mentions to the innermost open block. -/
theorem openBlocks_apply {s : Statement} (h : s.IsPlain) (d : Draft) :
    (d.apply s).openBlocks =
      d.openBlocks.modifyHead fun block => s.mentioned.foldl OpenBlock.addNode block := by
  have hmention : ∀ d : Draft, ∀ ref : NodeRef,
      (d.mention ref).openBlocks = d.openBlocks.modifyHead (·.addNode ref.id) := by
    intro d ref
    simp only [mention, mentionInBlock]
    cases d.openBlocks <;> rfl
  cases s with
  | closeBlock => exact h.elim
  | openBlock id label => exact h.elim
  | mention ref => exact hmention d ref
  | edge source target label style =>
    -- An edge mentions its source and then its target.
    have hsource := hmention d source
    have htarget := hmention (d.mention source) target
    rw [hsource, List.modifyHead_modifyHead] at htarget
    exact htarget
  | _ => exact (congrFun List.modifyHead_id _).symm

/-- A plain statement closes no block. -/
theorem subgraphs_apply {s : Statement} (h : s.IsPlain) (d : Draft) :
    (d.apply s).subgraphs = d.subgraphs := by
  cases s <;> first | rfl | exact h.elim

/-- Closing a block records it and tells the block around it. -/
theorem close_of_openBlocks_eq_cons {d : Draft} {block : OpenBlock} {outer : List OpenBlock}
    (h : d.openBlocks = block :: outer) :
    d.close.openBlocks = outer.modifyHead (·.addSubgraph block.id) ∧
      d.close.subgraphs = d.subgraphs ++ [block.closed] := by
  simp only [close, h, and_true]
  cases outer <;> rfl

/-- A body that is read belongs to the innermost open block, and the blocks in it are closed. -/
theorem openBlocks_and_subgraphs_read (d : Draft) (b : Body) :
    (d.read b).openBlocks = d.openBlocks.modifyHead (·.holding b) ∧
      (d.read b).subgraphs = d.subgraphs ++ b.records := by
  induction b generalizing d with
  | nil =>
    refine ⟨?_, (List.append_nil _).symm⟩
    cases hopen : d.openBlocks with
    | nil => exact hopen
    | cons block outer => simp [read, hopen, OpenBlock.holding, Body.mentions, Body.blockIds]
  | line l more ih =>
    -- A plain line fills the open block before the rest of the body does.
    have hplain := l.isPlain_ofLine
    rcases ih (d.apply (Statement.ofLine l.1)) with ⟨hopen, hclosed⟩
    rw [openBlocks_apply hplain, List.modifyHead_modifyHead] at hopen
    rw [subgraphs_apply hplain] at hclosed
    refine ⟨hopen.trans ?_, hclosed⟩
    congr 1
    funext block
    simp only [Function.comp_apply, OpenBlock.foldl_addNode, OpenBlock.holding, Body.mentions,
      Body.blockIds, List.foldl_append]
  | block opening inner more hinner hmore =>
    rw [read, ofLine_of_isOpening opening.2]
    -- The block is opened, filled and closed before the rest of the body is read.
    rcases hinner (d.apply (.openBlock (blockName opening.1).1 (blockName opening.1).2)) with
      ⟨hopen, hclosed⟩
    rcases close_of_openBlocks_eq_cons hopen with ⟨hopen', hclosed'⟩
    rcases hmore ((d.apply (.openBlock (blockName opening.1).1 (blockName opening.1).2)).read
      inner).close with ⟨hopen'', hclosed''⟩
    rw [hopen', List.modifyHead_modifyHead] at hopen''
    rw [hclosed', hclosed, OpenBlock.closed_holding] at hclosed''
    refine ⟨hopen''.trans ?_, hclosed''.trans ?_⟩
    · congr 1
      funext block
      simp [OpenBlock.holding, OpenBlock.addSubgraph, Body.mentions, Body.blockIds]
    · simp [Body.records, apply]

/-- Where no block is open, an `end` says nothing and bodies leave their blocks behind. -/
theorem foldl_read {d : Draft} (h : d.openBlocks = []) (others : List Body) :
    (others.foldl (fun d b => d.close.read b) d).openBlocks = [] ∧
      (others.foldl (fun d b => d.close.read b) d).subgraphs =
        d.subgraphs ++ others.flatMap Body.records := by
  induction others generalizing d with
  | nil => exact ⟨h, (List.append_nil _).symm⟩
  | cons next others ih =>
    have hclose : d.close = d := by simp only [close, h]
    rcases openBlocks_and_subgraphs_read d next with ⟨hopen, hclosed⟩
    rw [h] at hopen
    rcases ih hopen with ⟨hopen', hclosed'⟩
    rw [List.foldl_cons, hclose, hclosed', hclosed, List.flatMap_cons, List.append_assoc]
    exact ⟨hopen', rfl⟩

/-- What is recorded in the end, blocks that are still open included. -/
theorem subgraphs_finish_readLines (lines : List Line) :
    (empty.readLines lines).finish.subgraphs = (Body.ofLines lines).records := by
  rcases openBlocks_and_subgraphs_read empty (bodies lines).1 with ⟨hopen, hclosed⟩
  rcases foldl_read hopen (bodies lines).2 with ⟨hopen', hclosed'⟩
  rw [finish_readLines, finish, hopen', Body.records_ofLines]
  exact hclosed'.trans (congrArg (· ++ _) hclosed)

end Draft

/-! ## The block that is open at the end -/

/-- Well nested lines one after the other are well nested. -/
theorem Balanced.append {lines more : List Line} (h : Balanced lines) (hmore : Balanced more) :
    Balanced (lines ++ more) := by
  induction h with
  | nil => exact hmore
  | line l _ ih => exact .line l ih
  | block opening hinner hlast _ _ ih =>
    rw [List.cons_append, List.append_assoc, List.cons_append]
    exact .block opening hinner hlast ih

/-- The lines end inside the block of an opening: what is opened after it is closed again. -/
def EndsInside (lines : List Line) (opening : Opening) (inner : List Line) : Prop :=
  Balanced inner ∧ ∃ before, lines = before ++ opening.1 :: inner

/-- A block that lists some nodes behind its own, those apart that it lists already. -/
def withNodes (block : Subgraph) (ids : List String) : Subgraph :=
  { block with nodeIds := ids.foldl addId block.nodeIds }

/-- The record of a block after more nodes have been added to it. -/
theorem OpenBlock.closed_foldl_addNode (block : OpenBlock) (ids : List String) :
    (ids.foldl addNode block).closed = withNodes block.closed ids := by
  rw [foldl_addNode]
  rfl

namespace Draft

/-- Reading lines one part after the other. -/
theorem readLines_append (d : Draft) (lines more : List Line) :
    d.readLines (lines ++ more) = (d.readLines lines).readLines more := List.foldl_append

/-- Balanced lines are read as the body that they make up. -/
theorem readLines_of_balanced {lines : List Line} (h : Balanced lines) (d : Draft) :
    d.readLines lines = d.read (Body.ofLines lines) := by
  have hread : d.readLines lines = d.read (bodies lines).1 := by
    induction h generalizing d with
    | nil => rfl
    | line l _ ih =>
      rw [bodies_line]
      exact ih (d.apply (Statement.ofLine l.1))
    | @block inner lines last opening hinner hlast _ ihinner ih =>
      have hlines : d.readLines (opening.1 :: (inner ++ last :: lines)) =
          (((d.apply (Statement.ofLine opening.1)).readLines inner).apply
            (Statement.ofLine last)).readLines lines :=
        readLines_append _ inner (last :: lines)
      rw [hlines, bodies_block_of_append hinner.bodies_append opening hlast, ihinner,
        ofLine_of_isEnd hlast]
      exact ih _
  rw [hread, h.bodies_eq]

/-- Inside the block of an opening this block lies on top of those that were open before. -/
theorem openBlocks_readLines_opening (d : Draft) (before : List Line) (opening : Opening)
    {inner : List Line} (h : Balanced inner) :
    (d.readLines (before ++ opening.1 :: inner)).openBlocks =
      OpenBlock.holding ⟨(blockName opening.1).1, (blockName opening.1).2, [], []⟩
        (Body.ofLines inner) :: (d.readLines before).openBlocks := by
  have hlines : d.readLines (before ++ opening.1 :: inner) =
      ((d.readLines before).apply (Statement.ofLine opening.1)).readLines inner :=
    readLines_append d before (opening.1 :: inner)
  rw [hlines, readLines_of_balanced h, (openBlocks_and_subgraphs_read _ _).1,
    ofLine_of_isOpening opening.2]
  rfl

/-- The last line is applied to what the lines before it lead to. -/
theorem readLines_snoc (d : Draft) (lines : List Line) (line : Line) :
    d.readLines (lines ++ [line]) = (d.readLines lines).apply (Statement.ofLine line) :=
  readLines_append d lines [line]

/-- If a block is open, the lines end inside the block of one of their openings. -/
theorem exists_endsInside {lines : List Line} (h : (empty.readLines lines).openBlocks ≠ []) :
    ∃ opening inner, EndsInside lines opening inner := by
  -- An `end` shows the block around the one that it closes, so what is known of all shorter texts
  -- is needed.
  induction hn : lines.length using Nat.strong_induction_on generalizing lines with
  | _ n ih =>
    subst hn
    rcases List.eq_nil_or_concat lines with rfl | ⟨seen, line, rfl⟩
    · exact absurd rfl h
    have hseen : seen.length < (seen.concat line).length := by simp
    rw [List.concat_eq_append] at h ⊢
    rw [readLines_snoc] at h
    rcases line_cases line with hend | ⟨opening, rfl⟩ | ⟨plain, rfl⟩
    · rw [ofLine_of_isEnd hend] at h
      -- Behind an `end` a block is open only if two were open before it.
      have hopen : (empty.readLines seen).openBlocks ≠ [] := by
        intro hnil
        simp [apply, close, hnil] at h
      obtain ⟨opening, inner, hinner, before, rfl⟩ := ih _ hseen hopen rfl
      have hblocks := openBlocks_readLines_opening empty before opening hinner
      have houter : (empty.readLines before).openBlocks ≠ [] := by
        intro hnil
        have hclose := (close_of_openBlocks_eq_cons hblocks).1
        rw [hnil] at hclose
        exact h hclose
      have hbefore : before.length < ((before ++ opening.1 :: inner).concat line).length := by
        simp
      obtain ⟨outer, seen, hbalanced, first, rfl⟩ := ih _ hbefore houter rfl
      refine ⟨outer, seen ++ opening.1 :: (inner ++ [line]), ?_, first, by simp⟩
      exact hbalanced.append (.block opening hinner hend .nil)
    · -- A block that was opened last is empty so far.
      exact ⟨opening, [], .nil, seen, rfl⟩
    · -- Any other line joins what the innermost block holds.
      have hopen : (empty.readLines seen).openBlocks ≠ [] := by
        intro hnil
        rw [openBlocks_apply plain.isPlain_ofLine, hnil] at h
        exact h rfl
      obtain ⟨opening, inner, hinner, before, rfl⟩ := ih _ hseen hopen rfl
      exact ⟨opening, inner ++ [plain.1], hinner.append (.line plain .nil), before, by simp⟩

/-- What is closed at the end after the innermost open block depends on the id of this block and on
the blocks around it, but not on what stands in it. -/
theorem exists_subgraphs_finish (outer : List OpenBlock) (id : String) :
    ∃ others, ∀ (d : Draft) (block : OpenBlock), d.openBlocks = block :: outer → block.id = id →
      d.finish.subgraphs = d.subgraphs ++ block.closed :: others := by
  induction outer generalizing id with
  | nil =>
    refine ⟨[], ?_⟩
    intro d block hopen _
    rcases close_of_openBlocks_eq_cons hopen with ⟨hnone, hclosed⟩
    rw [← finish_close, finish, hnone]
    exact hclosed
  | cons parent outer ih =>
    obtain ⟨others, hothers⟩ := ih parent.id
    refine ⟨(parent.addSubgraph id).closed :: others, ?_⟩
    rintro d block hopen rfl
    rcases close_of_openBlocks_eq_cons hopen with ⟨hparent, hclosed⟩
    rw [← finish_close, hothers d.close _ hparent rfl, hclosed, List.append_assoc]
    rfl

end Draft

/-- The blocks of a chart whose last line is applied to what the lines before it lead to. -/
theorem subgraphs_ofLines_concat (header : Line) (lines : List Line) (line : Line) :
    (ofLines header (lines ++ [line])).subgraphs =
      ((Draft.empty.readLines lines).apply (Statement.ofLine line)).finish.subgraphs :=
  congrArg (fun d => d.finish.subgraphs) (Draft.readLines_snoc _ lines line)

/-- One more line that neither opens a block nor closes one leaves all blocks of a chart as they are,
except for the innermost one that is open there: that one lists the nodes which the line mentions. It is
the first one that is closed at the end. -/
theorem subgraphs_ofLines_snoc (header : Line) (lines : List Line) (line : PlainLine) :
    ((∀ opening inner, ¬EndsInside lines opening inner) →
      (ofLines header (lines ++ [line.1])).subgraphs = (ofLines header lines).subgraphs) ∧
    ∀ opening inner, EndsInside lines opening inner →
      let closed := (Draft.empty.readLines lines).subgraphs
      let block := Body.record opening (Body.ofLines inner)
      ∃ others, (ofLines header lines).subgraphs = closed ++ block :: others ∧
        (ofLines header (lines ++ [line.1])).subgraphs =
          closed ++ withNodes block (Statement.ofLine line.1).mentioned :: others := by
  have hplain := line.isPlain_ofLine
  have hblocks := Draft.openBlocks_apply hplain (Draft.empty.readLines lines)
  have hclosed := Draft.subgraphs_apply hplain (Draft.empty.readLines lines)
  rw [subgraphs_ofLines_concat]
  constructor
  · intro houtside
    -- Outside all blocks nothing is open, so the line has no block to join.
    have hnone : (Draft.empty.readLines lines).openBlocks = [] := by
      by_contra hopen
      obtain ⟨opening, inner, hinside⟩ := Draft.exists_endsInside hopen
      exact houtside opening inner hinside
    rw [hnone] at hblocks
    rw [Draft.finish, hblocks]
    refine hclosed.trans ?_
    rw [ofLines, Draft.finish, hnone]
    rfl
  · rintro opening inner ⟨hinner, before, hlines⟩
    -- The innermost open block is the one that the text ends in; it is the first to be closed at
    -- the end.
    have hopen := Draft.openBlocks_readLines_opening .empty before opening hinner
    rw [← hlines] at hopen
    rw [hopen] at hblocks
    obtain ⟨others, hfinish⟩ := Draft.exists_subgraphs_finish
      (Draft.empty.readLines before).openBlocks (blockName opening.1).1
    refine ⟨others, ?_, ?_⟩
    · rw [← OpenBlock.closed_holding]
      exact hfinish _ _ hopen rfl
    · have hid := congrArg OpenBlock.id (OpenBlock.foldl_addNode (OpenBlock.holding
        ⟨(blockName opening.1).1, (blockName opening.1).2, [], []⟩ (Body.ofLines inner))
          (Statement.ofLine line.1).mentioned)
      rw [hfinish _ _ hblocks hid, hclosed, OpenBlock.closed_foldl_addNode,
        OpenBlock.closed_holding]

/-- The blocks of a chart are those of the tree of its lines, in postorder: each opening gives one
block, which lists the nodes mentioned in it, each once and in the order of first mention, and the
blocks directly in it in the order in which they are closed. An opening and the `end` that belongs to
it give the block of the lines between them, whatever stands before and after. -/
theorem subgraphs_eq_records (header : Line) (lines : List Line) :
    (ofLines header lines).subgraphs = (Body.ofLines lines).records ∧
      ((ofLines header lines).subgraphs.map fun s => (s.id, s.label)).Perm
        ((lines.filter fun line => IsOpening line).map blockName) ∧
      ∀ (before inner after : List Line) (opening : Opening) (last : Line),
        lines = before ++ opening.1 :: (inner ++ last :: after) → Balanced inner → IsEnd last →
          Body.record opening (Body.ofLines inner) ∈ (ofLines header lines).subgraphs := by
  have hrecords : (ofLines header lines).subgraphs = (Body.ofLines lines).records :=
    Draft.subgraphs_finish_readLines lines
  refine ⟨hrecords, ?_, ?_⟩
  · -- Leaving out `end` lines leaves out no opening line.
    have hopenings : (Body.ofLines lines).lines.filter (fun line => IsOpening line) =
        lines.filter fun line => IsOpening line := by
      rw [Body.lines_ofLines, List.filter_filter]
      refine List.filter_congr fun line _ => ?_
      by_cases hopening : IsOpening line
      · simp [hopening, hopening.not_isEnd]
      · simp [hopening]
    rw [hrecords, ← hopenings]
    exact Body.perm_names_records _
  · intro before inner after opening last hlines hinner hlast
    -- The body of a matched block does not depend on what stands behind it.
    have hbody : (bodies (inner ++ last :: after)).1 = Body.ofLines inner := by
      rw [hinner.bodies_append, bodies_end hlast, Body.append_nil, hinner.bodies_eq]
    rw [hrecords, hlines, ← hbody]
    exact Body.record_mem_records before opening _

/-- A block in another one without an `end`, after an `end` without an opening. -/
theorem subgraphs_eq_records_inner_block :
    Balanced ["A --> B".toList, "A".toList] ∧ IsEnd "end;".toList ∧
      (⟨"two", "Second", ["A", "B"], []⟩ : Subgraph) ∈ (ofLines "flowchart TD".toList
        ["end".toList, "subgraph one".toList, "subgraph two [Second]".toList, "A --> B".toList,
          "A".toList, "end;".toList, "C".toList]).subgraphs := by
  have hbalanced : Balanced ["A --> B".toList, "A".toList] :=
    .line ⟨"A --> B".toList, by decide⟩ (.line ⟨"A".toList, by decide⟩ .nil)
  have hend : IsEnd "end;".toList := by decide
  have hopening : IsOpening "subgraph two [Second]".toList := by decide
  have hrecord : Body.record ⟨_, hopening⟩ (Body.ofLines ["A --> B".toList, "A".toList]) =
      ⟨"two", "Second", ["A", "B"], []⟩ := by decide +kernel +revert
  have hmem := (subgraphs_eq_records "flowchart TD".toList
    ["end".toList, "subgraph one".toList, "subgraph two [Second]".toList, "A --> B".toList,
      "A".toList, "end;".toList, "C".toList]).2.2 ["end".toList, "subgraph one".toList]
        ["A --> B".toList, "A".toList] ["C".toList] ⟨_, hopening⟩ _ rfl hbalanced hend
  rw [hrecord] at hmem
  exact ⟨hbalanced, hend, hmem⟩

end Flowchart

end TextDiagram
