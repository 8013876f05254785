import Mathlib.Data.List.Induction
import Mathlib.Tactic.Ring
import TextDiagram.Proofs.Flowchart.Layout
import TextDiagram.Proofs.Geometry.Containment
/-!
# Frames of blocks hold what is in the blocks

A block is closed after the blocks in it, so their frames are known when its own frame is computed.
Frames are kept under the ids of their blocks: while no two blocks have the same id, no frame is lost
and every frame has room around each member of its block. A later block of the same id takes the
place of the frame of an earlier one.

Main statements:

* `contains_of_enclosing`: the frame around some members.
* `InnerFirst.value?_blockFrames`: later blocks do not change what a frame is made of.
* `innerFirst_ofLines`: the blocks of a text are listed after the blocks in them.
* `blocks_contain_members`: the frames in the drawing of a text.
* `frame_of_repeated_id`: two blocks of one id.
-/

namespace TextDiagram

namespace Flowchart

/-! ## Room around members -/

/-- A frame with the room that a block keeps around its members. -/
def roomAround (config : Config) (r : Rect Rat) : Rect Rat :=
  let padded := r.padded config.subgraphPadding
  { padded with top := padded.top - config.subgraphLabelHeight }

variable {config : Config}

/-- Room for more leaves room for less. -/
theorem contains_roomAround {a b : Rect Rat} (h : a.Contains b) :
    (roomAround config a).Contains (roomAround config b) := by
  constructor
  · exact sub_le_sub_right h.left _
  · exact sub_le_sub_right (sub_le_sub_right h.top _) _
  · exact add_le_add_left h.right _
  · exact add_le_add_left h.bottom _

/-- Room is moved along with what it is around. -/
theorem roomAround_shifted (r : Rect Rat) (dx dy : Rat) :
    roomAround config (r.shifted dx dy) = (roomAround config r).shifted dx dy := by
  simp only [roomAround, Rect.padded, Rect.shifted, Rect.mk.injEq]
  refine ⟨?_, ?_, ?_, ?_⟩ <;> ring

/-- The frame around some members has room around each of them. -/
theorem contains_of_enclosing {members : List (Rect Rat)} {frame r : Rect Rat}
    (h : enclosing config members = some frame) (hr : r ∈ members) :
    frame.Contains (roomAround config r) := by
  cases members with
  | nil => simp at hr
  | cons first others =>
    have hframe : some (roomAround config (others.foldl Rect.union first)) = some frame := h
    cases hframe
    exact contains_roomAround (Rect.contains_foldl_union_iff.1 (Rect.Contains.refl _) r hr)

/-! ## Frames under the ids of blocks -/

section

variable {α : Type} [Scalar α] {nodes blocks : List (String × Rect α)} {block : Subgraph}

/-- Framing a block leaves the frames of other ids alone. -/
theorem value?_frameBlock_of_ne {id : String} (h : id ≠ block.id) :
    Keyed.value? (frameBlock config nodes blocks block) id = Keyed.value? blocks id := by
  unfold frameBlock
  split
  · exact Keyed.value?_put_of_ne h _ _
  · rfl

/-- A block with members is framed around them. -/
theorem value?_frameBlock_self {frame : Rect α}
    (h : enclosing config (memberFrames nodes blocks block) = some frame) :
    Keyed.value? (frameBlock config nodes blocks block) block.id = some frame := by
  unfold frameBlock
  rw [h]
  exact Keyed.value?_put_self _ _ _

/-- The frame of a block matters to the blocks that list its id only. -/
theorem memberFrames_frameBlock {other : Subgraph} (h : block.id ∉ other.subgraphIds) :
    memberFrames nodes (frameBlock config nodes blocks block) other =
      memberFrames nodes blocks other := by
  unfold memberFrames
  congr 1
  refine List.filterMap_congr fun id hid => value?_frameBlock_of_ne ?_
  rintro rfl
  exact h hid

/-- The last block is framed after all others. -/
theorem blockFrames_snoc (closed : List Subgraph) (block : Subgraph) :
    blockFrames config nodes (closed ++ [block]) =
      frameBlock config nodes (blockFrames config nodes closed) block := by
  simp only [blockFrames, List.foldl_append, List.foldl_cons, List.foldl_nil]

/-- Only blocks have frames. -/
theorem mem_ids_of_mem_keys_blockFrames {nodes : List (String × Rect α)} {blocks : List Subgraph}
    {name : String} (h : name ∈ Keyed.keys (blockFrames config nodes blocks)) :
    name ∈ blocks.map (·.id) := by
  -- The last block is framed last.
  induction blocks using List.reverseRecOn with
  | nil => cases h
  | append_singleton closed block ih =>
    rw [List.map_append]
    rw [blockFrames_snoc] at h
    unfold frameBlock at h
    split at h
    · rcases Keyed.mem_keys_put.1 h with rfl | hold
      · exact List.mem_append_right _ (List.mem_singleton_self _)
      · exact List.mem_append_left _ (ih hold)
    · exact List.mem_append_left _ (ih h)

end

/-! ## Inner blocks first -/

/-- Every block is listed after the blocks that it lists. -/
inductive InnerFirst : List Subgraph → Prop where
  | nil : InnerFirst []
  | snoc {closed : List Subgraph} {block : Subgraph} (h : InnerFirst closed)
      (hmem : ∀ id ∈ block.subgraphIds, id ∈ closed.map (·.id)) : InnerFirst (closed ++ [block])

namespace InnerFirst

/-- What a block lists as nested in it is a block. -/
theorem mem_ids {subgraphs : List Subgraph} (h : InnerFirst subgraphs) {s : Subgraph}
    (hs : s ∈ subgraphs) {id : String} (hid : id ∈ s.subgraphIds) : id ∈ subgraphs.map (·.id) := by
  induction h with
  | nil => simp at hs
  | @snoc closed block h hmem ih =>
    rw [List.map_append]
    refine List.mem_append_left _ ?_
    rcases List.mem_append.1 hs with hold | hnew
    · exact ih hold
    · rw [List.mem_singleton.1 hnew] at hid
      exact hmem id hid

/-- What holds of every block if it holds of the blocks in it holds of all blocks. -/
theorem forall_of_inner {subgraphs : List Subgraph} (h : InnerFirst subgraphs)
    (hnodup : (subgraphs.map (·.id)).Nodup) {P : Subgraph → Prop}
    (hstep : ∀ s ∈ subgraphs, (∀ t ∈ subgraphs, t.id ∈ s.subgraphIds → P t) → P s) :
    ∀ s ∈ subgraphs, P s := by
  induction h with
  | nil => simp
  | @snoc closed block h hmem ih =>
    rw [List.map_append] at hnodup
    have hnew : block.id ∉ closed.map (·.id) := notMem_before hnodup
    have hclosed := (List.nodup_append.1 hnodup).1
    -- An earlier block lists no later one, so for it the claim is about earlier blocks only.
    have hold : ∀ s ∈ closed, P s := by
      refine ih hclosed fun s hs hinner => hstep s (List.mem_append_left _ hs) fun t ht hid => ?_
      rcases List.mem_append.1 ht with ht | hlast
      · exact hinner t ht hid
      · rw [List.mem_singleton.1 hlast] at hid
        exact absurd (h.mem_ids hs hid) hnew
    intro s hs
    rcases List.mem_append.1 hs with hs' | hlast
    · exact hold s hs'
    · -- The last block does not list itself: its id is new.
      refine hstep s hs fun t ht hid => ?_
      rw [List.mem_singleton.1 hlast] at hid
      rcases List.mem_append.1 ht with ht | hlast
      · exact hold t ht
      · rw [List.mem_singleton.1 hlast] at hid
        exact absurd (hmem _ hid) hnew

/-- If no id is used twice, every block has in the end the frame around the members that have a
frame in the end. -/
theorem value?_blockFrames {α : Type} [Scalar α] {subgraphs : List Subgraph}
    (h : InnerFirst subgraphs) (hnodup : (subgraphs.map (·.id)).Nodup)
    (nodes : List (String × Rect α)) {s : Subgraph} (hs : s ∈ subgraphs) :
    Keyed.value? (blockFrames config nodes subgraphs) s.id =
      enclosing config (memberFrames nodes (blockFrames config nodes subgraphs) s) := by
  induction h with
  | nil => simp at hs
  | @snoc closed block h hmem ih =>
    rw [List.map_append] at hnodup
    have hnew : block.id ∉ closed.map (·.id) := notMem_before hnodup
    have hclosed := (List.nodup_append.1 hnodup).1
    rw [blockFrames_snoc]
    rcases List.mem_append.1 hs with hold | hlast
    · -- The new block is neither the old one nor a member of it.
      have hid : s.id ∈ closed.map (·.id) := List.mem_map_of_mem hold
      rw [value?_frameBlock_of_ne (fun heq => hnew (heq ▸ hid)),
        memberFrames_frameBlock (fun hinner => hnew (h.mem_ids hold hinner))]
      exact ih hclosed hold
    · rw [List.mem_singleton.1 hlast, memberFrames_frameBlock (fun hinner => hnew (hmem _ hinner))]
      cases henclosing : enclosing config
          (memberFrames nodes (blockFrames config nodes closed) block) with
      | some frame => exact value?_frameBlock_self henclosing
      | none =>
        -- Without members the new block gets no frame, and it had none before.
        rw [frameBlock, henclosing]
        cases hvalue : Keyed.value? (blockFrames config nodes closed) block.id with
        | none => rfl
        | some frame =>
          exact absurd (mem_ids_of_mem_keys_blockFrames (Keyed.exists_value?_iff.1 ⟨_, hvalue⟩)) hnew

/-- If no id is used twice, the frame of every block has room around each member that has a frame
in the end. -/
theorem contains_members {subgraphs : List Subgraph} (h : InnerFirst subgraphs)
    (hnodup : (subgraphs.map (·.id)).Nodup) (nodes : List (String × Rect Rat)) {s : Subgraph}
    (hs : s ∈ subgraphs) {frame r : Rect Rat}
    (hframe : Keyed.value? (blockFrames config nodes subgraphs) s.id = some frame)
    (hr : r ∈ memberFrames nodes (blockFrames config nodes subgraphs) s) :
    frame.Contains (roomAround config r) := by
  rw [h.value?_blockFrames hnodup nodes hs] at hframe
  exact contains_of_enclosing hframe hr

end InnerFirst

/-! ## Reading -/

namespace Draft

/-- Inner blocks are closed first, and an open block lists closed blocks only. -/
structure Nested (d : Draft) : Prop where
  subgraphs : InnerFirst d.subgraphs
  openBlocks : ∀ block ∈ d.openBlocks, ∀ id ∈ block.subgraphIds, id ∈ d.subgraphs.map (·.id)

/-- At first there are no blocks. -/
theorem nested_empty : Nested empty := ⟨.nil, by simp [empty]⟩

/-- Mentioning a node keeps the invariant. -/
theorem Nested.mention {d : Draft} (h : d.Nested) (ref : NodeRef) : (d.mention ref).Nested := by
  refine ⟨h.subgraphs, fun block hblock id hid => ?_⟩
  simp only [Draft.mention, mentionInBlock] at hblock
  -- A node joins the innermost block, whose nested blocks stay the same.
  split at hblock
  · simp at hblock
  · next inner outer heq =>
    rcases List.mem_cons.1 hblock with rfl | houter
    · exact h.openBlocks inner (by simp [heq]) id hid
    · exact h.openBlocks block (by simp [heq, houter]) id hid

/-- Closing a block keeps the invariant. -/
theorem Nested.close {d : Draft} (h : d.Nested) : d.close.Nested := by
  unfold Draft.close
  split
  · exact h
  · next inner outer heq =>
    have hinner := h.openBlocks inner (by simp [heq])
    refine ⟨h.subgraphs.snoc hinner, fun block hblock id hid => ?_⟩
    rw [List.map_append]
    cases outer with
    | nil => simp at hblock
    | cons parent others =>
      rcases List.mem_cons.1 hblock with rfl | hothers
      · -- The block around the closed one lists it from now on.
        rcases List.mem_append.1 hid with hold | hnew
        · exact List.mem_append_left _ (h.openBlocks parent (by simp [heq]) id hold)
        · exact List.mem_append_right _ hnew
      · exact List.mem_append_left _ (h.openBlocks block (by simp [heq, hothers]) id hid)

/-- Every statement keeps the invariant. -/
theorem Nested.apply {d : Draft} (h : d.Nested) (s : Statement) : (d.apply s).Nested := by
  cases s with
  | closeBlock => exact h.close
  | openBlock id label =>
    refine ⟨h.subgraphs, fun block hblock => ?_⟩
    rcases List.mem_cons.1 hblock with rfl | hold
    · simp
    · exact h.openBlocks block hold
  | mention ref => exact h.mention ref
  | edge source target label style =>
    have hends := (h.mention source).mention target
    exact ⟨hends.subgraphs, hends.openBlocks⟩
  | _ => exact ⟨h.subgraphs, h.openBlocks⟩

end Draft

/-- The blocks of a chart come after those that are nested in them. -/
theorem innerFirst_ofLines (header : Line) (lines : List Line) :
    InnerFirst (ofLines header lines).subgraphs :=
  (Draft.holds_finish Draft.nested_empty (fun _ s hd => hd.apply s) lines).subgraphs

/-! ## Drawings -/

/-- Shifting frames moves each of them. -/
theorem value?_shiftFrames {α : Type} [Scalar α] (move : α × α) (frames : List (String × Rect α))
    (id : String) : Keyed.value? (shiftFrames move frames) id =
      (Keyed.value? frames id).map (·.shifted move.1 move.2) :=
  Keyed.value?_map (fun r : Rect α => r.shifted move.1 move.2) frames id

section

variable {chart : Flowchart} {l : FlowchartLayout Rat}

/-- What is found after a shift was found before it. -/
theorem exists_value?_of_shiftFrames {move : Rat × Rat} {frames : List (String × Rect Rat)}
    {id : String} {frame : Rect Rat} (h : Keyed.value? (shiftFrames move frames) id = some frame) :
    ∃ r, Keyed.value? frames id = some r ∧ r.shifted move.1 move.2 = frame := by
  rw [value?_shiftFrames] at h
  exact Option.map_eq_some_iff.1 h

/-- A placed node has the frame that the grid gave it. -/
theorem value?_of_mem_nodes (hl : chart.layout config = .ok l) {n : PositionedNode Rat}
    (hn : n ∈ l.nodes) : Keyed.value? (nodeFrames Rat config chart) n.node.id = some n.frame := by
  rcases of_mem_mapM_eq_ok (of_layout_eq_ok hl).2.1 hn with ⟨node, -, hnode⟩
  rcases placeNode_eq_ok_iff.1 hnode with ⟨frame, hframe, _, _, rfl⟩
  exact hframe

/-- A placed block has the frame that was computed for it. -/
theorem value?_of_mem_subgraphs (hl : chart.layout config = .ok l) {s : PositionedSubgraph Rat}
    (hs : s ∈ l.subgraphs) : s.subgraph ∈ chart.subgraphs ∧
      Keyed.value? (subgraphFrames Rat config chart) s.subgraph.id = some s.frame := by
  rw [(of_layout_eq_ok hl).2.2] at hs
  rcases List.mem_filterMap.1 hs with ⟨block, hblock, hplaced⟩
  rcases Option.map_eq_some_iff.1 hplaced with ⟨frame, hframe, rfl⟩
  exact ⟨hblock, hframe⟩

/-- A drawn node stands in the shifted frame of its cell. -/
theorem exists_frame_of_mem_nodes (hl : chart.layout config = .ok l) {n : PositionedNode Rat}
    (hn : n ∈ l.nodes) : ∃ r, Keyed.value? (placement Rat config chart).frames n.node.id = some r ∧
      r.shifted (move Rat config chart).1 (move Rat config chart).2 = n.frame :=
  exists_value?_of_shiftFrames (value?_of_mem_nodes hl hn)

/-- A drawn block stands in the shifted frame that is kept under its id. -/
theorem exists_frame_of_mem_subgraphs (hl : chart.layout config = .ok l)
    {s : PositionedSubgraph Rat} (hs : s ∈ l.subgraphs) : s.subgraph ∈ chart.subgraphs ∧
      ∃ r, Keyed.value? (unshiftedBlocks Rat config chart) s.subgraph.id = some r ∧
        r.shifted (move Rat config chart).1 (move Rat config chart).2 = s.frame := by
  rcases value?_of_mem_subgraphs hl hs with ⟨hmem, hframe⟩
  exact ⟨hmem, exists_value?_of_shiftFrames hframe⟩

/-- A drawn block has room around whatever stands in the shifted frame of a member. -/
theorem contains_of_mem_memberFrames (hl : chart.layout config = .ok l)
    (hinner : InnerFirst chart.subgraphs) (hids : (chart.subgraphs.map (·.id)).Nodup)
    {s : PositionedSubgraph Rat} (hs : s ∈ l.subgraphs) {r : Rect Rat}
    (hr : r ∈ memberFrames (placement Rat config chart).frames
      (unshiftedBlocks Rat config chart) s.subgraph) :
    s.frame.Contains (roomAround config
      (r.shifted (move Rat config chart).1 (move Rat config chart).2)) := by
  rcases exists_frame_of_mem_subgraphs hl hs with ⟨hmem, frame, hframe, heq⟩
  rw [← heq, roomAround_shifted]
  exact (hinner.contains_members hids _ hmem hframe hr).shifted _ _

end

/-- In the drawing of a text whose blocks have different ids, the frame of every block has room
around all of its nodes and around the frames of the blocks in it. -/
theorem blocks_contain_members (config : Config) {text : String} {chart : Flowchart}
    (hparse : Diagram.parse text = .ok (.flowchart chart))
    (hids : (chart.subgraphs.map (·.id)).Nodup) :
    ∃ l : FlowchartLayout Rat, chart.layout config = .ok l ∧ ∀ s ∈ l.subgraphs,
      (∀ id ∈ s.subgraph.nodeIds, ∃ n ∈ l.nodes, n.node.id = id ∧
        s.frame.Contains (roomAround config n.frame)) ∧
      ∀ t ∈ l.subgraphs, t.subgraph.id ∈ s.subgraph.subgraphIds →
        s.frame.Contains (roomAround config t.frame) := by
  rcases Diagram.exists_ofLines_of_parse_flowchart hparse with ⟨header, lines, rfl⟩
  have hwell := wellReferenced_ofLines header lines
  have hinner := innerFirst_ofLines header lines
  rcases exists_layout Rat config hwell with ⟨l, hl, hnodes, -⟩
  refine ⟨l, hl, fun s hs => ⟨fun id hid => ?_, fun t ht hid => ?_⟩⟩
  · have hblock := (exists_frame_of_mem_subgraphs hl hs).1
    -- A listed node exists, so it is placed and its frame is one of those that the block is put
    -- around.
    have hkey := (hwell.subgraphs _ hblock).2 id hid
    rw [← hnodes, Keyed.keys, List.map_map] at hkey
    rcases List.mem_map.1 hkey with ⟨n, hn, rfl⟩
    refine ⟨n, hn, rfl, ?_⟩
    rcases exists_frame_of_mem_nodes hl hn with ⟨r, hr, heq⟩
    rw [← heq]
    refine contains_of_mem_memberFrames hl hinner hids hs ?_
    exact List.mem_append_left _ (List.mem_filterMap.2 ⟨_, hid, hr⟩)
  · rcases exists_frame_of_mem_subgraphs hl ht with ⟨-, r, hr, heq⟩
    rw [← heq]
    refine contains_of_mem_memberFrames hl hinner hids hs ?_
    exact List.mem_append_right _ (List.mem_filterMap.2 ⟨_, hid, hr⟩)

/-- A block in a block: the inner frame has room around `A`, the outer one around the inner one and
around `B`. -/
theorem blocks_contain_members_nested :
    ∃ chart, Diagram.parse "flowchart TD\nsubgraph outer\nsubgraph inner\nA\nend\nB\nend" =
        .ok (.flowchart chart) ∧ (chart.subgraphs.map (·.id)).Nodup ∧
      ∃ l : FlowchartLayout Rat, chart.layout Config.light = .ok l ∧
        ∃ outer ∈ l.subgraphs, ∃ inner ∈ l.subgraphs, ∃ n ∈ l.nodes, n.node.id = "A" ∧
          inner.frame.Contains (roomAround Config.light n.frame) ∧
          outer.frame.Contains (roomAround Config.light inner.frame) := by
  have hparse : Diagram.parse
      "flowchart TD\nsubgraph outer\nsubgraph inner\nA\nend\nB\nend" = .ok (.flowchart
      ⟨.topDown, [⟨"A", "A", .rectangle⟩, ⟨"B", "B", .rectangle⟩], [],
        [⟨"inner", "inner", ["A"], []⟩, ⟨"outer", "outer", ["B"], ["inner"]⟩], [], []⟩) := rfl
  rcases blocks_contain_members Config.light hparse (by decide) with ⟨l, hl, hcontains⟩
  have hblocks : ∃ outer ∈ l.subgraphs, ∃ inner ∈ l.subgraphs, "A" ∈ inner.subgraph.nodeIds ∧
      inner.subgraph.id ∈ outer.subgraph.subgraphIds := by
    cases hl
    decide +kernel
  rcases hblocks with ⟨outer, houter, inner, hinner, hnode, hid⟩
  rcases (hcontains inner hinner).1 "A" hnode with ⟨n, hn, hname, hinside⟩
  exact ⟨_, hparse, by decide, l, hl, outer, houter, inner, hinner, n, hn, hname, hinside,
    (hcontains outer houter).2 inner hinner hid⟩

/-- Two blocks of one id, the first around `A` and the second around `B`: the frame of the second is
drawn for both, and it does not reach to `A`. -/
theorem frame_of_repeated_id :
    ∃ chart, Diagram.parse "flowchart TD\nsubgraph one\nA\nend\nsubgraph one\nB\nend" =
        .ok (.flowchart chart) ∧
      0 ≤ Config.light.subgraphPadding ∧ 0 ≤ Config.light.subgraphLabelHeight ∧
      ∃ l : FlowchartLayout Rat, chart.layout Config.light = .ok l ∧
        ∃ s ∈ l.subgraphs, ∃ n ∈ l.nodes, n.node.id ∈ s.subgraph.nodeIds ∧
          ¬s.frame.Contains (roomAround Config.light n.frame) := by
  have hparse : Diagram.parse "flowchart TD\nsubgraph one\nA\nend\nsubgraph one\nB\nend" =
      .ok (.flowchart ⟨.topDown, [⟨"A", "A", .rectangle⟩, ⟨"B", "B", .rectangle⟩], [],
        [⟨"one", "one", ["A"], []⟩, ⟨"one", "one", ["B"], []⟩], [], []⟩) := rfl
  refine ⟨_, hparse, by decide, by decide, _, rfl, ?_⟩
  decide +kernel

end Flowchart

end TextDiagram
