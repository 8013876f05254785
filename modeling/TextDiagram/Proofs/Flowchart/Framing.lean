import Mathlib.Logic.Relation
import TextDiagram.Proofs.Flowchart.Blocks
/-!
# Frames of blocks are tight

A block is framed exactly if there is a node in it, however deep. Its frame is the smallest
rectangle around what is directly in it, with the room that a block keeps around its members. The
drawing is shifted as a whole, so both hold before the shift and after it.

Main statements:

* `Rect.isHull_foldl_union`: the union of some rectangles is the smallest one around them.
* `exists_frame_iff_exists_nests`: which blocks have a frame.
* `value?_subgraphFrames`: the frame of a block in the shifted drawing.
* `blocks_framed_tightly`: the blocks in the drawing of a text.
-/

namespace TextDiagram

/-! ## Smallest rectangles -/

namespace Rect

/-- The smallest rectangle around some rectangles. -/
structure IsHull (hull : Rect Rat) (members : List (Rect Rat)) : Prop where
  contains : ∀ r ∈ members, hull.Contains r
  least : ∀ outer : Rect Rat, (∀ r ∈ members, outer.Contains r) → outer.Contains hull

theorem isHull_foldl_union (first : Rect Rat) (others : List (Rect Rat)) :
    (others.foldl union first).IsHull (first :: others) :=
  ⟨contains_foldl_union_iff.1 (Contains.refl _), fun _ => contains_foldl_union_iff.2⟩

/-- A hull depends on the rectangles in it only, not on their order. -/
theorem IsHull.congr {hull : Rect Rat} {members others : List (Rect Rat)} (h : hull.IsHull members)
    (hsame : ∀ r, r ∈ members ↔ r ∈ others) : hull.IsHull others := by
  refine ⟨fun r hr => h.contains r ((hsame r).2 hr), fun outer houter => h.least outer ?_⟩
  exact fun r hr => houter r ((hsame r).1 hr)

theorem union_shifted (a b : Rect Rat) (dx dy : Rat) :
    (a.union b).shifted dx dy = (a.shifted dx dy).union (b.shifted dx dy) := by
  simp only [union, shifted, Scalar.min_add_add_right, Scalar.max_add_add_right]

theorem foldl_union_shifted (first : Rect Rat) (others : List (Rect Rat)) (dx dy : Rat) :
    (others.foldl union first).shifted dx dy =
      (others.map (·.shifted dx dy)).foldl union (first.shifted dx dy) := by
  induction others generalizing first with
  | nil => rfl
  | cons r rest ih => rw [List.foldl_cons, ih, union_shifted, List.map_cons, List.foldl_cons]

end Rect

namespace Flowchart

/-! ## Which blocks have a frame -/

/-- The second block is one of the blocks and directly in the first one. -/
def Nests (subgraphs : List Subgraph) (outer inner : Subgraph) : Prop :=
  inner ∈ subgraphs ∧ inner.id ∈ outer.subgraphIds

section

variable {α : Type} [Scalar α] {config : Config} {nodes : List (String × Rect α)}
  {subgraphs : List Subgraph} (hinner : InnerFirst subgraphs)
  (hids : (subgraphs.map (·.id)).Nodup)

/-- There is a frame around members if there are any. -/
theorem exists_enclosing_iff {members : List (Rect α)} :
    (∃ frame, enclosing config members = some frame) ↔ ∃ r, r ∈ members := by
  cases members with
  | nil => simp [enclosing]
  | cons first others => exact ⟨fun _ => ⟨first, List.mem_cons_self⟩, fun _ => ⟨_, rfl⟩⟩

include hinner hids

/-- A block has a frame if it lists a node that has one or a block that has one. -/
theorem exists_frame_iff {s : Subgraph} (hs : s ∈ subgraphs)
    (hnodes : ∀ id ∈ s.nodeIds, ∃ r, Keyed.value? nodes id = some r) :
    (∃ r, Keyed.value? (blockFrames config nodes subgraphs) s.id = some r) ↔
      s.nodeIds ≠ [] ∨ ∃ t, Nests subgraphs s t ∧
        ∃ r, Keyed.value? (blockFrames config nodes subgraphs) t.id = some r := by
  rw [hinner.value?_blockFrames hids nodes hs, exists_enclosing_iff]
  simp only [memberFrames, List.mem_append, List.mem_filterMap]
  constructor
  · rintro ⟨r, ⟨id, hid, -⟩ | ⟨id, hid, hr⟩⟩
    · exact Or.inl (List.ne_nil_of_mem hid)
    · rcases List.mem_map.1 (hinner.mem_ids hs hid) with ⟨t, ht, rfl⟩
      exact Or.inr ⟨t, ⟨ht, hid⟩, r, hr⟩
  · rintro (hne | ⟨t, ⟨-, hid⟩, r, hr⟩)
    · rcases List.exists_mem_of_ne_nil _ hne with ⟨id, hid⟩
      rcases hnodes id hid with ⟨r, hr⟩
      exact ⟨r, Or.inl ⟨id, hid, hr⟩⟩
    · exact ⟨r, Or.inr ⟨_, hid, hr⟩⟩

/-- A block has a frame exactly if it lists a node or holds, at some depth, a block that does. -/
theorem exists_frame_iff_exists_nests
    (hnodes : ∀ s ∈ subgraphs, ∀ id ∈ s.nodeIds, ∃ r, Keyed.value? nodes id = some r)
    {s : Subgraph} (hs : s ∈ subgraphs) :
    (∃ r, Keyed.value? (blockFrames config nodes subgraphs) s.id = some r) ↔
      ∃ t, Relation.ReflTransGen (Nests subgraphs) s t ∧ t.nodeIds ≠ [] := by
  -- From the inside outwards: a frame comes from a node or from the frame of an inner block.
  have hdeep : ∀ s ∈ subgraphs,
      (∃ r, Keyed.value? (blockFrames config nodes subgraphs) s.id = some r) →
        ∃ t, Relation.ReflTransGen (Nests subgraphs) s t ∧ t.nodeIds ≠ [] := by
    refine hinner.forall_of_inner hids fun s hs ih hframe => ?_
    rcases (exists_frame_iff hinner hids hs (hnodes s hs)).1 hframe with hne | ⟨t, hnests, hinside⟩
    · exact ⟨s, .refl, hne⟩
    · rcases ih t hnests.1 hnests.2 hinside with ⟨u, hpath, hne⟩
      exact ⟨u, .head hnests hpath, hne⟩
  constructor
  · exact hdeep s hs
  · rintro ⟨t, hpath, hne⟩
    -- From a block that lists a node outwards, each block around it has an inner one with a frame.
    induction hpath using Relation.ReflTransGen.head_induction_on with
    | refl => exact (exists_frame_iff hinner hids hs (hnodes _ hs)).2 (Or.inl hne)
    | head hnests _ ih =>
      exact (exists_frame_iff hinner hids hs (hnodes _ hs)).2
        (Or.inr ⟨_, hnests, ih hnests.1⟩)

end

/-! ## The shifted drawing -/

section

variable {config : Config}

/-- The frame is the least hull of the members with room around it. -/
theorem isHull_of_enclosing {members : List (Rect Rat)} {frame : Rect Rat}
    (h : enclosing config members = some frame) :
    ∃ hull : Rect Rat, hull.IsHull members ∧ frame = roomAround config hull := by
  cases members with
  | nil => cases h
  | cons first others =>
    exact ⟨_, Rect.isHull_foldl_union first others, (Option.some.inj h).symm⟩

theorem enclosing_map_shifted (members : List (Rect Rat)) (dx dy : Rat) :
    enclosing config (members.map (·.shifted dx dy)) =
      (enclosing config members).map (·.shifted dx dy) := by
  cases members with
  | nil => rfl
  | cons first others =>
    have hunion := Rect.foldl_union_shifted first others dx dy
    have hroom : some (roomAround config ((others.map (·.shifted dx dy)).foldl Rect.union
        (first.shifted dx dy))) =
          some ((roomAround config (others.foldl Rect.union first)).shifted dx dy) := by
      rw [← hunion, roomAround_shifted]
    exact hroom

/-- The members of a block are shifted with all other frames. -/
theorem memberFrames_shiftFrames (move : Rat × Rat) (nodes blocks : List (String × Rect Rat))
    (s : Subgraph) : memberFrames (shiftFrames move nodes) (shiftFrames move blocks) s =
      (memberFrames nodes blocks s).map (·.shifted move.1 move.2) := by
  simp only [memberFrames, value?_shiftFrames, List.map_append, List.map_filterMap]

variable {chart : Flowchart} (hinner : InnerFirst chart.subgraphs)
  (hids : (chart.subgraphs.map (·.id)).Nodup)

include hinner hids

/-- In the shifted drawing too, a block has the frame around its members. -/
theorem value?_subgraphFrames {s : Subgraph} (hs : s ∈ chart.subgraphs) :
    Keyed.value? (subgraphFrames Rat config chart) s.id = enclosing config
      (memberFrames (nodeFrames Rat config chart) (subgraphFrames Rat config chart) s) := by
  rw [subgraphFrames, nodeFrames, value?_shiftFrames, memberFrames_shiftFrames,
    enclosing_map_shifted, unshiftedBlocks, hinner.value?_blockFrames hids _ hs]

end

end Flowchart

/-- The frames in a drawing of what is directly in a block. -/
def FlowchartLayout.members (l : FlowchartLayout Rat) (s : Subgraph) : List (Rect Rat) :=
  (l.nodes.filter (·.node.id ∈ s.nodeIds)).map (·.frame) ++
    (l.subgraphs.filter (·.subgraph.id ∈ s.subgraphIds)).map (·.frame)

namespace Flowchart

section

variable {config : Config} {chart : Flowchart} {l : FlowchartLayout Rat}
  (hl : chart.layout config = .ok l)

include hl

theorem mem_subgraphs_iff {s : Subgraph} (hs : s ∈ chart.subgraphs) {r : Rect Rat} :
    (∃ p ∈ l.subgraphs, p.subgraph = s ∧ p.frame = r) ↔
      Keyed.value? (subgraphFrames Rat config chart) s.id = some r := by
  constructor
  · rintro ⟨p, hp, rfl, rfl⟩
    exact (value?_of_mem_subgraphs hl hp).2
  · intro hr
    rw [(of_layout_eq_ok hl).2.2]
    exact ⟨_, List.mem_filterMap.2 ⟨s, hs, Option.map_eq_some_iff.2 ⟨r, hr, rfl⟩⟩, rfl, rfl⟩

/-- A block is drawn if it has a frame, each block once and in the order of the chart. -/
theorem sublist_subgraphs : (l.subgraphs.map (·.subgraph)).Sublist chart.subgraphs := by
  rw [(of_layout_eq_ok hl).2.2]
  refine sublist_map_filterMap (fun s p hplaced => ?_) _
  obtain ⟨frame, -, rfl⟩ := Option.map_eq_some_iff.1 hplaced
  rfl

/-- What is found under the ids that a block lists is what is drawn of it. -/
theorem mem_memberFrames_iff (hwell : chart.WellReferenced) (hinner : InnerFirst chart.subgraphs)
    {s : Subgraph} (hs : s ∈ chart.subgraphs) (r : Rect Rat) :
    r ∈ memberFrames (nodeFrames Rat config chart) (subgraphFrames Rat config chart) s ↔
      r ∈ l.members s := by
  simp only [memberFrames, FlowchartLayout.members, List.mem_append, List.mem_filterMap,
    List.mem_map, List.mem_filter, decide_eq_true_eq]
  constructor
  · rintro (⟨id, hid, hr⟩ | ⟨id, hid, hr⟩)
    · left
      obtain ⟨node, hnode, rfl⟩ := List.mem_map.1 ((hwell.subgraphs s hs).2 id hid)
      obtain ⟨n, hn, hplaced⟩ := exists_of_mem_entries (of_layout_eq_ok hl).2.1 hnode
      obtain ⟨frame, hframe, _, _, rfl⟩ := placeNode_eq_ok_iff.1 hplaced
      exact ⟨_, ⟨hn, hid⟩, Option.some.inj (hframe.symm.trans hr)⟩
    · right
      obtain ⟨t, ht, rfl⟩ := List.mem_map.1 (hinner.mem_ids hs hid)
      obtain ⟨p, hp, rfl, rfl⟩ := (mem_subgraphs_iff hl ht).2 hr
      exact ⟨p, ⟨hp, hid⟩, rfl⟩
  · rintro (⟨n, ⟨hn, hid⟩, rfl⟩ | ⟨p, ⟨hp, hid⟩, rfl⟩)
    · exact Or.inl ⟨_, hid, value?_of_mem_nodes hl hn⟩
    · exact Or.inr ⟨_, hid, (value?_of_mem_subgraphs hl hp).2⟩

end

/-- In the drawing of a text whose blocks have different ids, a block is framed exactly if it or a
block in it, at any depth, lists a node. Its frame is the smallest rectangle around the nodes and
the framed blocks directly in it, with room on all sides and for the label on top. All nodes and
blocks are shifted from their places by one move. -/
theorem blocks_framed_tightly (config : Config) {text : String} {chart : Flowchart}
    (hparse : Diagram.parse text = .ok (.flowchart chart))
    (hids : (chart.subgraphs.map (·.id)).Nodup) :
    ∃ l : FlowchartLayout Rat, chart.layout config = .ok l ∧
      (l.subgraphs.map (·.subgraph)).Sublist chart.subgraphs ∧
      (∀ s ∈ chart.subgraphs, s ∈ l.subgraphs.map (·.subgraph) ↔
        ∃ t, Relation.ReflTransGen (Nests chart.subgraphs) s t ∧ t.nodeIds ≠ []) ∧
      (∀ p ∈ l.subgraphs, ∃ hull : Rect Rat, hull.IsHull (l.members p.subgraph) ∧
        p.frame = roomAround config hull) ∧
      ∃ dx dy : Rat,
        (∀ n ∈ l.nodes, ∃ r, Keyed.value? (placement Rat config chart).frames n.node.id = some r ∧
          r.shifted dx dy = n.frame) ∧
        ∀ p ∈ l.subgraphs, ∃ r,
          Keyed.value? (unshiftedBlocks Rat config chart) p.subgraph.id = some r ∧
            r.shifted dx dy = p.frame := by
  obtain ⟨header, lines, rfl⟩ := Diagram.exists_ofLines_of_parse_flowchart hparse
  have hwell := wellReferenced_ofLines header lines
  have hinner := innerFirst_ofLines header lines
  obtain ⟨l, hl, -⟩ := exists_layout Rat config hwell
  refine ⟨l, hl, sublist_subgraphs hl, ?_, ?_, ?_⟩
  · intro s hs
    have hnodes : ∀ s ∈ (ofLines header lines).subgraphs, ∀ id ∈ s.nodeIds, ∃ r,
        Keyed.value? (placement Rat config (ofLines header lines)).frames id = some r := by
      intro s hs id hid
      obtain ⟨frame, hframe⟩ := exists_frame Rat config ((hwell.subgraphs s hs).2 id hid)
      obtain ⟨r, hr, -⟩ := exists_value?_of_shiftFrames hframe
      exact ⟨r, hr⟩
    have hdrawn : (∃ r,
        Keyed.value? (unshiftedBlocks Rat config (ofLines header lines)) s.id = some r) ↔
          ∃ t, Relation.ReflTransGen (Nests (ofLines header lines).subgraphs) s t ∧
            t.nodeIds ≠ [] :=
      exists_frame_iff_exists_nests hinner hids hnodes hs
    rw [← hdrawn, List.mem_map]
    constructor
    · rintro ⟨p, hp, rfl⟩
      obtain ⟨-, r, hr, -⟩ := exists_frame_of_mem_subgraphs hl hp
      exact ⟨r, hr⟩
    · rintro ⟨r, hr⟩
      have hshifted : Keyed.value? (subgraphFrames Rat config (ofLines header lines)) s.id =
          (some r).map (·.shifted (move Rat config (ofLines header lines)).1
            (move Rat config (ofLines header lines)).2) := by
        rw [subgraphFrames, value?_shiftFrames, hr]
      obtain ⟨p, hp, hsub, -⟩ := (mem_subgraphs_iff hl hs).2 hshifted
      exact ⟨p, hp, hsub⟩
  · intro p hp
    obtain ⟨hmem, hframe⟩ := value?_of_mem_subgraphs hl hp
    rw [value?_subgraphFrames hinner hids hmem] at hframe
    obtain ⟨hull, hhull, heq⟩ := isHull_of_enclosing hframe
    exact ⟨hull, hhull.congr (mem_memberFrames_iff hl hwell hinner hmem), heq⟩
  · refine ⟨_, _, fun n hn => exists_frame_of_mem_nodes hl hn, fun p hp => ?_⟩
    exact (exists_frame_of_mem_subgraphs hl hp).2

/-- A block that only has a block in it is framed around that one. A block without anything in it is
not drawn. -/
theorem blocks_framed_tightly_nested :
    ∃ chart, Diagram.parse
          "flowchart TD\nsubgraph outer\nsubgraph inner\nA\nend\nend\nsubgraph none\nend" =
        .ok (.flowchart chart) ∧ (chart.subgraphs.map (·.id)).Nodup ∧
      ∃ l : FlowchartLayout Rat, chart.layout Config.light = .ok l ∧
        l.subgraphs.map (·.subgraph.id) = ["inner", "outer"] ∧
        ∀ p ∈ l.subgraphs, ∃ hull : Rect Rat, hull.IsHull (l.members p.subgraph) ∧
          p.frame = roomAround Config.light hull := by
  have hparse : Diagram.parse
      "flowchart TD\nsubgraph outer\nsubgraph inner\nA\nend\nend\nsubgraph none\nend" =
        .ok (.flowchart ⟨.topDown, [⟨"A", "A", .rectangle⟩], [],
          [⟨"inner", "inner", ["A"], []⟩, ⟨"outer", "outer", [], ["inner"]⟩,
            ⟨"none", "none", [], []⟩], [], []⟩) := rfl
  obtain ⟨l, hl, -, -, htight, -⟩ := blocks_framed_tightly Config.light hparse (by decide)
  refine ⟨_, hparse, by decide, l, hl, ?_, htight⟩
  cases hl
  decide +kernel

end Flowchart

end TextDiagram
