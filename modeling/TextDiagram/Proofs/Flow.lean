import TextDiagram.Proofs.Advance
import TextDiagram.Proofs.Spacing
/-!
# Edges and the flow of a placed graph

Along the edges of a graph without cycles the layers increase; around a cycle they cannot increase
all the way. Between two layers the grid leaves its spacing free on the axis of the direction, and
the anchors are on the sides that face it.

Main statements:

* `Graph.acyclic_iff`: there is no cycle exactly when every edge leads to a deeper layer.
* `CellGrid.hasCycles_place_iff`: a placement reports cycles exactly when there is one.
* `CellGrid.flows_of_layer_lt`: from one layer to a deeper one the anchors run in the direction of the
  grid.
* `CellGrid.apart_and_flowing`: placed nodes are apart and edges flow.
-/

namespace TextDiagram

open Relation TextDiagram.Graph

/-! ## Cycles -/

namespace Graph

variable {g : Graph}

/-- No node can be reached from itself by one or more edges. -/
def Acyclic (g : Graph) : Prop := ∀ v, ¬TransGen g.Joins v v

theorem Acyclic.not_behindCycle (h : g.Acyclic) (v : String) : ¬g.BehindCycle v := by
  rintro ⟨c, hcycle, -⟩
  exact h c hcycle

theorem layerOf_lt_of_transGen {known : Layering}
    (h : ∀ u v, g.Joins u v → layerOf known u < layerOf known v) {u v : String}
    (hwalk : TransGen g.Joins u v) : layerOf known u < layerOf known v := by
  induction hwalk with
  | single hjoin => exact h _ _ hjoin
  | tail _ hjoin ih => exact ih.trans (h _ _ hjoin)

/-- A graph is free of cycles exactly when every edge leads to a deeper layer. -/
theorem acyclic_iff (wf : g.WellFormed) :
    g.Acyclic ↔ ∀ u v, g.Joins u v → layerOf g.ownLayering u < layerOf g.ownLayering v := by
  constructor
  · intro hacyclic u v hjoin
    rcases advances_of_joins wf hjoin (Or.inl (hacyclic.not_behindCycle u)) with
      ⟨i, j, hu, hv, hlt⟩
    rwa [layerOf_of_value? hu, layerOf_of_value? hv]
  · intro hdeeper v hcycle
    -- Around the cycle the layers would increase all the way.
    exact Nat.lt_irrefl _ (layerOf_lt_of_transGen hdeeper hcycle)

end Graph

namespace CellGrid

variable {α : Type} [Scalar α]

/-- Cycles are reported by comparing the layers at the two ends of each edge, and exactly for
graphs with a directed cycle. A loop is one; parallel edges and nodes behind a cycle are not. -/
theorem hasCycles_place_iff (grid : CellGrid α) (names : List String)
    (edges : List (String × String)) (sizes : List (String × Size α)) :
    (grid.place names edges sizes).hasCycles = true ↔
      ∃ v, TransGen (fun u w => (u, w) ∈ edges) v v := by
  -- What is reported is an edge that does not lead to a deeper layer.
  have hreport : (grid.place names edges sizes).hasCycles = true ↔
      ∃ u v, (ofEdges names edges).Joins u v ∧
        layerOf (ofEdges names edges).ownLayering v ≤
          layerOf (ofEdges names edges).ownLayering u := by
    simp only [place, List.any_eq_true, decide_eq_true_eq, Prod.exists]
    rfl
  have hcycle : (∃ v, TransGen (fun u w => (u, w) ∈ edges) v v) ↔
      ¬(ofEdges names edges).Acyclic := by
    simp only [Acyclic, not_forall, not_not]
    rfl
  rw [hreport, hcycle, acyclic_iff (wellFormed_ofEdges names edges)]
  push Not
  rfl

/-! ## Flow -/

/-- The segment runs in the direction of the grid and covers at least the spacing. -/
def Flows (grid : CellGrid Rat) (line : Segment Rat) : Prop :=
  match grid.direction with
  | .topDown | .topBottom => line.start.y + grid.spacing.height ≤ line.stop.y
  | .bottomTop => line.stop.y + grid.spacing.height ≤ line.start.y
  | .leftRight => line.start.x + grid.spacing.width ≤ line.stop.x
  | .rightLeft => line.stop.x + grid.spacing.width ≤ line.start.x

/-- The axis along which the layers of a direction advance. -/
def flowAxis (direction : Direction) : Axis := if direction.isHorizontal then .x else .y

omit [Scalar α] in
theorem slot_flowAxis (grid : CellGrid α) (layerCount layer position : Nat) :
    grid.slot layerCount layer position (flowAxis grid.direction) =
      if grid.direction.isReversed then (layerCount : Int) - 1 - layer else layer := by
  unfold slot flowAxis
  cases grid.direction <;> rfl

/-- The anchors of two rectangles flow when the spacing is free between the sides they are on. -/
theorem flows_anchors {grid : CellGrid Rat} {a b : Rect Rat}
    (hforward : grid.direction.isReversed = false →
      (flowAxis grid.direction).high a + (flowAxis grid.direction).extent grid.spacing ≤
        (flowAxis grid.direction).low b)
    (hbackward : grid.direction.isReversed = true →
      (flowAxis grid.direction).high b + (flowAxis grid.direction).extent grid.spacing ≤
        (flowAxis grid.direction).low a) :
    grid.Flows (grid.anchors a b) := by
  unfold Flows anchors
  cases hdirection : grid.direction with
  | topDown | topBottom | leftRight =>
    rw [hdirection] at hforward
    exact hforward rfl
  | bottomTop | rightLeft =>
    rw [hdirection] at hbackward
    exact hbackward rfl

theorem value?_layer_of_mem_nodes_place {grid : CellGrid α} {names : List String}
    {edges : List (String × String)} {sizes : List (String × Size α)} {n : PlacedNode α}
    (hn : n ∈ (grid.place names edges sizes).nodes) :
    Keyed.value? (ofEdges names edges).ownLayering n.name = some n.layer := by
  rcases (mem_nodes_place_iff grid names edges sizes).1 hn with ⟨_, hrow, hname, -⟩
  rcases List.getElem?_eq_some_iff.1 hrow with ⟨hlayer, rfl⟩
  have hkeys := nodup_keys_ownLayering (wellFormed_ofEdges names edges)
  exact (mem_layer_iff hkeys hlayer).1 (List.mem_of_getElem? hname)

/-- Every node of a graph is placed and has one frame. -/
theorem exists_placed (grid : CellGrid α) {names : List String} {edges : List (String × String)}
    (sizes : List (String × Size α)) {v : String} (hv : v ∈ (ofEdges names edges).nodes) :
    ∃ n ∈ (grid.place names edges sizes).nodes, n.name = v ∧
      Keyed.value? (grid.place names edges sizes).frames v = some n.frame := by
  have hperm := perm_names_place grid names edges sizes
  rcases List.mem_map.1 (hperm.mem_iff.2 hv) with ⟨n, hn, rfl⟩
  have hkeys : (Keyed.keys (grid.place names edges sizes).frames).Nodup := by
    rw [Placement.keys_frames]
    exact hperm.nodup_iff.2 (wellFormed_ofEdges names edges).nodup
  refine ⟨n, hn, rfl, (Keyed.value?_eq_some_iff hkeys).2 ?_⟩
  exact List.mem_map.2 ⟨n, hn, rfl⟩

variable {grid : CellGrid Rat} {names : List String} {edges : List (String × String)}
  {sizes : List (String × Size Rat)}

/-- From one layer to a deeper one the anchors flow. -/
theorem flows_of_layer_lt {n m : PlacedNode Rat}
    (hstep : ∀ axis : Axis, 0 ≤ axis.extent grid.cell + axis.extent grid.spacing)
    (hn : n ∈ (grid.place names edges sizes).nodes) (hm : m ∈ (grid.place names edges sizes).nodes)
    (hnsize : grid.FitsCell sizes n.name) (hmsize : grid.FitsCell sizes m.name)
    (hlt : n.layer < m.layer) : grid.Flows (grid.anchors n.frame m.frame) := by
  apply flows_anchors
  · intro hdirection
    refine high_add_spacing_le_low hstep hn hm hnsize hmsize ?_
    rw [slot_flowAxis, slot_flowAxis, hdirection]
    simp only [Bool.false_eq_true, if_false]
    omega
  · intro hdirection
    refine high_add_spacing_le_low hstep hm hn hmsize hnsize ?_
    rw [slot_flowAxis, slot_flowAxis, hdirection]
    simp only [if_true]
    omega

/-- On a grid with cells and spacings that are not negative and with nodes that fit the cells,
different nodes leave the horizontal spacing free along x or the vertical one along y, and an edge
that leads forward in the order of the nodes, as every edge does without cycles, runs in the
direction of the grid and covers at least the spacing of its axis. -/
theorem apart_and_flowing (grid : CellGrid Rat) (names : List String)
    (edges : List (String × String)) (sizes : List (String × Size Rat))
    (hcell : ∀ axis : Axis, 0 ≤ axis.extent grid.cell)
    (hspacing : ∀ axis : Axis, 0 ≤ axis.extent grid.spacing)
    (hsizes : ∀ v ∈ (ofEdges names edges).nodes, grid.FitsCell sizes v) :
    (∀ u ∈ (ofEdges names edges).nodes, ∀ v ∈ (ofEdges names edges).nodes, u ≠ v →
      ∃ a b, Keyed.value? (grid.place names edges sizes).frames u = some a ∧
        Keyed.value? (grid.place names edges sizes).frames v = some b ∧
        a.Apart b grid.spacing) ∧
    ∀ u v, (u, v) ∈ edges →
      (grid.place names edges sizes).order.idxOf u < (grid.place names edges sizes).order.idxOf v ∨
        (ofEdges names edges).Acyclic →
      ∃ a b, Keyed.value? (grid.place names edges sizes).frames u = some a ∧
        Keyed.value? (grid.place names edges sizes).frames v = some b ∧
        grid.Flows (grid.anchors a b) := by
  have wf := wellFormed_ofEdges names edges
  have hstep : ∀ axis : Axis, 0 ≤ axis.extent grid.cell + axis.extent grid.spacing :=
    fun axis => add_nonneg (hcell axis) (hspacing axis)
  constructor
  · intro u hu v hv hne
    rcases grid.exists_placed sizes hu with ⟨n, hn, rfl, hframe⟩
    rcases grid.exists_placed sizes hv with ⟨m, hm, rfl, hframe'⟩
    refine ⟨n.frame, m.frame, hframe, hframe', ?_⟩
    exact apart_of_mem_nodes_place hstep hn hm (hsizes _ hu) (hsizes _ hv) hne
  · intro u v hjoin hforward
    have hu := wf.source_mem u v hjoin
    have hv := wf.target_mem u v hjoin
    rcases grid.exists_placed sizes hu with ⟨n, hn, rfl, hframe⟩
    rcases grid.exists_placed sizes hv with ⟨m, hm, rfl, hframe'⟩
    refine ⟨n.frame, m.frame, hframe, hframe', ?_⟩
    -- In either case the edge leads to a deeper layer.
    have hadvances : Advances (ofEdges names edges).ownLayering n.name m.name := by
      refine advances_of_joins wf hjoin ?_
      rcases hforward with hbefore | hacyclic
      · exact (idxOf_order_lt_iff wf hjoin).1 hbefore
      · exact Or.inl (hacyclic.not_behindCycle _)
    rcases hadvances with ⟨i, j, hi, hj, hlt⟩
    rw [value?_layer_of_mem_nodes_place hn] at hi
    rw [value?_layer_of_mem_nodes_place hm] at hj
    cases hi
    cases hj
    exact flows_of_layer_lt hstep hn hm (hsizes _ hu) (hsizes _ hv) hlt

/-- From right to left, with a node that is smaller than its cell, into a node with a loop. -/
theorem apart_and_flowing_into_loop :
    let grid : CellGrid Rat := ⟨⟨100, 50⟩, ⟨30, 20⟩, 10, .rightLeft⟩
    let placed := grid.place ["A"] [("A", "B"), ("A", "C"), ("C", "C")] [("A", ⟨60, 40⟩)]
    placed.order.idxOf "A" < placed.order.idxOf "C" ∧
      (∃ a b, Keyed.value? placed.frames "B" = some a ∧ Keyed.value? placed.frames "C" = some b ∧
        a.Apart b grid.spacing) ∧
      ∃ a b, Keyed.value? placed.frames "A" = some a ∧ Keyed.value? placed.frames "C" = some b ∧
        grid.Flows (grid.anchors a b) := by
  intro grid placed
  have hnodes : (ofEdges ["A"] [("A", "B"), ("A", "C"), ("C", "C")]).nodes = ["A", "B", "C"] := rfl
  have hfits : ∀ v ∈ (ofEdges ["A"] [("A", "B"), ("A", "C"), ("C", "C")]).nodes,
      grid.FitsCell [("A", ⟨60, 40⟩)] v := by
    intro v hv axis
    rw [hnodes] at hv
    simp only [List.mem_cons, List.not_mem_nil, or_false] at hv
    rcases hv with rfl | rfl | rfl <;> cases axis <;> decide
  have hbefore : placed.order.idxOf "A" < placed.order.idxOf "C" := by decide
  have hcell : ∀ axis : Axis, 0 ≤ axis.extent grid.cell := fun axis => by cases axis <;> decide
  have hspacing : ∀ axis : Axis, 0 ≤ axis.extent grid.spacing :=
    fun axis => by cases axis <;> decide
  have h := apart_and_flowing grid ["A"] [("A", "B"), ("A", "C"), ("C", "C")] [("A", ⟨60, 40⟩)]
    hcell hspacing hfits
  exact ⟨hbefore, h.1 "B" (by decide) "C" (by decide) (by decide),
    h.2 "A" "C" (by decide) (Or.inl hbefore)⟩

end CellGrid

end TextDiagram
