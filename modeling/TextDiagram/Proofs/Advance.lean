import TextDiagram.Layout
import TextDiagram.Proofs.Flowchart.Layout
import TextDiagram.Proofs.StateDiagram.Layout
/-!
# Edges that lead to deeper layers

An edge leads to a deeper layer when its source is put on a layer before its target. That is so for
every edge out of a node off the cycles. The nodes behind cycles are taken in the order of their
names, so of the edges between them only those advance for certain whose source has the smaller
name, and an edge that lies on no cycle may stay on its layer.

Main statements:

* `Graph.idxOf_order_lt_iff`: which edges lead forward in the order of the nodes.
* `Graph.advances_of_joins`: those edges lead to a deeper layer.
* `CellGrid.value?_layerNumbers_place`: the layers of placed nodes are those of the graph.
* `Diagram.edges_advance`: the same for placed flowcharts and state diagrams.
* `Diagram.edge_between_loops_stays`: an edge on no cycle that does not advance.
-/

namespace TextDiagram

/-- The second name stands on a deeper layer than the first. -/
def Advances (layers : List (String × Nat)) (u v : String) : Prop :=
  ∃ i j, Keyed.value? layers u = some i ∧ Keyed.value? layers v = some j ∧ i < j

namespace Graph

open Relation

variable {g : Graph}

/-- In a strictly increasing list the smaller name stands first. -/
theorem idxOf_lt_iff_of_pairwise_lt {names : List String} (h : names.Pairwise (· < ·))
    {u v : String} (hu : u ∈ names) (hv : v ∈ names) :
    names.idxOf u < names.idxOf v ↔ u < v := by
  have key : ∀ a ∈ names, ∀ b ∈ names, names.idxOf a < names.idxOf b → a < b := by
    intro a ha b hb hlt
    have hpair := List.pairwise_iff_getElem.1 h _ _ (List.idxOf_lt_length_of_mem ha)
      (List.idxOf_lt_length_of_mem hb) hlt
    rwa [List.getElem_idxOf, List.getElem_idxOf] at hpair
  constructor
  · exact key u hu v hv
  · intro hlt
    rcases Nat.lt_trichotomy (names.idxOf u) (names.idxOf v) with hbefore | heq | hafter
    · exact hbefore
    · obtain rfl : u = v := (List.idxOf_inj hu).1 heq
      exact absurd hlt (String.lt_irrefl u)
    · exact absurd (key v hv u hu hafter) (String.lt_asymm hlt)

/-- An edge leads forward in the order exactly when its source is off the cycles or has the smaller
name. -/
theorem idxOf_order_lt_iff (wf : g.WellFormed) {u v : String} (hjoin : g.Joins u v) :
    g.order.idxOf u < g.order.idxOf v ↔ ¬g.BehindCycle u ∨ u < v := by
  have hnode := wf.source_mem u v hjoin
  by_cases hu : u ∈ g.reached
  · have hcycle := ((mem_reached_iff wf).1 hu).2
    refine ⟨fun _ => Or.inl hcycle, fun _ => ?_⟩
    rw [order, List.idxOf_append_of_mem hu]
    by_cases hv : v ∈ g.reached
    · rw [List.idxOf_append_of_mem hv]
      exact idxOf_lt_of_joins wf hjoin hv
    · have hlt := List.idxOf_lt_length_of_mem hu
      rw [List.idxOf_append_of_notMem hv]
      omega
  · -- Behind a cycle the target is behind it too, and both follow in the order of their names.
    have hcycle : g.BehindCycle u := by
      by_contra hfree
      exact hu ((mem_reached_iff wf).2 ⟨hnode, hfree⟩)
    have hv : v ∉ g.reached := fun hv => hu (((mem_reached_iff_forall wf).1 hv).2 u hjoin)
    have hothers := idxOf_lt_iff_of_pairwise_lt (pairwise_lt_others wf g.reached)
      (mem_others.2 ⟨hnode, hu⟩) (mem_others.2 ⟨wf.target_mem u v hjoin, hv⟩)
    rw [order, List.idxOf_append_of_notMem hu, List.idxOf_append_of_notMem hv,
      Nat.add_lt_add_iff_left, hothers]
    tauto

/-- Edges out of nodes off the cycles and edges from a smaller to a larger name advance. -/
theorem advances_of_joins (wf : g.WellFormed) {u v : String} (hjoin : g.Joins u v)
    (h : ¬g.BehindCycle u ∨ u < v) : Advances g.ownLayering u v := by
  have hlayered := layered_ownLayering wf
  have hmem : ∀ w, w ∈ g.order ↔ w ∈ g.nodes := fun w => (perm_order wf).mem_iff
  have hu : u ∈ g.order := (hmem u).2 (wf.source_mem u v hjoin)
  have hv : v ∈ g.order := (hmem v).2 (wf.target_mem u v hjoin)
  refine ⟨_, _, value?_of_mem_keys (hlayered.keys ▸ hu), value?_of_mem_keys (hlayered.keys ▸ hv), ?_⟩
  exact hlayered.lt_of_idxOf_lt (nodup_order wf) hjoin hv ((idxOf_order_lt_iff wf hjoin).2 h)

end Graph

open TextDiagram.Graph

/-! ## Placed graphs -/

/-- The layers of the placed nodes are those of the graph. -/
theorem CellGrid.value?_layerNumbers_place {α : Type} [Scalar α] (grid : CellGrid α)
    (names : List String) (edges : List (String × String)) (sizes : List (String × Size α))
    (v : String) :
    Keyed.value? (grid.place names edges sizes).layerNumbers v =
      Keyed.value? (ofEdges names edges).ownLayering v := by
  have wf := wellFormed_ofEdges names edges
  have hkeys : (Keyed.keys (grid.place names edges sizes).layerNumbers).Nodup := by
    rw [Placement.keys_layerNumbers]
    exact (perm_names_place grid names edges sizes).nodup_iff.2 wf.nodup
  refine Option.ext fun k => ?_
  rw [Keyed.value?_eq_some_iff hkeys]
  constructor
  · intro hmem
    rcases List.mem_map.1 hmem with ⟨node, hnode, heq⟩
    rcases Prod.mk.inj heq with ⟨rfl, rfl⟩
    rcases (mem_nodes_place_iff grid names edges sizes).1 hnode with ⟨row, hrow, hname, -⟩
    rcases List.getElem?_eq_some_iff.1 hrow with ⟨hlayer, rfl⟩
    exact (mem_layer_iff (nodup_keys_ownLayering wf) hlayer).1 (List.mem_of_getElem? hname)
  · intro hvalue
    have hlayer := lt_length_layers hvalue
    have hv := (mem_layer_iff (nodup_keys_ownLayering wf) hlayer).2 hvalue
    rcases List.mem_iff_getElem?.1 hv with ⟨position, hposition⟩
    let frame := grid.frame (grid.place names edges sizes).layers.length k position
      (grid.nodeSize sizes v)
    have hnode : ⟨v, k, position, frame⟩ ∈ (grid.place names edges sizes).nodes :=
      (mem_nodes_place_iff grid names edges sizes).2
        ⟨_, List.getElem?_eq_getElem hlayer, hposition, rfl⟩
    exact List.mem_map.2 ⟨_, hnode, rfl⟩

theorem Placement.advances_place {α : Type} [Scalar α] (grid : CellGrid α) (names : List String)
    (edges : List (String × String)) (sizes : List (String × Size α)) {u v : String}
    (hjoin : (ofEdges names edges).Joins u v) (h : ¬(ofEdges names edges).BehindCycle u ∨ u < v) :
    Advances (grid.place names edges sizes).layerNumbers u v := by
  have hown := advances_of_joins (wellFormed_ofEdges names edges) hjoin h
  rcases hown with ⟨i, j, hu, hv, hlt⟩
  refine ⟨i, j, ?_, ?_, hlt⟩
  · rwa [CellGrid.value?_layerNumbers_place]
  · rwa [CellGrid.value?_layerNumbers_place]

/-! ## Placed diagrams -/

/-- Entries that are put on the layers found under their keys advance where these layers do. -/
theorem Advances.of_mapM {β γ ε : Type} [Keyed β] {place : β → Except ε γ} {entries : List β}
    {placed : List γ} {name : γ → String} {layer : γ → Nat} {known : List (String × Nat)}
    (hplaced : entries.mapM place = .ok placed)
    (hstep : ∀ a b, place a = .ok b →
      name b = Keyed.key a ∧ Keyed.value? known (name b) = some (layer b))
    {u v : String} (hu : u ∈ Keyed.keys entries) (hv : v ∈ Keyed.keys entries)
    (hknown : Advances known u v) : Advances (placed.map fun b => (name b, layer b)) u v := by
  have hkeys : Keyed.keys (placed.map fun b => (name b, layer b)) = Keyed.keys entries := by
    rw [Keyed.keys, List.map_map]
    exact map_of_mapM_eq_ok (fun a b hb => (hstep a b hb).1) hplaced
  have hvalue : ∀ w ∈ Keyed.keys entries,
      Keyed.value? (placed.map fun b => (name b, layer b)) w = Keyed.value? known w := by
    intro w hw
    rw [← hkeys] at hw
    rcases Keyed.exists_value?_iff.2 hw with ⟨k, hk⟩
    rcases List.mem_map.1 (Keyed.mem_of_value? hk) with ⟨b, hb, heq⟩
    rcases Prod.mk.inj heq with ⟨rfl, rfl⟩
    rcases of_mem_mapM_eq_ok hplaced hb with ⟨a, -, hab⟩
    rw [hk, (hstep a b hab).2]
  rcases hknown with ⟨i, j, hi, hj, hlt⟩
  refine ⟨i, j, ?_, ?_, hlt⟩
  · rw [hvalue u hu, hi]
  · rw [hvalue v hv, hj]

/-- The graph that a flowchart or a state diagram is placed by. Diagrams of other kinds have no
layers. -/
def Diagram.graph : Diagram → Graph
  | .flowchart chart => .ofEdges (chart.nodes.map (·.id)) (Flowchart.ends chart.edges)
  | .states diagram => .ofEdges (diagram.states.map (·.id)) (StateDiagram.ends diagram.transitions)
  | _ => .ofEdges [] []

/-- The layers of placed nodes and of placed states under their ids. -/
def Layout.layerNumbers {α : Type} : Layout α → List (String × Nat)
  | flowchart l => l.nodes.map fun n => (n.node.id, n.layer)
  | states l => l.states.map fun s => (s.state.id, s.layer)
  | _ => []

namespace Diagram

open Relation

/-- In the drawing of every flowchart and state diagram that is read from a text an edge advances
if its source cannot be reached from a cycle or has the smaller name, whatever cycles there are
elsewhere. -/
theorem edges_advance {text : String} {d : Diagram} (hparse : parse text = .ok d)
    (hkind : d.kind = .flowchart ∨ d.kind = .states) (config : Config) (α : Type) [Scalar α]
    [Trig α] :
    ∃ l : Layout α, d.layout config = .ok l ∧
      ∀ u v, d.graph.Joins u v → ¬d.graph.BehindCycle u ∨ u < v →
        Advances l.layerNumbers u v := by
  have hd : d.WellReferenced := by
    rcases exists_ofLines_of_parse hparse with ⟨kind, header, lines, rfl⟩
    exact wellReferenced_ofLines kind header lines
  cases d with
  | flowchart chart =>
    rcases Flowchart.exists_layout α config hd with ⟨l, hl, -⟩
    refine ⟨_, congrArg (Except.map Layout.flowchart) hl, fun u v hjoin h => ?_⟩
    have hends := hd.linked.mem (u, v) hjoin
    have hplacement : Advances (chart.placement α config).layerNumbers u v :=
      Placement.advances_place _ _ _ _ hjoin h
    refine Advances.of_mapM (Flowchart.of_layout_eq_ok hl).2.1 ?_ hends.1 hends.2 hplacement
    intro node placed hplaced
    rcases Flowchart.placeNode_eq_ok_iff.1 hplaced with ⟨_, _, layer, hlayer, rfl⟩
    exact ⟨rfl, hlayer⟩
  | states diagram =>
    rcases StateDiagram.exists_layout α config hd with ⟨l, hl, -⟩
    refine ⟨_, congrArg (Except.map Layout.states) hl, fun u v hjoin h => ?_⟩
    have hends := hd.linked.mem (u, v) hjoin
    have hplacement : Advances (diagram.placement α config).layerNumbers u v :=
      Placement.advances_place _ _ _ _ hjoin h
    refine Advances.of_mapM (StateDiagram.of_layout_eq_ok hl).2 ?_ hends.1 hends.2 hplacement
    intro state placed hplaced
    rcases StateDiagram.placeState_eq_ok_iff.1 hplaced with ⟨_, _, layer, hlayer, rfl⟩
    exact ⟨rfl, hlayer⟩
  | _ => simp [kind] at hkind

/-- A loop in the middle: the edge that enters it and the edge that leaves it both advance. -/
theorem edges_advance_around_loop :
    ∃ d, parse "flowchart TD\nA-->B\nB-->B\nB-->C" = .ok d ∧
      d.kind = .flowchart ∧ ¬d.graph.BehindCycle "A" ∧ d.graph.BehindCycle "B" ∧ "B" < "C" ∧
      ∃ l : Layout Float, d.layout Config.light = .ok l ∧ Advances l.layerNumbers "A" "B" ∧
        Advances l.layerNumbers "B" "C" := by
  have hparse : parse "flowchart TD\nA-->B\nB-->B\nB-->C" = .ok (.flowchart
      ⟨.topDown, [⟨"A", "A", .rectangle⟩, ⟨"B", "B", .rectangle⟩, ⟨"C", "C", .rectangle⟩],
        [⟨"A", "B", none, .solid⟩, ⟨"B", "B", none, .solid⟩, ⟨"B", "C", none, .solid⟩],
        [], [], []⟩) := rfl
  have hentering : ¬(ofEdges ["A", "B", "C"] [("A", "B"), ("B", "B"), ("B", "C")]).BehindCycle "A" :=
    ((mem_reached_iff (wellFormed_ofEdges _ _)).1 (by decide)).2
  have hloop : (ofEdges ["A", "B", "C"] [("A", "B"), ("B", "B"), ("B", "C")]).Joins "B" "B" := by
    decide
  have hleaving : "B" < "C" := by decide
  rcases edges_advance hparse (Or.inl rfl) Config.light Float with ⟨l, hl, hadvance⟩
  exact ⟨_, hparse, rfl, hentering, ⟨"B", .single hloop, .refl⟩, hleaving, l, hl,
    hadvance "A" "B" (by decide) (Or.inl hentering), hadvance "B" "C" (by decide) (Or.inr hleaving)⟩

/-- Two nodes with loops: the edge from `B` to `A` lies on no cycle, but nodes on cycles are taken in
the order of their names, `A` before `B`, and both stand on the first layer. -/
theorem edge_between_loops_stays :
    ∃ d, parse "flowchart TD\nB-->B\nB-->A\nA-->A" = .ok d ∧ d.kind = .flowchart ∧
      d.graph.Joins "B" "A" ∧ ¬ReflTransGen d.graph.Joins "A" "B" ∧
      ∃ l : Layout Float, d.layout Config.light = .ok l ∧ l.layerNumbers = [("B", 0), ("A", 0)] ∧
        ¬Advances l.layerNumbers "B" "A" := by
  have hparse : parse "flowchart TD\nB-->B\nB-->A\nA-->A" = .ok (.flowchart
      ⟨.topDown, [⟨"B", "B", .rectangle⟩, ⟨"A", "A", .rectangle⟩],
        [⟨"B", "B", none, .solid⟩, ⟨"B", "A", none, .solid⟩, ⟨"A", "A", none, .solid⟩],
        [], [], []⟩) := rfl
  have hstay : ∀ w, ReflTransGen
      (ofEdges ["B", "A"] [("B", "B"), ("B", "A"), ("A", "A")]).Joins "A" w → w = "A" := by
    intro w hpath
    induction hpath with
    | refl => rfl
    | tail _ hjoin ih =>
      subst ih
      simpa [Graph.Joins, ofEdges] using hjoin
  refine ⟨_, hparse, rfl, by decide, ?_, _, rfl, rfl, ?_⟩
  · intro hpath
    exact absurd (hstay "B" hpath) (by decide)
  · rintro ⟨i, j, hi, hj, hlt⟩
    cases hi
    cases hj
    exact Nat.lt_irrefl 0 hlt

end Diagram

end TextDiagram
