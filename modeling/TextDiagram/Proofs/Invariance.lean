import TextDiagram.Proofs.Placement
/-!
# The order of declarations does not matter

The queue takes nodes in an order that changes with the order of the edges and with the number of
parallel ones. The layers do not change with it: off the cycles they measure longest walks, and the
nodes behind cycles are put on layers in the order of their names, after all others.

Main statements:

* `SameSets.mem_reached_iff`, `SameSets.others_eq`: which nodes the queue reaches, and the list of
  those it does not reach.
* `SameSets.value?_assign`, `SameSets.value?_assignAll`: layers that agree stay so when one node and
  when a list of nodes is put on layers.
* `SameSets.value?_ownLayering`: graphs with the same nodes and edges have the same layers.
* `layers_congr`: layers that agree group the names in the same way.
* `CellGrid.place_eq_of_same_sets`: the placement of a graph depends on its nodes and edges as sets.
-/

namespace TextDiagram

namespace Graph

variable {g g' : Graph}

/-- The same nodes and the same edges, in any order and each edge any number of times. -/
structure SameSets (g g' : Graph) : Prop where
  nodes : ∀ v, v ∈ g.nodes ↔ v ∈ g'.nodes
  joins : ∀ u v, g.Joins u v ↔ g'.Joins u v

/-- Strictly increasing lists of names with the same members are equal. -/
theorem eq_of_pairwise_lt {names names' : List String} (h : names.Pairwise (· < ·))
    (h' : names'.Pairwise (· < ·)) (hmem : ∀ v, v ∈ names ↔ v ∈ names') : names = names' := by
  have hnodup : names.Nodup := h.imp fun hlt => String.ne_of_lt hlt
  have hnodup' : names'.Nodup := h'.imp fun hlt => String.ne_of_lt hlt
  have hperm : names.Perm names' := (List.perm_ext_iff_of_nodup hnodup hnodup').2 hmem
  refine hperm.eq_of_pairwise (fun a b _ _ hab hba => ?_) h h'
  exact absurd hba (String.lt_asymm hab)

/-- The depth depends only on which layers there are. -/
theorem depth_congr {layers layers' : List Nat} (h : ∀ k, k ∈ layers ↔ k ∈ layers') :
    depth layers = depth layers' := by
  have key : ∀ l l' : List Nat, (∀ k, k ∈ l → k ∈ l') → depth l ≤ depth l' := by
    intro l l' hsub
    cases hdepth : depth l with
    | zero => exact Nat.zero_le _
    | succ k => exact lt_depth (hsub k (mem_of_depth_eq hdepth))
  exact Nat.le_antisymm (key _ _ fun k => (h k).1) (key _ _ fun k => (h k).2)

/-! ## Nodes on and off the cycles -/

namespace SameSets

theorem symm (h : SameSets g g') : SameSets g' g :=
  ⟨fun v => (h.nodes v).symm, fun u v => (h.joins u v).symm⟩

theorem behindCycle_iff (h : SameSets g g') (v : String) : g.BehindCycle v ↔ g'.BehindCycle v := by
  have hjoins : g.Joins = g'.Joins := funext fun u => funext fun v => propext (h.joins u v)
  rw [BehindCycle, BehindCycle, hjoins]

theorem walkTo (h : SameSets g g') {n : Nat} {v : String} (hwalk : g.WalkTo n v) :
    g'.WalkTo n v := by
  induction hwalk with
  | start hv => exact .start ((h.nodes _).1 hv)
  | step _ hjoin ih => exact .step ih ((h.joins _ _).1 hjoin)

/-- The same nodes are reached. -/
theorem mem_reached_iff (h : SameSets g g') (wf : g.WellFormed) (wf' : g'.WellFormed)
    {v : String} : v ∈ g.reached ↔ v ∈ g'.reached := by
  -- Being reached depends on the sets alone: it means that there is no cycle before the node.
  rw [Graph.mem_reached_iff wf, Graph.mem_reached_iff wf', h.nodes, h.behindCycle_iff]

/-- The nodes behind cycles follow in one and the same order. -/
theorem others_eq (h : SameSets g g') (wf : g.WellFormed) (wf' : g'.WellFormed) :
    g.others g.reached = g'.others g'.reached := by
  refine eq_of_pairwise_lt (pairwise_lt_others wf _) (pairwise_lt_others wf' _) fun v => ?_
  rw [mem_others, mem_others, h.nodes, h.mem_reached_iff wf wf']

/-- Off the cycles a layer is the length of a longest walk, and the walks are the same. -/
theorem layerOf_eq_of_not_behindCycle (h : SameSets g g') (wf : g.WellFormed)
    (wf' : g'.WellFormed) {v : String} (hv : v ∈ g.nodes) (hcycle : ¬g.BehindCycle v) :
    layerOf g.ownLayering v = layerOf g'.ownLayering v := by
  have hgreatest := isGreatest_layerOf wf hv hcycle
  have hgreatest' := isGreatest_layerOf wf' ((h.nodes v).1 hv) (mt (h.behindCycle_iff v).2 hcycle)
  have hwalks : {n | g.WalkTo n v} = {n | g'.WalkTo n v} :=
    Set.ext fun n => ⟨fun hwalk => h.walkTo hwalk, fun hwalk => h.symm.walkTo hwalk⟩
  rw [hwalks] at hgreatest
  exact hgreatest.unique hgreatest'

/-! ## Putting the same nodes on layers in two graphs -/

/-- Layers that agree still agree when one more node is put on its layer. -/
theorem value?_assign (h : SameSets g g') {known known' : Layering}
    (hknown : ∀ v, Keyed.value? known v = Keyed.value? known' v) (node v : String) :
    Keyed.value? (g.assign known node) v = Keyed.value? (g'.assign known' node) v := by
  have hdepth : depth ((g.predecessors node).filterMap (Keyed.value? known)) =
      depth ((g'.predecessors node).filterMap (Keyed.value? known')) := by
    refine depth_congr fun k => ?_
    simp only [List.mem_filterMap, mem_predecessors, hknown]
    constructor
    · rintro ⟨u, hjoin, hu⟩
      exact ⟨u, (h.joins u node).1 hjoin, hu⟩
    · rintro ⟨u, hjoin, hu⟩
      exact ⟨u, (h.joins u node).2 hjoin, hu⟩
  rw [assign, assign, hdepth]
  by_cases hv : v = node
  · rw [hv, Keyed.value?_put_self, Keyed.value?_put_self]
  · rw [Keyed.value?_put_of_ne hv, Keyed.value?_put_of_ne hv, hknown]

/-- Nodes are given the same layers one after the other. -/
theorem value?_assignAll (h : SameSets g g') (names : List String) {known known' : Layering}
    (hknown : ∀ v, Keyed.value? known v = Keyed.value? known' v) (v : String) :
    Keyed.value? (names.foldl g.assign known) v = Keyed.value? (names.foldl g'.assign known') v := by
  induction names generalizing known known' with
  | nil => exact hknown v
  | cons node rest ih => exact ih (h.value?_assign hknown node)

end SameSets

/-- Putting other nodes on layers leaves the layer of a node alone. -/
theorem value?_assignAll_of_notMem {names : List String} {known : Layering} {v : String}
    (hv : v ∉ names) : Keyed.value? (names.foldl g.assign known) v = Keyed.value? known v := by
  induction names generalizing known with
  | nil => rfl
  | cons node rest ih =>
    rw [List.mem_cons, not_or] at hv
    rw [List.foldl_cons, ih hv.2, assign, Keyed.value?_put_of_ne hv.1]

theorem ownLayering_eq (g : Graph) :
    g.ownLayering = (g.others g.reached).foldl g.assign (g.layering g.reached) := by
  rw [ownLayering, order, layering, List.foldl_append, layering]

/-- The nodes that the queue reaches have their final layers before the others follow. -/
theorem value?_layering_reached (wf : g.WellFormed) {v : String} (hv : v ∈ g.reached) :
    Keyed.value? (g.layering g.reached) v = some (layerOf g.ownLayering v) := by
  have hothers : v ∉ g.others g.reached := fun hmem => (mem_others.1 hmem).2 hv
  have hkey : v ∈ Keyed.keys g.ownLayering := by
    rw [(layered_ownLayering wf).keys]
    exact List.mem_append_left _ hv
  rw [← value?_of_mem_keys hkey, ownLayering_eq, value?_assignAll_of_notMem hothers]

theorem value?_layering_reached_of_notMem (wf : g.WellFormed) {v : String} (hv : v ∉ g.reached) :
    Keyed.value? (g.layering g.reached) v = none := by
  -- Layers are known for the nodes that have been seen, and for no others.
  have hkeys := (layered_layering (g := g) (nodup_reached wf)).keys
  refine Option.eq_none_iff_forall_not_mem.2 fun k hk => ?_
  exact hv (hkeys ▸ Keyed.exists_value?_iff.1 ⟨k, hk⟩)

/-- Graphs with the same nodes and edges put every node on the same layer. -/
theorem SameSets.value?_ownLayering (h : SameSets g g') (wf : g.WellFormed) (wf' : g'.WellFormed)
    (v : String) : Keyed.value? g.ownLayering v = Keyed.value? g'.ownLayering v := by
  rw [ownLayering_eq g, ownLayering_eq g', h.others_eq wf wf']
  refine h.value?_assignAll _ (fun w => ?_) v
  by_cases hw : w ∈ g.reached
  · rcases (Graph.mem_reached_iff wf).1 hw with ⟨hnode, hcycle⟩
    rw [value?_layering_reached wf hw, value?_layering_reached wf' ((h.mem_reached_iff wf wf').1 hw),
      h.layerOf_eq_of_not_behindCycle wf wf' hnode hcycle]
  · rw [value?_layering_reached_of_notMem wf hw,
      value?_layering_reached_of_notMem wf' (mt (h.mem_reached_iff wf wf').2 hw)]

/-! ## Grouping -/

theorem mem_numbers_iff {known : Layering} (hkeys : (Keyed.keys known).Nodup) {k : Nat} :
    k ∈ known.map (·.2) ↔ ∃ v, Keyed.value? known v = some k := by
  simp only [Keyed.value?_eq_some_iff hkeys, List.mem_map, Prod.exists]
  constructor
  · rintro ⟨v, k', hmem, rfl⟩
    exact ⟨v, hmem⟩
  · rintro ⟨v, hmem⟩
    exact ⟨v, k, hmem, rfl⟩

/-- Layers that agree on every name group the names in the same way, whatever the order in which
the names were given. -/
theorem layers_congr {known known' : Layering} (hkeys : (Keyed.keys known).Nodup)
    (hkeys' : (Keyed.keys known').Nodup)
    (h : ∀ v, Keyed.value? known v = Keyed.value? known' v) : layers known = layers known' := by
  have hlength : (layers known).length = (layers known').length := by
    rw [length_layers, length_layers]
    refine depth_congr fun k => ?_
    simp only [mem_numbers_iff hkeys, mem_numbers_iff hkeys', h]
  refine List.ext_getElem hlength fun i hi hi' => ?_
  refine eq_of_pairwise_lt (pairwise_lt_layer hkeys (List.getElem_mem hi))
    (pairwise_lt_layer hkeys' (List.getElem_mem hi')) fun v => ?_
  rw [mem_layer_iff hkeys, mem_layer_iff hkeys', h]

end Graph

open TextDiagram.Graph

namespace CellGrid

variable {α : Type} [Scalar α]

/-- The placement of a graph depends on its nodes, its edges and the sizes as sets: neither the
order in which they are given nor the number of parallel edges matters. -/
theorem place_eq_of_same_sets (grid : CellGrid α) {names names' : List String}
    {edges edges' : List (String × String)} {sizes sizes' : List (String × Size α)}
    (hnodes : ∀ v, (v ∈ names ∨ ∃ e ∈ edges, v = e.1 ∨ v = e.2) ↔
      (v ∈ names' ∨ ∃ e ∈ edges', v = e.1 ∨ v = e.2))
    (hedges : ∀ e, e ∈ edges ↔ e ∈ edges')
    (hsizes : ∀ v, Keyed.value? sizes v = Keyed.value? sizes' v) :
    (grid.place names edges sizes).layers = (grid.place names' edges' sizes').layers ∧
      (grid.place names edges sizes).nodes = (grid.place names' edges' sizes').nodes ∧
      (grid.place names edges sizes).hasCycles = (grid.place names' edges' sizes').hasCycles := by
  have wf := wellFormed_ofEdges names edges
  have wf' := wellFormed_ofEdges names' edges'
  have hsame : SameSets (ofEdges names edges) (ofEdges names' edges') := by
    refine ⟨fun v => ?_, fun u v => hedges (u, v)⟩
    rw [mem_nodes_ofEdges, mem_nodes_ofEdges, hnodes]
  have hvalue := hsame.value?_ownLayering wf wf'
  have hlayers : (grid.place names edges sizes).layers =
      (grid.place names' edges' sizes').layers :=
    layers_congr (nodup_keys_ownLayering wf) (nodup_keys_ownLayering wf') hvalue
  refine ⟨hlayers, ?_, ?_⟩
  · -- The nodes are read off the layers, with the sizes looked up by name.
    have hrow : ∀ count, grid.placeLayer sizes count = grid.placeLayer sizes' count := by
      intro count
      funext layer row
      simp only [placeLayer, hsizes]
    show ((grid.place names edges sizes).layers.mapIdx _).flatten =
      ((grid.place names' edges' sizes').layers.mapIdx _).flatten
    rw [hrow]
    rw [layers_place, layers_place] at hlayers
    exact congrArg (fun layers => (layers.mapIdx (grid.placeLayer sizes' layers.length)).flatten)
      hlayers
  · have hlayer : ∀ v, layerOf (ofEdges names edges).ownLayering v =
        layerOf (ofEdges names' edges').ownLayering v := by
      intro v
      rw [layerOf, layerOf, hvalue]
    rw [Bool.eq_iff_iff]
    show (edges.any fun e => layerOf (ofEdges names edges).ownLayering e.2 ≤
        layerOf (ofEdges names edges).ownLayering e.1) = true ↔
      (edges'.any fun e => layerOf (ofEdges names' edges').ownLayering e.2 ≤
        layerOf (ofEdges names' edges').ownLayering e.1) = true
    simp only [List.any_eq_true, hlayer, hedges]

/-- A graph with a loop, declared twice: the queue takes `a` and `b` in two orders. -/
theorem place_declared_twice :
    ∃ edges edges' : List (String × String), ∃ grid : CellGrid Rat,
      edges = [("s", "b"), ("s", "a"), ("c", "c"), ("c", "d")] ∧
      edges' = [("c", "d"), ("s", "a"), ("s", "b"), ("s", "a"), ("c", "c")] ∧
      (∀ v, (v ∈ [] ∨ ∃ e ∈ edges, v = e.1 ∨ v = e.2) ↔
        (v ∈ ["d"] ∨ ∃ e ∈ edges', v = e.1 ∨ v = e.2)) ∧
      (∀ e, e ∈ edges ↔ e ∈ edges') ∧
      (grid.place [] edges []).order = ["s", "b", "a", "c", "d"] ∧
      (grid.place ["d"] edges' []).order = ["s", "a", "b", "c", "d"] ∧
      (grid.place [] edges []).layers = (grid.place ["d"] edges' []).layers ∧
      (grid.place [] edges []).nodes = (grid.place ["d"] edges' []).nodes ∧
      (grid.place [] edges []).hasCycles = (grid.place ["d"] edges' []).hasCycles := by
  have hedges : ∀ e : String × String, e ∈ [("s", "b"), ("s", "a"), ("c", "c"), ("c", "d")] ↔
      e ∈ [("c", "d"), ("s", "a"), ("s", "b"), ("s", "a"), ("c", "c")] := by
    intro e
    simp only [List.mem_cons, List.not_mem_nil, or_false]
    tauto
  have hnodes : ∀ v : String,
      (v ∈ [] ∨ ∃ e ∈ [("s", "b"), ("s", "a"), ("c", "c"), ("c", "d")], v = e.1 ∨ v = e.2) ↔
        (v ∈ ["d"] ∨ ∃ e ∈ [("c", "d"), ("s", "a"), ("s", "b"), ("s", "a"), ("c", "c")],
          v = e.1 ∨ v = e.2) := by
    intro v
    simp only [List.mem_cons, List.not_mem_nil, or_false, false_or, exists_eq_or_imp,
      exists_eq_left]
    tauto
  refine ⟨_, _, ⟨⟨150, 50⟩, ⟨60, 60⟩, 40, .leftRight⟩, rfl, rfl, hnodes, hedges, rfl, rfl, ?_⟩
  exact place_eq_of_same_sets _ hnodes hedges fun _ => rfl

end CellGrid

end TextDiagram
