import Mathlib.Order.Bounds.Basic
import TextDiagram.Graph.Layer
import TextDiagram.Proofs.Graph.TopologicalOrder
/-!
# Layers

A node is put one layer below the deepest predecessor that has a layer already. `Layered` is what
holds after every node of an order has been put on its layer.

Main statements:

* `layered_layering`: assigning the layers of any order without repetition keeps `Layered`.
* `isGreatest_layerOf`: off the cycles a layer is the length of the longest walk to the node.
* `mem_layer_iff`, `perm_layers`: the layers hold every node once, where it was put.
* `layering_meets_specification`: the layers of every graph are those of the specification.
-/

namespace TextDiagram.Graph

open Relation

variable {g : Graph}

/-! ## Depth -/

/-- The depth of a list with one more layer in front. -/
theorem depth_cons (k : Nat) (layers : List Nat) :
    depth (k :: layers) = max (k + 1) (depth layers) := by
  simp only [depth, List.map_cons, List.foldl_cons, Nat.max_comm 0 (k + 1)]
  exact List.foldl_assoc

/-- Every layer is less than the depth. -/
theorem lt_depth {layers : List Nat} {k : Nat} (h : k ∈ layers) : k < depth layers := by
  induction layers with
  | nil => simp at h
  | cons j rest ih =>
    rw [depth_cons]
    rcases List.mem_cons.1 h with rfl | h
    · omega
    · have := ih h
      omega

/-- The depth is one more than some layer that it was taken of. -/
theorem mem_of_depth_eq {layers : List Nat} {k : Nat} (h : depth layers = k + 1) : k ∈ layers := by
  induction layers with
  | nil => simp [depth] at h
  | cons j rest ih =>
    rw [depth_cons] at h
    by_cases hj : j = k
    · exact hj ▸ List.mem_cons_self
    · exact List.mem_cons_of_mem j (ih (by omega))

/-! ## Assigning layers -/

/-- The nodes seen have been put on layers: each below its predecessors seen before it, and below
the first layer only right below one of them. -/
structure Layered (g : Graph) (seen : List String) (known : Layering) : Prop where
  keys : Keyed.keys known = seen
  above : ∀ before v after, seen = before ++ v :: after → ∀ u ∈ before, g.Joins u v →
    layerOf known u < layerOf known v
  attained : ∀ v k, layerOf known v = k + 1 → ∃ u ∈ seen, g.Joins u v ∧ layerOf known u = k

/-- The layer that a node has just been given. -/
theorem layerOf_put_self (known : Layering) (v : String) (k : Nat) :
    layerOf (Keyed.put (v, k) known) v = k := by
  simp [layerOf, Keyed.value?_put_self]

/-- Other nodes keep their layers. -/
theorem layerOf_put_of_ne {u v : String} (h : u ≠ v) (known : Layering) (k : Nat) :
    layerOf (Keyed.put (v, k) known) u = layerOf known u := by
  simp [layerOf, Keyed.value?_put_of_ne h]

/-- The layer of a node that has one. -/
theorem layerOf_of_value? {known : Layering} {v : String} {k : Nat}
    (h : Keyed.value? known v = some k) : layerOf known v = k := by
  simp [layerOf, h]

/-- A node with a layer has it on record. -/
theorem value?_of_mem_keys {known : Layering} {v : String} (h : v ∈ Keyed.keys known) :
    Keyed.value? known v = some (layerOf known v) := by
  rcases Keyed.exists_value?_iff.2 h with ⟨k, hk⟩
  rw [hk, layerOf_of_value? hk]

/-- The layers of the predecessors that have one. -/
theorem mem_predecessor_layers {known : Layering} {v : String} {k : Nat} :
    k ∈ (g.predecessors v).filterMap (Keyed.value? known) ↔
      ∃ u ∈ Keyed.keys known, g.Joins u v ∧ layerOf known u = k := by
  simp only [List.mem_filterMap, mem_predecessors]
  constructor
  · rintro ⟨u, hjoin, hu⟩
    exact ⟨u, Keyed.exists_value?_iff.1 ⟨k, hu⟩, hjoin, layerOf_of_value? hu⟩
  · rintro ⟨u, hmem, hjoin, rfl⟩
    exact ⟨u, hjoin, value?_of_mem_keys hmem⟩

/-- Giving a layer to the next node keeps the invariant. -/
theorem Layered.assign {seen : List String} {known : Layering} {node : String}
    (h : Layered g seen known) (hnode : node ∉ seen) :
    Layered g (seen ++ [node]) (g.assign known node) := by
  have hother : ∀ u ∈ seen, layerOf (g.assign known node) u = layerOf known u := by
    intro u hu
    have hne : u ≠ node := fun heq => hnode (heq ▸ hu)
    exact layerOf_put_of_ne hne known _
  have hself : layerOf (g.assign known node) node =
      depth ((g.predecessors node).filterMap (Keyed.value? known)) := layerOf_put_self known node _
  refine ⟨?_, ?_, ?_⟩
  · rw [Graph.assign, Keyed.keys_put, h.keys]
    exact if_neg hnode
  · intro before v after heq u hu hjoin
    rcases List.eq_nil_or_concat after with rfl | ⟨after', z, rfl⟩
    · -- The new node lies below every predecessor that was seen.
      rcases List.append_inj' heq rfl with ⟨rfl, hv⟩
      obtain rfl : node = v := by simpa using hv
      rw [hother u hu, hself]
      exact lt_depth (mem_predecessor_layers.2 ⟨u, h.keys ▸ hu, hjoin, rfl⟩)
    · have heq' : seen ++ [node] = (before ++ v :: after') ++ [z] := by simpa using heq
      rcases List.append_inj' heq' rfl with ⟨hseen, -⟩
      rw [hother u (by simp [hseen, hu]), hother v (by simp [hseen])]
      exact h.above before v after' hseen u hu hjoin
  · intro v k hk
    by_cases hv : v = node
    · -- The depth comes from a predecessor, which was seen and keeps its layer.
      subst hv
      rw [hself] at hk
      rcases mem_predecessor_layers.1 (mem_of_depth_eq hk) with ⟨u, hu, hjoin, hlayer⟩
      rw [h.keys] at hu
      exact ⟨u, List.mem_append_left _ hu, hjoin, (hother u hu).trans hlayer⟩
    · have hsame : layerOf (g.assign known node) v = layerOf known v :=
        layerOf_put_of_ne hv known _
      -- A node that was seen before keeps its layer, and so does the predecessor that explains it.
      rcases h.attained v k (hsame ▸ hk) with ⟨u, hu, hjoin, hlayer⟩
      exact ⟨u, List.mem_append_left _ hu, hjoin, (hother u hu).trans hlayer⟩

/-- So does giving layers to several nodes in turn. -/
theorem Layered.assignAll {seen names : List String} {known : Layering}
    (h : Layered g seen known) (hnodup : (seen ++ names).Nodup) :
    Layered g (seen ++ names) (names.foldl g.assign known) := by
  induction names generalizing seen known with
  | nil => simpa using h
  | cons node rest ih =>
    have hnode : node ∉ seen := notMem_before hnodup
    have hlist : seen ++ [node] ++ rest = seen ++ node :: rest := by simp
    have hrest := ih (h.assign hnode) (hlist ▸ hnodup)
    rwa [hlist] at hrest

/-- Any order without repetition puts its nodes on layers. -/
theorem layered_layering {order : List String} (h : order.Nodup) :
    Layered g order (g.layering order) := by
  have hempty : Layered g [] [] := by
    refine ⟨rfl, ?_, ?_⟩
    · intro before v after heq
      simp at heq
    · intro v k hk
      simp [layerOf, Keyed.value?, Keyed.find?] at hk
  exact hempty.assignAll (by simpa using h)

/-- The layers of the nodes along the order of the graph itself. -/
def ownLayering (g : Graph) : Layering := g.layering g.order

/-- The layering of a graph satisfies the invariant for the whole order. -/
theorem layered_ownLayering (wf : g.WellFormed) : Layered g g.order g.ownLayering :=
  layered_layering (nodup_order wf)

/-- No node has two layers. -/
theorem nodup_keys_ownLayering (wf : g.WellFormed) : (Keyed.keys g.ownLayering).Nodup :=
  (layered_ownLayering wf).keys ▸ nodup_order wf

/-! ## What the layers measure -/

section

variable {seen : List String} {known : Layering}

/-- An edge along the order leads to a deeper layer. -/
theorem Layered.lt_of_idxOf_lt (h : Layered g seen known) (hnodup : seen.Nodup) {u v : String}
    (hjoin : g.Joins u v) (hv : v ∈ seen) (hlt : seen.idxOf u < seen.idxOf v) :
    layerOf known u < layerOf known v := by
  rcases List.append_of_mem hv with ⟨before, after, heq⟩
  refine h.above before v after heq u ?_ hjoin
  have hv' : v ∉ before := notMem_before (heq ▸ hnodup)
  by_contra hu
  rw [heq, List.idxOf_append_of_notMem hu, List.idxOf_append_of_notMem hv',
    List.idxOf_cons_self] at hlt
  omega

/-- Every layer is the length of some walk. -/
theorem Layered.walkTo (h : Layered g seen known) (hsub : ∀ v ∈ seen, v ∈ g.nodes) {k : Nat}
    {v : String} (hv : v ∈ seen) (hk : layerOf known v = k) : g.WalkTo k v := by
  induction k generalizing v with
  | zero => exact .start (hsub v hv)
  | succ k ih =>
    rcases h.attained v k hk with ⟨u, hu, hjoin, hlayer⟩
    exact .step (ih hu hlayer) hjoin

/-- No layer above the one of a node is empty. -/
theorem Layered.exists_of_le (h : Layered g seen known) {v : String} (hv : v ∈ seen) {i : Nat}
    (hi : i ≤ layerOf known v) : ∃ u ∈ seen, layerOf known u = i := by
  have key : ∀ n v, v ∈ seen → layerOf known v = i + n → ∃ u ∈ seen, layerOf known u = i := by
    intro n
    induction n with
    | zero => exact fun v hv hlayer => ⟨v, hv, hlayer⟩
    | succ n ih =>
      intro v hv hlayer
      rcases h.attained v (i + n) hlayer with ⟨u, hu, -, hu'⟩
      exact ih u hu hu'
  exact key (layerOf known v - i) v hv (by omega)

end

/-- Off the cycles a walk to a node has at most as many edges as its layer says. -/
theorem WalkTo.le_layerOf (wf : g.WellFormed) {known : Layering}
    (h : Layered g g.order known) {n : Nat} {v : String} (hwalk : g.WalkTo n v)
    (hv : v ∈ g.reached) : n ≤ layerOf known v := by
  induction hwalk with
  | start _ => exact Nat.zero_le _
  | @step n u v _ hjoin ih =>
    -- The edge leads at least one layer down, because the queue takes `u` before `v`.
    have hu := ((mem_reached_iff_forall wf).1 hv).2 u hjoin
    have hlt : g.order.idxOf u < g.order.idxOf v := by
      rw [order, List.idxOf_append_of_mem hu, List.idxOf_append_of_mem hv]
      exact idxOf_lt_of_joins wf hjoin hv
    have hlayer := h.lt_of_idxOf_lt (nodup_order wf) hjoin (List.mem_append_left _ hv) hlt
    have := ih hu
    omega

/-- Off the cycles a layer is the length of the longest walk to the node. -/
theorem isGreatest_layerOf (wf : g.WellFormed) {v : String} (hv : v ∈ g.nodes)
    (h : ¬g.BehindCycle v) :
    IsGreatest {n | g.WalkTo n v} (layerOf g.ownLayering v) := by
  have hlayered := layered_ownLayering wf
  have hmem := (perm_order wf).mem_iff (a := v)
  constructor
  · exact hlayered.walkTo (fun u => (perm_order wf).mem_iff.1) (hmem.2 hv) rfl
  · intro n hwalk
    exact WalkTo.le_layerOf wf hlayered hwalk ((mem_reached_iff wf).2 ⟨hv, h⟩)

/-! ## The names on each layer -/

section

variable {known : Layering}

/-- There are as many groups as the layering is deep. -/
theorem length_layers (known : Layering) :
    (layers known).length = depth (known.map (·.2)) := by
  simp [layers]

/-- A group lists the nodes of one layer by name. -/
theorem getElem_layers {known : Layering} {i : Nat} (h : i < (layers known).length) :
    (layers known)[i] = sortedNames ((known.filter (·.2 == i)).map (·.1)) := by
  simp [layers]

/-- A node is in the group of its layer and in no other. -/
theorem mem_layer_iff (hkeys : (Keyed.keys known).Nodup) {i : Nat}
    (h : i < (layers known).length) {v : String} :
    v ∈ (layers known)[i] ↔ Keyed.value? known v = some i := by
  rw [getElem_layers, mem_sortedNames, Keyed.value?_eq_some_iff hkeys]
  simp

/-- Every layer that is given to a node is listed. -/
theorem lt_length_layers {v : String} {i : Nat} (h : Keyed.value? known v = some i) :
    i < (layers known).length := by
  rw [length_layers]
  exact lt_depth (List.mem_map.2 ⟨(v, i), Keyed.mem_of_value? h, rfl⟩)

/-- A group is sorted without repetitions. -/
theorem pairwise_lt_layer (hkeys : (Keyed.keys known).Nodup) {layer : List String}
    (h : layer ∈ layers known) : layer.Pairwise (· < ·) := by
  rcases List.mem_map.1 h with ⟨i, -, rfl⟩
  exact pairwise_lt_sortedNames (hkeys.sublist (List.filter_sublist.map _))

/-- The layers together hold every name once. -/
theorem perm_flatten_layers (hkeys : (Keyed.keys known).Nodup) :
    (layers known).flatten.Perm (Keyed.keys known) := by
  have hnodup : (layers known).flatten.Nodup := by
    refine List.nodup_flatten.2 ⟨fun layer hlayer => ?_, ?_⟩
    · exact (pairwise_lt_layer hkeys hlayer).imp fun hlt => String.ne_of_lt hlt
    · rw [List.pairwise_iff_getElem]
      intro i j hi hj hij v hvi hvj
      rw [mem_layer_iff hkeys] at hvi hvj
      rw [hvi, Option.some.injEq] at hvj
      omega
  refine (List.perm_ext_iff_of_nodup hnodup hkeys).2 fun v => ?_
  rw [List.mem_flatten, ← Keyed.exists_value?_iff]
  constructor
  · rintro ⟨layer, hlayer, hv⟩
    rcases List.mem_iff_getElem.1 hlayer with ⟨i, hi, rfl⟩
    exact ⟨i, (mem_layer_iff hkeys hi).1 hv⟩
  · rintro ⟨i, hv⟩
    exact ⟨_, List.getElem_mem (lt_length_layers hv), (mem_layer_iff hkeys _).2 hv⟩

/-- No group is empty. -/
theorem Layered.layer_ne_nil {seen : List String} (h : Layered g seen known)
    (hnodup : seen.Nodup) {layer : List String} (hlayer : layer ∈ layers known) :
    layer ≠ [] := by
  have hkeys : (Keyed.keys known).Nodup := h.keys ▸ hnodup
  rcases List.mem_iff_getElem.1 hlayer with ⟨i, hi, rfl⟩
  -- The deepest layer has a node, and so has every layer above it.
  rw [length_layers] at hi
  have hlast : depth (known.map (·.2)) = depth (known.map (·.2)) - 1 + 1 := by omega
  rcases List.mem_map.1 (mem_of_depth_eq hlast) with ⟨⟨v, last⟩, hv, hdepth⟩
  have hdeep : Keyed.value? known v = some last := (Keyed.value?_eq_some_iff hkeys).2 hv
  have hseen : v ∈ seen := h.keys ▸ Keyed.exists_value?_iff.1 ⟨last, hdeep⟩
  have hle : i ≤ layerOf known v := by
    rw [layerOf_of_value? hdeep]
    simp only at hdepth
    omega
  rcases h.exists_of_le hseen hle with ⟨u, hu, hui⟩
  have hmem : u ∈ (layers known)[i] := by
    rw [mem_layer_iff hkeys, ← hui]
    exact value?_of_mem_keys (h.keys.symm ▸ hu)
  exact List.ne_nil_of_mem hmem

end

/-- The layers of a graph together hold every node once. -/
theorem perm_layers (wf : g.WellFormed) : (layers g.ownLayering).flatten.Perm g.nodes := by
  have hperm := perm_flatten_layers (nodup_keys_ownLayering wf)
  rw [(layered_ownLayering wf).keys] at hperm
  exact hperm.trans (perm_order wf)

/-- The layers of any graph: longest walks off the cycles, increasing along the order everywhere,
and without a gap, so that the lists of names are not empty and hold every node once. -/
theorem layering_meets_specification (names : List String) (edges : List (String × String)) :
    (∀ v ∈ (ofEdges names edges).nodes, ¬(ofEdges names edges).BehindCycle v →
      IsGreatest {n | (ofEdges names edges).WalkTo n v}
        (layerOf (ofEdges names edges).ownLayering v)) ∧
    (∀ u v, (u, v) ∈ edges →
      (ofEdges names edges).order.idxOf u < (ofEdges names edges).order.idxOf v →
      layerOf (ofEdges names edges).ownLayering u < layerOf (ofEdges names edges).ownLayering v) ∧
    (∀ v ∈ (ofEdges names edges).nodes, ∀ k,
      layerOf (ofEdges names edges).ownLayering v = k + 1 →
      ∃ u, (u, v) ∈ edges ∧ layerOf (ofEdges names edges).ownLayering u = k) ∧
    (∀ layer ∈ layers (ofEdges names edges).ownLayering,
      layer ≠ [] ∧ layer.Pairwise (· < ·)) ∧
    (layers (ofEdges names edges).ownLayering).flatten.Perm (ofEdges names edges).nodes ∧
    (ofEdges names edges).nodes.Nodup ∧
    ∀ i (h : i < (layers (ofEdges names edges).ownLayering).length),
      ∀ v ∈ (ofEdges names edges).nodes, v ∈ (layers (ofEdges names edges).ownLayering)[i] ↔
        layerOf (ofEdges names edges).ownLayering v = i := by
  have wf : (ofEdges names edges).WellFormed := wellFormed_ofEdges names edges
  have h := layered_ownLayering wf
  have hmem : ∀ v, v ∈ (ofEdges names edges).order ↔ v ∈ (ofEdges names edges).nodes :=
    fun v => (perm_order wf).mem_iff
  refine ⟨fun v hv hcycle => isGreatest_layerOf wf hv hcycle, ?_, ?_, ?_, ?_, wf.nodup, ?_⟩
  · -- Edges along the order lead down.
    intro u v hjoin hlt
    exact h.lt_of_idxOf_lt (nodup_order wf) hjoin ((hmem v).2 (wf.target_mem u v hjoin)) hlt
  · -- Below the first layer a node has a predecessor right above it.
    intro v _ k hk
    rcases h.attained v k hk with ⟨u, -, hjoin, hu⟩
    exact ⟨u, hjoin, hu⟩
  · intro layer hlayer
    exact ⟨h.layer_ne_nil (nodup_order wf) hlayer,
      pairwise_lt_layer (nodup_keys_ownLayering wf) hlayer⟩
  · exact perm_layers wf
  · intro i hi v hv
    have hkey : v ∈ Keyed.keys (ofEdges names edges).ownLayering := h.keys.symm ▸ (hmem v).2 hv
    rw [mem_layer_iff (nodup_keys_ownLayering wf), value?_of_mem_keys hkey, Option.some.injEq]

end TextDiagram.Graph
