import TextDiagram.Placement
import TextDiagram.Proofs.Geometry.Boundary
import TextDiagram.Proofs.Graph.Layering
import TextDiagram.Proofs.Traversal
/-!
# Placed graphs

A node stands in the cell of its layer and of its position there. No node of the graph is lost: the
placed nodes carry the names of the nodes of the graph, each once.

Main statements:

* `mem_nodes_place_iff`: which nodes are placed and where.
* `perm_names_place`: the names of the placed nodes are the nodes of the graph.
* `exists_frame`, `exists_layer`: what is found under the name of a node.
* `valid_of_mem_frames`: in exact arithmetic the sides of frames are in order.
-/

namespace TextDiagram

open TextDiagram.Graph

namespace CellGrid

variable {α : Type} [Scalar α] (grid : CellGrid α) (names : List String)
  (edges : List (String × String)) (sizes : List (String × Size α))

/-- The size of a node: its own, or that of a cell. -/
def nodeSize (name : String) : Size α := (Keyed.value? sizes name).getD grid.cell

omit [Scalar α] in
@[simp] theorem nodeSize_nil (name : String) : grid.nodeSize [] name = grid.cell := rfl

theorem layers_place :
    (grid.place names edges sizes).layers =
      layers (ofEdges names edges).ownLayering := rfl

theorem names_placeLayer (layerCount layer : Nat) (row : List String) :
    (grid.placeLayer sizes layerCount layer row).map (·.name) = row :=
  map_mapIdx_eq_self (fun _ _ => rfl) row

/-- A node is placed exactly where its name stands in the layers, in the middle of that cell. -/
theorem mem_nodes_place_iff {node : PlacedNode α} :
    node ∈ (grid.place names edges sizes).nodes ↔
      ∃ row, (grid.place names edges sizes).layers[node.layer]? = some row ∧
        row[node.position]? = some node.name ∧
        node.frame = grid.frame (grid.place names edges sizes).layers.length node.layer
          node.position (grid.nodeSize sizes node.name) := by
  simp only [place, List.mem_flatten, List.mem_mapIdx]
  constructor
  · -- The node was made in a row, at the position of its name.
    rintro ⟨_, ⟨layer, hlayer, rfl⟩, hnode⟩
    rcases List.mem_mapIdx.1 hnode with ⟨position, hposition, rfl⟩
    exact ⟨_, List.getElem?_eq_getElem hlayer, List.getElem?_eq_getElem hposition, rfl⟩
  · -- What stands there is made into a node with just these parts.
    rintro ⟨row, hrow, hname, hframe⟩
    rcases List.getElem?_eq_some_iff.1 hrow with ⟨hlayer, rfl⟩
    rcases List.getElem?_eq_some_iff.1 hname with ⟨hposition, hname⟩
    refine ⟨_, ⟨node.layer, hlayer, rfl⟩, List.mem_mapIdx.2 ⟨node.position, hposition, ?_⟩⟩
    rcases node with ⟨name, layer, position, frame⟩
    simp only at hname hframe ⊢
    rw [hname, hframe]
    rfl

theorem names_place :
    (grid.place names edges sizes).nodes.map (·.name) =
      (grid.place names edges sizes).layers.flatten := by
  simp only [place, List.map_flatten]
  congr 1
  -- Row by row the names are those of the layer.
  exact map_mapIdx_eq_self (fun layer row => grid.names_placeLayer sizes _ layer row) _

/-- Every node of the graph is placed once, and nothing else is. -/
theorem perm_names_place :
    ((grid.place names edges sizes).nodes.map (·.name)).Perm (ofEdges names edges).nodes := by
  rw [names_place, layers_place]
  exact perm_layers (wellFormed_ofEdges names edges)

theorem mem_names_place {name : String} :
    name ∈ (grid.place names edges sizes).nodes.map (·.name) ↔
      name ∈ names ∨ ∃ e ∈ edges, name = e.1 ∨ name = e.2 :=
  (perm_names_place grid names edges sizes).mem_iff.trans mem_nodes_ofEdges

end CellGrid

namespace Placement

variable {α : Type}

theorem keys_frames (p : Placement α) : Keyed.keys p.frames = p.nodes.map (·.name) := by
  simp [frames, Keyed.keys, Keyed.key, Function.comp_def]

/-- The layers of the placed nodes under their names. -/
def layerNumbers (p : Placement α) : List (String × Nat) :=
  p.nodes.map fun node => (node.name, node.layer)

theorem keys_layerNumbers (p : Placement α) :
    Keyed.keys p.layerNumbers = p.nodes.map (·.name) := by
  simp [layerNumbers, Keyed.keys, Keyed.key, Function.comp_def]

end Placement

namespace CellGrid

variable {α : Type} [Scalar α] {grid : CellGrid α} {names : List String}
  {edges : List (String × String)} {sizes : List (String × Size α)} {name : String}

/-- A node that was to be placed has a frame under its name. -/
theorem exists_frame (h : name ∈ names) :
    ∃ frame, Keyed.value? (grid.place names edges sizes).frames name = some frame := by
  rw [Keyed.exists_value?_iff, Placement.keys_frames]
  exact (mem_names_place ..).2 (Or.inl h)

/-- And it has a layer. -/
theorem exists_layer (h : name ∈ names) :
    ∃ layer, Keyed.value? (grid.place names edges sizes).layerNumbers name = some layer := by
  rw [Keyed.exists_value?_iff, Placement.keys_layerNumbers]
  exact (mem_names_place ..).2 (Or.inl h)

end CellGrid

/-- In exact arithmetic the sides of all frames are in order if no size is negative. -/
theorem CellGrid.valid_of_mem_frames {grid : CellGrid Rat} {names : List String}
    {edges : List (String × String)} {sizes : List (String × Size Rat)}
    (hsizes : ∀ name, 0 ≤ (grid.nodeSize sizes name).width ∧ 0 ≤ (grid.nodeSize sizes name).height)
    {name : String} {frame : Rect Rat}
    (h : (name, frame) ∈ (grid.place names edges sizes).frames) : frame.Valid := by
  rcases List.mem_map.1 h with ⟨node, hnode, heq⟩
  rcases (mem_nodes_place_iff grid names edges sizes).1 hnode with ⟨row, -, -, hframe⟩
  rcases Prod.mk.inj heq with ⟨-, rfl⟩
  rw [hframe]
  exact Rect.valid_ofSize _ _ (hsizes _).1 (hsizes _).2

end TextDiagram
