import Mathlib.Data.Fintype.Card
import Mathlib.Data.Set.Finite.Basic
import Mathlib.Logic.Relation
import TextDiagram.Graph.Basic
/-!
# Walks and cycles

What order and layers are measured against: edges as a relation, nodes behind a directed cycle and
walks with their number of edges.

Main statements:

* `wellFormed_ofEdges`: a graph that is built from edges holds every node once and the ends of all
  edges.
* `induction_of_not_behindCycle`: a node with no cycle before it satisfies whatever passes from the
  predecessors of a node to the node.
-/

namespace TextDiagram.Graph

open Relation

/-- An edge leads from the first node to the second. -/
def Joins (g : Graph) (u v : String) : Prop := (u, v) ∈ g.edges

instance (g : Graph) (u v : String) : Decidable (g.Joins u v) :=
  inferInstanceAs (Decidable ((u, v) ∈ g.edges))

/-- The node can be reached from a directed cycle. A node on a cycle can; a loop is a cycle. -/
def BehindCycle (g : Graph) (v : String) : Prop :=
  ∃ c, TransGen g.Joins c c ∧ ReflTransGen g.Joins c v

/-- Some walk of the given number of edges ends at the node. -/
inductive WalkTo (g : Graph) : Nat → String → Prop where
  | start {v : String} (node : v ∈ g.nodes) : WalkTo g 0 v
  | step {n : Nat} {u v : String} (walk : WalkTo g n u) (edge : g.Joins u v) : WalkTo g (n + 1) v

/-- Every node is held once, and the ends of edges are nodes. -/
structure WellFormed (g : Graph) : Prop where
  nodup : g.nodes.Nodup
  source_mem : ∀ u v, g.Joins u v → u ∈ g.nodes
  target_mem : ∀ u v, g.Joins u v → v ∈ g.nodes

theorem mem_nodes_ofEdges {names : List String} {edges : List (String × String)} {v : String} :
    v ∈ (ofEdges names edges).nodes ↔ v ∈ names ∨ ∃ e ∈ edges, v = e.1 ∨ v = e.2 := by
  simp only [ofEdges, mem_firstMentions, List.mem_append, List.mem_flatMap, List.mem_cons,
    List.not_mem_nil, or_false]

theorem wellFormed_ofEdges (names : List String) (edges : List (String × String)) :
    (ofEdges names edges).WellFormed where
  nodup := nodup_firstMentions _
  source_mem u v h := mem_nodes_ofEdges.2 (Or.inr ⟨(u, v), h, Or.inl rfl⟩)
  target_mem u v h := mem_nodes_ofEdges.2 (Or.inr ⟨(u, v), h, Or.inr rfl⟩)

variable {g : Graph}

theorem WellFormed.mem_of_reflTransGen (wf : g.WellFormed) {u v : String} (hv : v ∈ g.nodes)
    (h : ReflTransGen g.Joins u v) : u ∈ g.nodes := by
  induction h using ReflTransGen.head_induction_on with
  | refl => exact hv
  | head hjoin _ _ => exact wf.source_mem _ _ hjoin

/-- Without a cycle before a node, the nodes that lead to it are well-founded along the edges: there
are finitely many and none leads back to itself. -/
theorem wellFounded_before {v : String} (wf : g.WellFormed) (hv : v ∈ g.nodes)
    (h : ¬g.BehindCycle v) :
    WellFounded fun a b : {u // ReflTransGen g.Joins u v} => TransGen g.Joins a.1 b.1 := by
  have finite : Finite {u // ReflTransGen g.Joins u v} := by
    have hsub : {u | ReflTransGen g.Joins u v} ⊆ {u | u ∈ g.nodes} := fun _ hu =>
      wf.mem_of_reflTransGen hv hu
    exact ((List.finite_toSet g.nodes).subset hsub).to_subtype
  -- A node that leads back to itself would be a cycle before `v`.
  have irrefl : Std.Irrefl fun a b : {u // ReflTransGen g.Joins u v} =>
      TransGen g.Joins a.1 b.1 := ⟨fun a ha => h ⟨a.1, ha, a.2⟩⟩
  have trans : IsTrans {u // ReflTransGen g.Joins u v} fun a b => TransGen g.Joins a.1 b.1 :=
    ⟨fun _ _ _ hab hbc => hab.trans hbc⟩
  exact Finite.wellFounded_of_trans_of_irrefl _

/-- Induction along the edges up to a node with no cycle before it. -/
theorem induction_of_not_behindCycle {P : String → Prop} (wf : g.WellFormed)
    (step : ∀ v ∈ g.nodes, (∀ u, g.Joins u v → P u) → P v) {v : String} (hv : v ∈ g.nodes)
    (h : ¬g.BehindCycle v) : P v := by
  -- The claim is proved for all nodes that lead to `v`, of which `v` is one.
  have key : ∀ a : {u // ReflTransGen g.Joins u v}, P a.1 := by
    intro a
    induction a using (wellFounded_before wf hv h).induction with
    | _ a ih =>
      refine step a.1 (wf.mem_of_reflTransGen hv a.2) fun u hu => ?_
      exact ih ⟨u, ReflTransGen.head hu a.2⟩ (TransGen.single hu)
  exact key ⟨v, ReflTransGen.refl⟩

end TextDiagram.Graph
