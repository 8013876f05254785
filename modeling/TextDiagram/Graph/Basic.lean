import TextDiagram.Keyed
import TextDiagram.Sorted
/-!
# Graphs of named nodes

A graph holds every node once, in the order of first mention, and every edge as often as it was
given. It stands for a multigraph of a graph library, of which three things are assumed, as its
documentation has them: nodes are kept in the order in which they were first added, be it by
themselves or as the end of an edge; the edges into a node are counted with their multiplicity; and the
successors of a node are visited once each, in the order in which an edge to them was first added.

Main statements: `nodup_firstMentions`, `mem_firstMentions`.
-/

namespace TextDiagram

/-- The names of a list without repetition, each at its first place. -/
def firstMentions : List String → List String
  | [] => []
  | name :: rest => name :: (firstMentions rest).filter (· != name)

/-- A directed graph; edges may be parallel and may be loops. -/
structure Graph where
  nodes : List String
  edges : List (String × String)
  deriving DecidableEq, Repr, Inhabited

namespace Graph

/-- The graph of some names and edges. The ends of the edges are nodes as well. Nodes are assumed to be
iterated over in the order in which they were added: first the names, then the ends of the edges. -/
def ofEdges (names : List String) (edges : List (String × String)) : Graph where
  nodes := firstMentions (names ++ edges.flatMap fun edge => [edge.1, edge.2])
  edges := edges

/-- The sources of the edges into a node, one for each edge: parallel edges are assumed to count as many
times as they were added. -/
def predecessors (g : Graph) (node : String) : List String :=
  (g.edges.filter (·.2 == node)).map (·.1)

/-- The targets of the edges out of a node, in the order of the first edge to each: parallel edges are
assumed to be visited as one, at the place of the first of them. -/
def successors (g : Graph) (node : String) : List String :=
  firstMentions ((g.edges.filter (·.1 == node)).map (·.2))

end Graph

/-! ## Elementary facts -/

theorem mem_firstMentions {name : String} {names : List String} :
    name ∈ firstMentions names ↔ name ∈ names := by
  induction names with
  | nil => simp [firstMentions]
  | cons a rest ih =>
    simp only [firstMentions, List.mem_cons, List.mem_filter, ih, bne_iff_ne, ne_eq]
    by_cases h : name = a <;> simp [h]

theorem nodup_firstMentions (names : List String) : (firstMentions names).Nodup := by
  induction names with
  | nil => simp [firstMentions]
  | cons a rest ih =>
    simp only [firstMentions, List.nodup_cons, List.mem_filter, bne_self_eq_false,
      Bool.false_eq_true, and_false, not_false_eq_true, true_and]
    exact List.Pairwise.filter _ ih

theorem Graph.mem_predecessors {g : Graph} {u v : String} :
    u ∈ g.predecessors v ↔ (u, v) ∈ g.edges := by
  simp only [predecessors, List.mem_map, List.mem_filter, beq_iff_eq, Prod.exists]
  constructor
  · rintro ⟨a, b, ⟨hab, rfl⟩, rfl⟩; exact hab
  · intro h; exact ⟨u, v, ⟨h, rfl⟩, rfl⟩

theorem Graph.mem_successors {g : Graph} {u v : String} :
    v ∈ g.successors u ↔ (u, v) ∈ g.edges := by
  simp only [successors, mem_firstMentions, List.mem_map, List.mem_filter, beq_iff_eq,
    Prod.exists]
  constructor
  · rintro ⟨a, b, ⟨hab, rfl⟩, rfl⟩; exact hab
  · intro h; exact ⟨u, v, ⟨h, rfl⟩, rfl⟩

end TextDiagram
