import TextDiagram.Graph.Basic
/-!
# Layers

Nodes are put on layers one after the other: one layer below the deepest predecessor that has a
layer already, and on the first layer when no predecessor has one.
-/

namespace TextDiagram.Graph

/-- The layers of the nodes that have one, in the order in which they were given. -/
abbrev Layering := List (String × Nat)

/-- One more than the largest of some layers; zero when there is none. -/
def depth (layers : List Nat) : Nat := (layers.map (· + 1)).foldl max 0

/-- Puts one node on its layer. -/
def assign (g : Graph) (known : Layering) (node : String) : Layering :=
  Keyed.put (node, depth ((g.predecessors node).filterMap (Keyed.value? known))) known

/-- Puts nodes on their layers in the given order. -/
def layering (g : Graph) (order : List String) : Layering := order.foldl g.assign []

/-- The names on each layer, sorted, from the first layer to the last. -/
def layers (known : Layering) : List (List String) :=
  (List.range (depth (known.map (·.2)))).map fun layer =>
    sortedNames ((known.filter (·.2 == layer)).map (·.1))

/-- The layer of a node; the first layer for a node without one. -/
def layerOf (known : Layering) (node : String) : Nat := (Keyed.value? known node).getD 0

end TextDiagram.Graph
