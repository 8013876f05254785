import TextDiagram.Graph.Basic
/-!
# Topological order

Every node has a count of the edges into it that have not been followed. The nodes whose count is
zero at the start form a queue in sorted order. The first node of the queue is taken and the edges
out of it are followed; a node whose last edge has been followed joins the end of the queue. Nodes
that a cycle keeps out of the queue follow at the end in sorted order.
-/

namespace TextDiagram.Graph

/-- The number of edges into a node. -/
def inDegree (g : Graph) (node : String) : Nat := (g.predecessors node).length

/-- The targets of the edges out of a node, one for each edge. The edges out of a node are assumed to be
iterated over target by target, in the order of the first edge to each, so that parallel edges come one
after the other, at the place of the first of them. -/
def outgoing (g : Graph) (node : String) : List String :=
  (g.successors node).flatMap fun target => List.replicate (g.edges.count (node, target)) target

/-- The nodes that wait to be taken and those that have been, both in order, and for every node the
number of edges into it that have not been followed. -/
structure Progress where
  queue : List String
  done : List String
  counts : List (String × Nat)
  deriving DecidableEq, Repr

namespace Progress

/-- The start: the nodes without edges into them wait, in sorted order. -/
def initial (g : Graph) : Progress where
  queue := sortedNames (g.nodes.filter fun node => g.inDegree node == 0)
  done := []
  counts := g.nodes.map fun node => (node, g.inDegree node)

/-- Follows one edge to its target, which joins the queue if no other edge into it is left. -/
def follow (p : Progress) (target : String) : Progress :=
  let left := (Keyed.value? p.counts target).getD 0 - 1
  { p with
    queue := if left = 0 then p.queue ++ [target] else p.queue
    counts := Keyed.put (target, left) p.counts }

/-- Takes the first node of the queue and follows the edges out of it. -/
def step (g : Graph) (p : Progress) : Progress :=
  match p.queue with
  | [] => p
  | node :: queue =>
    (g.outgoing node).foldl follow { p with queue := queue, done := p.done ++ [node] }

/-- Takes nodes from the queue, at most as many as given. -/
def run (g : Graph) : Nat → Progress → Progress
  | 0, p => p
  | n + 1, p => run g n (p.step g)

end Progress

/-- The nodes that the queue reaches, in the order in which they are taken. Every node joins the
queue at most once, so as many steps as there are nodes are enough. -/
def reached (g : Graph) : List String :=
  (Progress.run g g.nodes.length (Progress.initial g)).done

/-- The nodes that are not among the given ones, in sorted order. -/
def others (g : Graph) (names : List String) : List String :=
  sortedNames (g.nodes.filter fun node => !names.contains node)

/-- Every node once: first those the queue reaches, then the others. -/
def order (g : Graph) : List String :=
  let reached := g.reached
  reached ++ g.others reached

end TextDiagram.Graph
