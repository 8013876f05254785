import TextDiagram.Graph.Order
import TextDiagram.Proofs.Graph.Walk
import TextDiagram.Proofs.Traversal
/-!
# Topological order

The queue loop keeps, for every node, the number of edges into it that have not been followed.
`Sound` is what holds of these counts before and after every edge; it says that a node waits or has
been taken exactly when its count is zero.

Main statements:

* `Progress.Sound.follow`, `Progress.Sound.step`, `Progress.Sound.run`: following an edge, taking a
  node and a whole run keep the loop sound.
* `mem_reached_iff_forall`: the queue reaches a node exactly when it reaches all its predecessors.
* `mem_reached_iff`: the queue reaches the nodes that are not behind a cycle.
* `order_meets_specification`: the order of every graph is that of the specification.
-/

namespace TextDiagram.Graph

open Relation

variable {g : Graph}

/-! ## Counting edges -/

/-- The number of edges into a node that have not been followed, when the edges out of `done` have
been, apart from edges to the targets in `todo`. -/
def pending (g : Graph) (done todo : List String) (v : String) : Nat :=
  g.edges.countP (fun e => e.2 == v && !done.contains e.1) + todo.count v

/-- At first a node waits for all edges into it. -/
theorem pending_nil (g : Graph) (v : String) : g.pending [] [] v = g.inDegree v := by
  simp [pending, inDegree, predecessors, List.countP_eq_length_filter]

/-- An edge that is still to be followed is one more edge to wait for. -/
theorem pending_cons (g : Graph) (done todo : List String) (u v : String) :
    g.pending done (u :: todo) v = g.pending done todo v + if u = v then 1 else 0 := by
  simp only [pending, List.count_cons, beq_iff_eq]
  omega

/-- Nothing is left to follow into a node exactly when its predecessors have been taken. -/
theorem pending_eq_zero_iff {done : List String} {v : String} :
    g.pending done [] v = 0 ↔ ∀ u, g.Joins u v → u ∈ done := by
  simp only [pending, List.count_nil, Nat.add_zero, List.countP_eq_zero, Bool.and_eq_true,
    beq_iff_eq, Bool.not_eq_true', List.contains_eq_mem, decide_eq_false_iff_not, not_and,
    not_not, Prod.forall]
  exact ⟨fun h u hjoin => h u v hjoin rfl, fun h u w hjoin hw => h u (hw ▸ hjoin)⟩

/-- How often a name occurs in a list of repeated names. -/
theorem count_flatMap_replicate (k : String → Nat) (v : String) {names : List String}
    (h : names.Nodup) :
    (names.flatMap fun name => List.replicate (k name) name).count v =
      if v ∈ names then k v else 0 := by
  induction names with
  | nil => simp
  | cons name rest ih =>
    rcases List.nodup_cons.1 h with ⟨hnot, hrest⟩
    simp only [List.flatMap_cons, List.count_append, List.count_replicate, ih hrest,
      List.mem_cons, beq_iff_eq]
    -- The name itself is not in the rest of the list.
    by_cases hv : name = v
    · subst hv
      simp [hnot]
    · simp [hv, Ne.symm hv]

/-- Every edge out of a node is followed once. -/
theorem count_outgoing (g : Graph) (u v : String) :
    (g.outgoing u).count v = g.edges.count (u, v) := by
  have hnodup : (g.successors u).Nodup := nodup_firstMentions _
  rw [outgoing, count_flatMap_replicate _ _ hnodup]
  split
  · rfl
  · next h => exact (List.count_eq_zero.2 fun hmem => h (mem_successors.2 hmem)).symm

/-- Taking a node replaces the edges out of it by their targets, one by one. -/
theorem pending_take {done : List String} {u : String} (hu : u ∉ done) (v : String) :
    g.pending (done ++ [u]) (g.outgoing u) v = g.pending done [] v := by
  have key : ∀ edges : List (String × String),
      edges.countP (fun e => e.2 == v && !(done ++ [u]).contains e.1) + edges.count (u, v) =
        edges.countP (fun e => e.2 == v && !done.contains e.1) := by
    intro edges
    induction edges with
    | nil => simp
    | cons e rest ih =>
      -- Only an edge from the node to `v` moves from the first count to the second.
      rcases e with ⟨a, b⟩
      simp only [List.countP_cons, List.count_cons, ← ih]
      by_cases ha : a = u
      · by_cases hb : b = v
        · subst ha hb
          simp [hu]
          omega
        · simp [hb]
      · simp [ha]
        omega
  simp only [pending, count_outgoing, List.count_nil, Nat.add_zero]
  exact key g.edges

/-! ## The loop -/

/-- Every predecessor of a listed node is listed before it. -/
def PredecessorsFirst (g : Graph) (names : List String) : Prop :=
  ∀ before v after, names = before ++ v :: after → ∀ u, g.Joins u v → u ∈ before

/-- A node may come next once its predecessors are there. -/
theorem PredecessorsFirst.snoc {names : List String} {v : String} (h : g.PredecessorsFirst names)
    (hv : ∀ u, g.Joins u v → u ∈ names) : g.PredecessorsFirst (names ++ [v]) := by
  intro before w after heq u hjoin
  rcases List.eq_nil_or_concat after with rfl | ⟨after', z, rfl⟩
  · -- The new node itself.
    rcases List.append_inj' heq rfl with ⟨rfl, hw⟩
    obtain rfl : v = w := by simpa using hw
    exact hv u hjoin
  · have heq' : names ++ [v] = (before ++ w :: after') ++ [z] := by simpa using heq
    exact h before w after' (List.append_inj' heq' rfl).1 u hjoin

namespace Progress

/-- The loop is in order while the edges to some targets are still to be followed. -/
structure Sound (g : Graph) (todo : List String) (p : Progress) : Prop where
  nodup : (p.done ++ p.queue).Nodup
  counts : ∀ v ∈ g.nodes, Keyed.value? p.counts v = some (g.pending p.done todo v)
  mem_iff : ∀ v, v ∈ p.done ++ p.queue ↔ v ∈ g.nodes ∧ g.pending p.done todo v = 0
  ordered : g.PredecessorsFirst p.done

/-- The invariant holds before the first node is taken. -/
theorem sound_initial (wf : g.WellFormed) : Sound g [] (initial g) where
  nodup := by
    simp only [initial, List.nil_append]
    exact (perm_sortedNames _).nodup_iff.2 (wf.nodup.filter _)
  counts v hv := by
    have hkeys : (Keyed.keys (initial g).counts).Nodup := by
      simpa [initial, Keyed.keys, Keyed.key, Function.comp_def] using wf.nodup
    rw [Keyed.value?_eq_some_iff hkeys]
    simpa [initial, pending_nil] using hv
  mem_iff v := by
    simp [initial, mem_sortedNames, pending_nil]
  ordered before v after h := by simp [initial] at h

/-- Following an edge uses up one occurrence of its target. -/
theorem Sound.follow {v : String} {todo : List String} {p : Progress}
    (h : Sound g (v :: todo) p) (hv : v ∈ g.nodes) : Sound g todo (p.follow v) := by
  have hleft : (Keyed.value? p.counts v).getD 0 - 1 = g.pending p.done todo v := by
    rw [h.counts v hv, pending_cons]
    simp
  -- An edge into the node was left, so the node does not wait yet.
  have hnew : v ∉ p.done ++ p.queue := by
    intro hmem
    have hzero := ((h.mem_iff v).1 hmem).2
    rw [pending_cons, if_pos rfl] at hzero
    omega
  have hother : ∀ w, w ≠ v → g.pending p.done (v :: todo) w = g.pending p.done todo w := by
    intro w hw
    rw [pending_cons, if_neg hw.symm, Nat.add_zero]
  refine ⟨?_, ?_, ?_, h.ordered⟩
  · simp only [Progress.follow]
    split
    · rw [← List.append_assoc, List.nodup_append]
      refine ⟨h.nodup, by simp, ?_⟩
      intro a ha b hb hab
      simp only [List.mem_singleton] at hb
      exact hnew (hb ▸ hab ▸ ha)
    · exact h.nodup
  · intro w hw
    simp only [Progress.follow, hleft]
    by_cases hwv : w = v
    · -- Only the count of the target has changed.
      rw [hwv, Keyed.value?_put_self]
    · rw [Keyed.value?_put_of_ne hwv, h.counts w hw, hother w hwv]
  · intro w
    have hmem := h.mem_iff w
    simp only [Progress.follow, hleft]
    by_cases hwv : w = v
    · subst hwv
      split
      · -- The target waits exactly if this was the last edge into it.
        next hzero => simp [hzero, hv]
      · next hzero => simp [hzero, hnew]
    · rw [hother w hwv] at hmem
      split
      · simpa [hwv] using hmem
      · exact hmem

/-- Following all edges that are still to be followed. -/
theorem Sound.followAll {todo : List String} {p : Progress} (h : Sound g todo p)
    (hnodes : ∀ v ∈ todo, v ∈ g.nodes) : Sound g [] (todo.foldl Progress.follow p) := by
  induction todo generalizing p with
  | nil => exact h
  | cons v todo ih =>
    exact ih (h.follow (hnodes v List.mem_cons_self)) fun w hw =>
      hnodes w (List.mem_cons_of_mem v hw)

/-- Following edges takes no node. -/
theorem done_foldl_follow (todo : List String) (p : Progress) :
    (todo.foldl follow p).done = p.done := by
  induction todo generalizing p with
  | nil => rfl
  | cons v todo ih => exact ih (p.follow v)

/-- A step takes the node at the head of the queue. -/
theorem done_step {p : Progress} {node : String} {queue : List String}
    (h : p.queue = node :: queue) : (p.step g).done = p.done ++ [node] := by
  simp only [step, h, done_foldl_follow]

/-- With an empty queue there is nothing to do. -/
theorem step_of_queue_nil {p : Progress} (h : p.queue = []) : p.step g = p := by
  simp only [step, h]

/-- Taking the first node of the queue: all its predecessors have been taken. -/
theorem Sound.take {p : Progress} {node : String} {queue : List String} (h : Sound g [] p)
    (hqueue : p.queue = node :: queue) :
    Sound g (g.outgoing node) { p with queue := queue, done := p.done ++ [node] } := by
  have hlist : p.done ++ [node] ++ queue = p.done ++ p.queue := by simp [hqueue]
  have hnode : node ∉ p.done := by
    have hnodup := h.nodup
    rw [hqueue] at hnodup
    exact notMem_before hnodup
  have hready : g.pending p.done [] node = 0 :=
    ((h.mem_iff node).1 (by simp [hqueue])).2
  refine ⟨?_, ?_, ?_, ?_⟩
  · simpa only [hlist] using h.nodup
  · intro v hv
    simpa only [pending_take hnode] using h.counts v hv
  · intro v
    simpa only [hlist, pending_take hnode] using h.mem_iff v
  · exact h.ordered.snoc (pending_eq_zero_iff.1 hready)

/-- Each step keeps the invariant. -/
theorem Sound.step (wf : g.WellFormed) {p : Progress} (h : Sound g [] p) :
    Sound g [] (p.step g) := by
  cases hqueue : p.queue with
  | nil => rwa [step_of_queue_nil hqueue]
  | cons node queue =>
    simp only [Progress.step, hqueue]
    refine (h.take hqueue).followAll fun v hv => ?_
    -- Only targets of edges are followed.
    have hcount := List.count_pos_iff.2 hv
    rw [count_outgoing] at hcount
    exact wf.target_mem node v (List.count_pos_iff.1 hcount)

/-- So does any number of steps. -/
theorem Sound.run (wf : g.WellFormed) (n : Nat) {p : Progress} (h : Sound g [] p) :
    Sound g [] (Progress.run g n p) := by
  induction n generalizing p with
  | zero => exact h
  | succ n ih => exact ih (h.step wf)

/-- Taken and waiting nodes together are no more than all nodes. -/
theorem Sound.length_le {p : Progress} (h : Sound g [] p) :
    p.done.length + p.queue.length ≤ g.nodes.length := by
  have hsub : p.done ++ p.queue ⊆ g.nodes := fun v hv => ((h.mem_iff v).1 hv).1
  simpa using (h.nodup.subperm hsub).length_le

/-- As many steps as there are nodes that have not been taken empty the queue. -/
theorem queue_run (wf : g.WellFormed) {n : Nat} {p : Progress} (h : Sound g [] p)
    (hn : g.nodes.length ≤ p.done.length + n) : (run g n p).queue = [] := by
  induction n generalizing p with
  | zero =>
    have hle := h.length_le
    exact List.eq_nil_of_length_eq_zero (by simp only [run]; omega)
  | succ n ih =>
    cases hqueue : p.queue with
    | nil =>
      -- Once the queue is empty the loop stands still.
      have hstay : ∀ m, run g m p = p := by
        intro m
        induction m with
        | zero => rfl
        | succ m ih => rw [run, step_of_queue_nil hqueue, ih]
      rw [hstay, hqueue]
    | cons node queue =>
      refine ih (h.step wf) ?_
      rw [done_step hqueue]
      simp only [List.length_append, List.length_singleton]
      omega

end Progress

/-! ## The nodes that the queue reaches -/

/-- The invariant holds at the end. -/
theorem sound_reached (wf : g.WellFormed) :
    Progress.Sound g [] (Progress.run g g.nodes.length (Progress.initial g)) :=
  (Progress.sound_initial wf).run wf _

/-- A node is reached exactly if all its predecessors are. -/
theorem mem_reached_iff_forall (wf : g.WellFormed) {v : String} :
    v ∈ g.reached ↔ v ∈ g.nodes ∧ ∀ u, g.Joins u v → u ∈ g.reached := by
  -- Nobody waits at the end, so a node has been taken exactly when its count is zero.
  have hqueue := Progress.queue_run wf (Progress.sound_initial wf) (Nat.le_add_left _ _)
  have hmem := (sound_reached wf).mem_iff v
  rw [hqueue, List.append_nil, pending_eq_zero_iff] at hmem
  exact hmem

/-- No node is reached twice. -/
theorem nodup_reached (wf : g.WellFormed) : g.reached.Nodup :=
  (List.nodup_append.1 (sound_reached wf).nodup).1

/-- Edges lead on to later nodes among those that are reached. -/
theorem idxOf_lt_of_joins (wf : g.WellFormed) {u v : String} (hjoin : g.Joins u v)
    (hv : v ∈ g.reached) : g.reached.idxOf u < g.reached.idxOf v := by
  rcases List.append_of_mem hv with ⟨before, after, heq⟩
  have hu : u ∈ before := (sound_reached wf).ordered before v after heq u hjoin
  have hv' : v ∉ before := notMem_before (heq ▸ nodup_reached wf)
  rw [heq, List.idxOf_append_of_mem hu, List.idxOf_append_of_notMem hv']
  have := List.idxOf_lt_length_of_mem hu
  omega

/-- What leads to a node that is reached is reached. -/
theorem mem_reached_of_reflTransGen (wf : g.WellFormed) {u v : String}
    (h : ReflTransGen g.Joins u v) (hv : v ∈ g.reached) : u ∈ g.reached := by
  induction h using ReflTransGen.head_induction_on with
  | refl => exact hv
  | head hjoin _ ih => exact ((mem_reached_iff_forall wf).1 ih).2 _ hjoin

/-- Walks lead on to later nodes among those that are reached. -/
theorem idxOf_lt_of_transGen (wf : g.WellFormed) {u v : String} (h : TransGen g.Joins u v)
    (hv : v ∈ g.reached) : g.reached.idxOf u < g.reached.idxOf v := by
  induction h with
  | single hjoin => exact idxOf_lt_of_joins wf hjoin hv
  | tail _ hjoin ih =>
    have hmid := ((mem_reached_iff_forall wf).1 hv).2 _ hjoin
    exact (ih hmid).trans (idxOf_lt_of_joins wf hjoin hv)

/-- The queue reaches exactly the nodes that no cycle leads to. -/
theorem mem_reached_iff (wf : g.WellFormed) {v : String} :
    v ∈ g.reached ↔ v ∈ g.nodes ∧ ¬g.BehindCycle v := by
  constructor
  · intro hv
    refine ⟨((mem_reached_iff_forall wf).1 hv).1, ?_⟩
    -- A node on a cycle would have to be taken before itself.
    rintro ⟨c, hcycle, hreach⟩
    exact Nat.lt_irrefl _
      (idxOf_lt_of_transGen wf hcycle (mem_reached_of_reflTransGen wf hreach hv))
  · rintro ⟨hv, hcycle⟩
    refine induction_of_not_behindCycle wf (fun w hw ih => ?_) hv hcycle
    exact (mem_reached_iff_forall wf).2 ⟨hw, ih⟩

/-! ## The order of all nodes -/

/-- The other nodes of a graph. -/
theorem mem_others {names : List String} {v : String} :
    v ∈ g.others names ↔ v ∈ g.nodes ∧ v ∉ names := by
  simp [others, mem_sortedNames]

/-- The order lists all nodes of the graph once. -/
theorem perm_order (wf : g.WellFormed) : g.order.Perm g.nodes := by
  have hnodup : g.order.Nodup := by
    refine List.nodup_append.2 ⟨nodup_reached wf, ?_, ?_⟩
    · exact (perm_sortedNames _).nodup_iff.2 (wf.nodup.filter _)
    · intro a ha b hb hab
      exact (mem_others.1 hb).2 (hab ▸ ha)
  -- Neither list repeats a name, so having the same names is enough.
  refine (List.perm_ext_iff_of_nodup hnodup wf.nodup).2 fun v => ?_
  simp only [order, List.mem_append, mem_others]
  have hsub : v ∈ g.reached → v ∈ g.nodes := fun hv => ((mem_reached_iff_forall wf).1 hv).1
  tauto

/-- No node is listed twice. -/
theorem nodup_order (wf : g.WellFormed) : g.order.Nodup := (perm_order wf).nodup_iff.2 wf.nodup

/-- Nodes that are not reached are listed by name. -/
theorem pairwise_lt_others (wf : g.WellFormed) (names : List String) :
    (g.others names).Pairwise (· < ·) :=
  pairwise_lt_sortedNames (wf.nodup.filter _)

/-- The order of the nodes of any graph: every node once, first the nodes that no cycle leads to,
each after its predecessors, then the others by code point. -/
theorem order_meets_specification (names : List String) (edges : List (String × String)) :
    ((ofEdges names edges).order.Nodup ∧
      ∀ v, v ∈ (ofEdges names edges).order ↔ v ∈ names ∨ ∃ e ∈ edges, v = e.1 ∨ v = e.2) ∧
    (∀ v ∈ (ofEdges names edges).order,
      v ∈ (ofEdges names edges).reached ↔ ¬(ofEdges names edges).BehindCycle v) ∧
    (∀ u v, (u, v) ∈ edges → v ∈ (ofEdges names edges).reached →
      u ∈ (ofEdges names edges).reached ∧
        (ofEdges names edges).order.idxOf u < (ofEdges names edges).order.idxOf v) ∧
    ∃ rest, (ofEdges names edges).order = (ofEdges names edges).reached ++ rest ∧
      rest.Pairwise (· < ·) := by
  have wf : (ofEdges names edges).WellFormed := wellFormed_ofEdges names edges
  have hmem : ∀ v, v ∈ (ofEdges names edges).order ↔ v ∈ (ofEdges names edges).nodes :=
    fun v => (perm_order wf).mem_iff
  refine ⟨⟨nodup_order wf, fun v => (hmem v).trans mem_nodes_ofEdges⟩, ?_, ?_, ?_⟩
  · intro v hv
    have hnode := (hmem v).1 hv
    exact (mem_reached_iff wf).trans ⟨And.right, fun h => ⟨hnode, h⟩⟩
  · intro u v hjoin hv
    -- The source is reached before its target, and the reached nodes come first in the order.
    have hu := ((mem_reached_iff_forall wf).1 hv).2 u hjoin
    refine ⟨hu, ?_⟩
    rw [order, List.idxOf_append_of_mem hu, List.idxOf_append_of_mem hv]
    exact idxOf_lt_of_joins wf hjoin hv
  · exact ⟨_, rfl, pairwise_lt_others wf _⟩

end TextDiagram.Graph
