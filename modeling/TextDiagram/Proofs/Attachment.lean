import TextDiagram.Layout
import TextDiagram.Proofs.Geometry.Boundary
import TextDiagram.Proofs.Integrity
import TextDiagram.Proofs.Traversal
/-!
# Relations and the entities they are tied to

A placed diagram gives each entity an outline under its name: a frame, or a lifeline in a sequence
diagram. The way of a relation ties two names together. `Attached` says that it starts on the
outline of its own source and stops on the outline of its own target.

Two things are meant by lying on an outline. `Outline.Holds` makes sense for all numbers: the point
is the middle of a side, or has the abscissa of the lifeline. `Outline.Touches` is about exact
arithmetic: the point lies on the boundary, or on the lifeline between its two ends.

Main statements:

* `Attached.mono`: ways that are attached in one sense are attached in a weaker one.
* `Framed.holds`, `Framed.touches`: relations between frames that were looked up are attached.
* `placeBy_eq_ok_iff`: an entry that is placed by two look-ups.
* `Linked.exists_placedBy`: looking up the ends of relations does not fail.
* `box_of_placedBy`, `between_of_placedBy`, `connects_of_placedBy`: what the placed entries are tied to.
-/

namespace TextDiagram

/-! ## Outlines and links -/

/-- The part of a placed entity that relations are tied to. -/
inductive Outline (α : Type) where
  | box (frame : Rect α)
  | lifeline (x top bottom : α)

namespace Outline

/-- The middles of the sides of a frame, the points that have the abscissa of a lifeline. -/
def Holds {α : Type} [Scalar α] : Outline α → Point α → Prop
  | box frame, p => p ∈ frame.sideMiddles
  | lifeline x _ _, p => p.x = x

/-- The points of the boundary of a frame, the points of a lifeline. -/
def Touches : Outline Rat → Point Rat → Prop
  | box frame, p => frame.OnBoundary p
  | lifeline x top bottom, p => p.x = x ∧ top ≤ p.y ∧ p.y ≤ bottom

end Outline

/-- The two names that a relation ties together, with the two ends of its way. -/
structure Link (α : Type) where
  source : String
  target : String
  ends : Segment α

/-- Names tell outlines apart, and every link starts on the outline of its source and stops on the
outline of its target. -/
structure Attached {α : Type} (on : Outline α → Point α → Prop)
    (outlines : List (String × Outline α)) (links : List (Link α)) : Prop where
  nodup : (Keyed.keys outlines).Nodup
  start : ∀ link ∈ links, ∃ o, (link.source, o) ∈ outlines ∧ on o link.ends.start
  stop : ∀ link ∈ links, ∃ o, (link.target, o) ∈ outlines ∧ on o link.ends.stop

theorem Attached.nil {α : Type} {on : Outline α → Point α → Prop} : Attached on [] [] :=
  ⟨.nil, by simp, by simp⟩

theorem Attached.mono {α : Type} {on on' : Outline α → Point α → Prop}
    {outlines : List (String × Outline α)} {links : List (Link α)} (h : Attached on outlines links)
    (himp : ∀ name o p, (name, o) ∈ outlines → on o p → on' o p) :
    Attached on' outlines links := by
  refine ⟨h.nodup, fun link hlink => ?_, fun link hlink => ?_⟩
  · rcases h.start link hlink with ⟨o, ho, hon⟩
    exact ⟨o, ho, himp _ o _ ho hon⟩
  · rcases h.stop link hlink with ⟨o, ho, hon⟩
    exact ⟨o, ho, himp _ o _ ho hon⟩

/-! ## Frames that are looked up -/

/-- A link runs between sides of the frames that are looked up under its two names. -/
def Link.Between {α : Type} [Scalar α] (frames : List (String × Rect α)) (link : Link α) : Prop :=
  ∃ source target, Keyed.value? frames link.source = some source ∧
    Keyed.value? frames link.target = some target ∧
    link.ends.start ∈ source.sideMiddles ∧ link.ends.stop ∈ target.sideMiddles

/-- A link is the connector of the frames that are looked up under its two names. -/
def Link.Connects {α : Type} [Scalar α] (frames : List (String × Rect α)) (link : Link α) : Prop :=
  ∃ source target, Keyed.value? frames link.source = some source ∧
    Keyed.value? frames link.target = some target ∧ link.ends = source.connector target

theorem Link.Connects.between {α : Type} [Scalar α] {frames : List (String × Rect α)}
    {link : Link α} (h : link.Connects frames) : link.Between frames := by
  rcases h with ⟨source, target, hsource, htarget, hends⟩
  have hsides := Rect.connector_mem_sideMiddles source target
  rw [← hends] at hsides
  exact ⟨source, target, hsource, htarget, hsides⟩

/-- The outlines are the frames that are looked up under the names of the entities, and the links
run between such frames. -/
structure Framed {α : Type} [Scalar α] (frames : List (String × Rect α))
    (outlines : List (String × Outline α)) (links : List (Link α)) : Prop where
  box : ∀ name o, (name, o) ∈ outlines →
    ∃ frame, Keyed.value? frames name = some frame ∧ o = .box frame
  link : ∀ link ∈ links, link.Between frames

namespace Framed

section

variable {α : Type} [Scalar α] {frames : List (String × Rect α)}
  {outlines : List (String × Outline α)} {links : List (Link α)}

/-- What is looked up under the name of an entity is its outline. -/
theorem mem_of_value? (h : Framed frames outlines links) {name : String}
    (hname : name ∈ Keyed.keys outlines) {frame : Rect α}
    (hvalue : Keyed.value? frames name = some frame) : (name, .box frame) ∈ outlines := by
  rcases List.mem_map.1 hname with ⟨⟨name', o⟩, hmem, rfl⟩
  rcases h.box name' o hmem with ⟨frame', hvalue', rfl⟩
  have heq : some frame' = some frame := hvalue'.symm.trans hvalue
  obtain rfl : frame' = frame := Option.some.inj heq
  exact hmem

/-- Links that run between the frames of their names are attached to the outlines of those names. -/
theorem holds (h : Framed frames outlines links)
    (hlinked : Linked (Keyed.keys outlines) (links.map fun link => (link.source, link.target))) :
    Attached Outline.Holds outlines links := by
  -- Both names of a link are names of outlines, so what is looked up under them is drawn.
  have hends : ∀ link ∈ links, link.source ∈ Keyed.keys outlines ∧
      link.target ∈ Keyed.keys outlines :=
    fun link hlink => hlinked.mem _ (List.mem_map_of_mem hlink)
  refine ⟨hlinked.nodup, fun link hlink => ?_, fun link hlink => ?_⟩
  · rcases h.link link hlink with ⟨frame, _, hvalue, _, hside, _⟩
    exact ⟨.box frame, h.mem_of_value? (hends link hlink).1 hvalue, hside⟩
  · rcases h.link link hlink with ⟨_, frame, _, hvalue, _, hside⟩
    exact ⟨.box frame, h.mem_of_value? (hends link hlink).2 hvalue, hside⟩

end

/-- Boxes that were given frames one after the other have the frames that are looked up under their
names, provided that the names are distinct. -/
theorem of_named {α : Type} [Scalar α] {named : List (String × Rect α)} {links : List (Link α)}
    (hnodup : (Keyed.keys named).Nodup) (hlink : ∀ link ∈ links, link.Between named) :
    Framed named (named.map fun entry => (entry.1, .box entry.2)) links := by
  refine ⟨fun name o hmem => ?_, hlink⟩
  -- An outline is made of the frame under its own name.
  rcases List.mem_map.1 hmem with ⟨⟨name', frame⟩, hentry, heq⟩
  rcases Prod.mk.inj heq with ⟨rfl, rfl⟩
  exact ⟨frame, (Keyed.value?_eq_some_iff hnodup).2 hentry, rfl⟩

/-- In exact arithmetic links run from boundary to boundary if the sides of frames are in order. -/
theorem touches {frames : List (String × Rect Rat)} {outlines : List (String × Outline Rat)}
    {links : List (Link Rat)} (h : Framed frames outlines links)
    (hlinked : Linked (Keyed.keys outlines) (links.map fun link => (link.source, link.target)))
    (hvalid : ∀ name frame, (name, frame) ∈ frames → frame.Valid) :
    Attached Outline.Touches outlines links := by
  -- A link ends in the middle of a side, which lies on the boundary.
  refine (h.holds hlinked).mono fun name o p hmem hside => ?_
  rcases h.box name o hmem with ⟨frame, hvalue, rfl⟩
  exact (hvalid name frame (Keyed.mem_of_value? hvalue)).onBoundary hside

end Framed

/-! ## Placed diagrams -/

section

variable {α : Type}

/-- The frames of the nodes. -/
def FlowchartLayout.outlines (l : FlowchartLayout α) : List (String × Outline α) :=
  l.nodes.map fun n => (n.node.id, .box n.frame)

/-- The ways of the edges. -/
def FlowchartLayout.links (l : FlowchartLayout α) : List (Link α) :=
  l.edges.map fun e => ⟨e.edge.source, e.edge.target, e.path.ends⟩

/-- The lifelines of the participants. -/
def SequenceLayout.outlines (l : SequenceLayout α) : List (String × Outline α) :=
  l.participants.map fun p =>
    (p.participant.id, .lifeline p.lifelineX p.lifelineTop p.lifelineBottom)

/-- The ways of the messages. -/
def SequenceLayout.links (l : SequenceLayout α) : List (Link α) :=
  l.messages.map fun m => ⟨m.message.source, m.message.target, m.path.ends⟩

/-- The frames of the classes. -/
def ClassLayout.outlines (l : ClassLayout α) : List (String × Outline α) :=
  l.classes.map fun c => (c.classDef.name, .box c.frame)

/-- The ways of the relationships of classes. -/
def ClassLayout.links (l : ClassLayout α) : List (Link α) :=
  l.relationships.map fun r => ⟨r.relationship.source, r.relationship.target, r.line⟩

/-- The frames of the states. -/
def StateLayout.outlines (l : StateLayout α) : List (String × Outline α) :=
  l.states.map fun s => (s.state.id, .box s.frame)

/-- The ways of the transitions. -/
def StateLayout.links (l : StateLayout α) : List (Link α) :=
  l.transitions.map fun t => ⟨t.transition.source, t.transition.target, t.path.ends⟩

/-- The frames of the entities. -/
def EntityLayout.outlines (l : EntityLayout α) : List (String × Outline α) :=
  l.entities.map fun e => (e.entity.name, .box e.frame)

/-- The ways of the relationships of entities. -/
def EntityLayout.links (l : EntityLayout α) : List (Link α) :=
  l.relationships.map fun r => ⟨r.relationship.source, r.relationship.target, r.line⟩

namespace Layout

/-- The outlines of the entities under their names. Slices and tasks have no relations. -/
def outlines : Layout α → List (String × Outline α)
  | flowchart l => l.outlines
  | sequence l => l.outlines
  | classes l => l.outlines
  | states l => l.outlines
  | entities l => l.outlines
  | pie _ | gantt _ => []

/-- The ways of the relations. -/
def links : Layout α → List (Link α)
  | flowchart l => l.links
  | sequence l => l.links
  | classes l => l.links
  | states l => l.links
  | entities l => l.links
  | pie _ | gantt _ => []

/-- One record for each entity and relation of a diagram, in the order of the diagram. -/
def Lists : Layout α → Diagram → Prop
  | flowchart l, .flowchart d => l.nodes.map (·.node) = d.nodes ∧ l.edges.map (·.edge) = d.edges
  | sequence l, .sequence d =>
    l.participants.map (·.participant) = d.participants ∧ l.messages.map (·.message) = d.messages
  | classes l, .classes d =>
    l.classes.map (·.classDef) = d.classes ∧
      l.relationships.map (·.relationship) = d.relationships
  | states l, .states d =>
    l.states.map (·.state) = d.states ∧ l.transitions.map (·.transition) = d.transitions
  | gantt l, .gantt d => l.tasks.map (·.task) = d.tasks
  | entities l, .entities d =>
    l.entities.map (·.entity) = d.entities ∧
      l.relationships.map (·.relationship) = d.relationships
  | _, _ => False

end Layout

end

/-! ## Look-ups -/

section

variable {γ δ ρ π : Type} {first : List (String × γ)} {second : List (String × δ)}

/-- A look-up succeeds for the names that are there. -/
theorem placedUnder_eq_ok_iff {id : String} {value : γ} :
    placedUnder first id = .ok value ↔ Keyed.value? first id = some value := by
  unfold placedUnder
  cases Keyed.value? first id <;> simp

/-- Places an entry by two look-ups under names that it gives: a node by its frame and its layer, a
relation by the frames of its two ends. -/
def placeBy (first : List (String × γ)) (second : List (String × δ)) (names : ρ → String × String)
    (make : ρ → γ → δ → π) (entry : ρ) : Except LayoutError π := do
  let a ← placedUnder first (names entry).1
  let b ← placedUnder second (names entry).2
  return make entry a b

variable {names : ρ → String × String} {make : ρ → γ → δ → π} {entries : List ρ} {results : List π}

/-- What an entry becomes when something is found under both of its names. -/
theorem placeBy_eq_ok_iff {entry : ρ} {placed : π} :
    placeBy first second names make entry = .ok placed ↔
      ∃ a, Keyed.value? first (names entry).1 = some a ∧
        ∃ b, Keyed.value? second (names entry).2 = some b ∧ make entry a b = placed := by
  simp only [placeBy, bind_eq_ok_iff, placedUnder_eq_ok_iff, pure_eq_ok_iff]

/-- All entries are placed if something is found under all of their names. -/
theorem exists_placedBy (hfirst : ∀ entry ∈ entries, ∃ a, Keyed.value? first (names entry).1 = some a)
    (hsecond : ∀ entry ∈ entries, ∃ b, Keyed.value? second (names entry).2 = some b) :
    ∃ results, entries.mapM (placeBy first second names make) = .ok results := by
  refine exists_mapM_eq_ok fun entry hentry => ?_
  rcases hfirst entry hentry with ⟨a, ha⟩
  rcases hsecond entry hentry with ⟨b, hb⟩
  exact ⟨_, placeBy_eq_ok_iff.2 ⟨a, ha, b, hb, rfl⟩⟩

/-- Relations are placed once everything that they may name has been placed. -/
theorem Linked.exists_placedBy {known : List String} {make : ρ → γ → γ → π}
    (h : Linked known (entries.map names))
    (hplaced : ∀ {name}, name ∈ known → ∃ value, Keyed.value? first name = some value) :
    ∃ results, entries.mapM (placeBy first first names make) = .ok results :=
  TextDiagram.exists_placedBy (fun _ hentry => hplaced (h.mem _ (List.mem_map_of_mem hentry)).1)
    fun _ hentry => hplaced (h.mem _ (List.mem_map_of_mem hentry)).2

/-- Entries that are kept beside their places are all there, in order. -/
theorem map_of_placedBy {kept : π → ρ} (hkept : ∀ entry a b, kept (make entry a b) = entry)
    (h : entries.mapM (placeBy first second names make) = .ok results) :
    results.map kept = entries := by
  have heach : ∀ entry placed, placeBy first second names make entry = .ok placed →
      kept placed = id entry := by
    intro entry placed hplaced
    rcases placeBy_eq_ok_iff.1 hplaced with ⟨a, -, b, -, rfl⟩
    exact hkept entry a b
  exact (map_of_mapM_eq_ok heach h).trans (List.map_id entries)

/-- Everything placed was made of what its entry had looked up. -/
theorem of_mem_placedBy (h : entries.mapM (placeBy first second names make) = .ok results) {placed : π}
    (hplaced : placed ∈ results) :
    ∃ entry ∈ entries, ∃ a, Keyed.value? first (names entry).1 = some a ∧
      ∃ b, Keyed.value? second (names entry).2 = some b ∧ make entry a b = placed := by
  rcases of_mem_mapM_eq_ok h hplaced with ⟨entry, hentry, hmade⟩
  exact ⟨entry, hentry, placeBy_eq_ok_iff.1 hmade⟩

end

section

variable {α δ ρ π : Type} {frames : List (String × Rect α)} {ends : ρ → String × String}
  {entries : List ρ} {results : List π}

/-- Entries are drawn in the frames that they have looked up. -/
theorem box_of_placedBy {second : List (String × δ)} {make : ρ → Rect α → δ → π}
    {outline : π → String × Outline α}
    (houtline : ∀ entry frame b, outline (make entry frame b) = ((ends entry).1, .box frame))
    (h : entries.mapM (placeBy frames second ends make) = .ok results) (name : String)
    (o : Outline α) (hmem : (name, o) ∈ results.map outline) :
    ∃ frame, Keyed.value? frames name = some frame ∧ o = .box frame := by
  rcases List.mem_map.1 hmem with ⟨placed, hplaced, heq⟩
  rcases of_mem_placedBy h hplaced with ⟨entry, -, frame, hframe, b, -, rfl⟩
  rcases Prod.mk.inj ((houtline entry frame b).symm.trans heq) with ⟨rfl, rfl⟩
  exact ⟨frame, hframe, rfl⟩

variable [Scalar α] {make : ρ → Rect α → Rect α → π} {link : π → Link α}

/-- Relations that are drawn from a side of one end to a side of the other run between the frames of
their ends. -/
theorem between_of_placedBy
    (hlink : ∀ r a b, ∃ line : Segment α, link (make r a b) = ⟨(ends r).1, (ends r).2, line⟩ ∧
      line.start ∈ a.sideMiddles ∧ line.stop ∈ b.sideMiddles)
    (h : entries.mapM (placeBy frames frames ends make) = .ok results) :
    ∀ l ∈ results.map link, l.Between frames := by
  intro l hl
  rcases List.mem_map.1 hl with ⟨placed, hplaced, rfl⟩
  rcases of_mem_placedBy h hplaced with ⟨r, -, a, ha, b, hb, rfl⟩
  rcases hlink r a b with ⟨line, heq, hsides⟩
  rw [heq]
  exact ⟨a, b, ha, hb, hsides⟩

/-- Relations that are drawn as connectors connect the frames of their ends. -/
theorem connects_of_placedBy
    (hlink : ∀ r a b, link (make r a b) = ⟨(ends r).1, (ends r).2, a.connector b⟩)
    (h : entries.mapM (placeBy frames frames ends make) = .ok results) :
    ∀ l ∈ results.map link, l.Connects frames := by
  intro l hl
  rcases List.mem_map.1 hl with ⟨placed, hplaced, rfl⟩
  rcases of_mem_placedBy h hplaced with ⟨r, -, a, ha, b, hb, rfl⟩
  rw [hlink]
  exact ⟨a, b, ha, hb, rfl⟩

end

end TextDiagram
