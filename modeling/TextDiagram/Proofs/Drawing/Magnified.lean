import TextDiagram.Proofs.Drawing.Scaling
import TextDiagram.Proofs.Rendering
/-!
# Diagrams are drawn alike at all scales

A diagram is placed once, in canvas units. Some shapes are worked out in these units and scaled last,
others are placed in pixels and measured by the scale; either way, in arithmetic without rounding, the
drawing at a scale is that at scale one with everything multiplied.

Main statements:

* `FlowchartLayout.exists_paint`, `SequenceLayout.scaledUp_paint` and so on: each kind of diagram.
* `Renderer.exists_draw_magnified`: a placed diagram of any kind, at any scale and a multiple of it.
* `Renderer.drawing_scales_uniformly`: at scale one and at any other.
-/

namespace TextDiagram

variable {α : Type} [Scalar α] [Unrounded α] {pen : Pen} {s : Int}

/-! ## Gantt and pie charts -/

namespace GanttLayout

theorem scaledUp_drawGridLine (small small' : Font) (top bottom : α) (g : GridLine α) :
    ScaledUp pen s (drawGridLine pen small top bottom g)
      (drawGridLine (pen.magnified s) small' top bottom g) :=
  .shape (Pen.scalesTo_strokeSegment _ _ _ _ _) (Pen.scaledUp_writeCentered _ g.label _ _)

/-- The stripes and the border of a bar depend on the task only, so they are drawn at both scales or
at none. -/
theorem scaledUp_drawTask (small small' : Font) (t : PositionedTask α) :
    ScaledUp pen s (drawTask pen small t) (drawTask (pen.magnified s) small' t) := by
  have hstripes : ScaledUp pen s (if t.isStriped then pen.drawStripes t.bar else [])
      (if t.isStriped then (pen.magnified s).drawStripes t.bar else []) := by
    cases t.isStriped with
    | false => exact .nil
    | true => exact Pen.scaledUp_drawStripes t.bar
  have hborder : ∀ color width width', ScaledUp pen s
      (if t.isBordered then [.rectangle (pen.box t.bar) (Paint.outlined color width)] else [])
      (if t.isBordered then
        [.rectangle ((pen.magnified s).box t.bar) (Paint.outlined color width')] else []) := by
    intro color width width'
    cases t.isBordered with
    | false => exact .nil
    | true => exact .singleton (Pen.scalesTo_rectangle t.bar rfl)
  -- The bar comes first, what lies on it next and the name of the task last.
  refine .shape (Pen.scalesTo_rectangle t.bar rfl) ((hstripes.append (hborder _ _ _)).append ?_)
  exact Pen.scaledUp_writeLeft t.labelPosition t.task.name small small'

/-- A gantt chart: its grid, the names of its sections, its tasks. -/
theorem scaledUp_paint (font font' small small' : Font) (l : GanttLayout α) :
    ScaledUp pen s (paint pen font small l) (paint (pen.magnified s) font' small' l) := by
  unfold paint
  refine .append (.append ?_ ?_) ?_
  · exact .flatMap (scaledUp_drawGridLine small small' l.chartTop l.chartBottom) l.gridLines
  · refine .flatMap ?_ l.sections
    intro p
    exact Pen.scaledUp_write _ p.name _ font font' .left
  · exact .flatMap (scaledUp_drawTask small small') l.tasks

end GanttLayout

namespace PieLayout

/-- Whether a slice is empty does not depend on the scale. -/
theorem scaledUp_drawSlice (font font' : Font) (box : Rect α) (slice : PositionedSlice α) :
    ScaledUp pen s (drawSlice pen font (pen.box box) slice)
      (drawSlice (pen.magnified s) font' ((pen.magnified s).box box) slice) := by
  unfold drawSlice
  by_cases hempty : slice.sweepAngle ≤ 0
  · rw [if_pos hempty, if_pos hempty]
    exact .nil
  · rw [if_neg hempty, if_neg hempty]
    exact .shape (Pen.scalesTo_pieSlice box _ _ rfl) (Pen.scaledUp_writeCentered _ _ font font')

/-- A pie chart: its slices and its legend. -/
theorem scaledUp_paint (font font' : Font) (l : PieLayout α) :
    ScaledUp pen s (paint pen font l) (paint (pen.magnified s) font' l) := by
  unfold paint
  refine .append ?_ ?_
  · exact .flatMap (scaledUp_drawSlice font font' _) l.slices
  · refine .flatMap ?_ l.legend
    intro entry
    exact .shape (Pen.scalesTo_rectangle entry.swatch rfl) (Pen.scaledUp_writeLeft _ _ font font')

end PieLayout

/-! ## Class and entity-relationship diagrams -/

namespace ClassLayout

omit [Unrounded α] in
/-- The name of a class, with its stereotype if it has one. -/
theorem scaledUp_drawName (font font' small small' : Font) (c : PositionedClass α) :
    ScaledUp pen s (drawName pen font small c) (drawName (pen.magnified s) font' small' c) := by
  unfold drawName
  cases c.classDef.stereotype.filter (!·.isEmpty) with
  | none => exact Pen.scaledUp_writeCentered _ _ font font'
  | some text =>
    exact .append (Pen.scaledUp_writeCentered _ _ small small')
      (Pen.scaledUp_writeCentered _ _ font font')

omit [Unrounded α] in
/-- The members of a compartment, each in its row. -/
theorem scaledUp_drawMembers (small small' : Font) (compartment : Rect α)
    (members : List ClassMember) :
    ScaledUp pen s (drawMembers pen small compartment members)
      (drawMembers (pen.magnified s) small' compartment members) := by
  refine .flatten_mapIdx ?_ members
  intro i m
  exact Pen.scaledUp_writeLeft (memberAnchor pen.config compartment i) m.display small small'

/-- A class box: its frame and the lines in it, its name, its members. -/
theorem scaledUp_drawClass (font font' small small' : Font) (c : PositionedClass α) :
    ScaledUp pen s (drawClass pen font small c) (drawClass (pen.magnified s) font' small' c) := by
  unfold drawClass
  -- The frames and the line between the compartments, the name, the properties, the methods.
  refine .append (.append (.append ?_ ?_) ?_) ?_
  · refine .shape ?_ (.shape ?_ (.singleton ?_))
    · exact Pen.scalesTo_rectangle c.frame rfl
    · exact Pen.scalesTo_rectangle c.headerFrame rfl
    · exact Pen.scalesTo_strokeSegment _ _ _ _ _
  · exact scaledUp_drawName font font' small small' c
  · exact scaledUp_drawMembers small small' c.propertiesFrame c.classDef.properties
  · exact scaledUp_drawMembers small small' c.methodsFrame c.classDef.methods

variable [Trig α] (htrig : Trig.Homogeneous α) (hs : 1 ≤ s)

include htrig hs

/-- The marker of a relationship is a polygon, an arrow or nothing. -/
theorem scaledUp_drawMarker (relationType : RelationType) (line : Segment α) :
    ScaledUp pen s (drawMarker pen relationType line)
      (drawMarker (pen.magnified s) relationType line) := by
  cases relationType with
  -- An arrow is worked out in pixels from a direction, which does not change with the scale.
  | association | dependency => exact .singleton (Pen.scalesTo_drawArrow htrig hs line _)
  | link => exact .nil
  | inheritance | realization | composition | aggregation =>
    exact .singleton (Pen.scalesTo_polygon _ rfl)

/-- A relationship of classes: its line, its marker and up to three texts. -/
theorem scaledUp_drawRelationship (small small' : Font) (p : PositionedRelationship α) :
    ScaledUp pen s (drawRelationship pen small p)
      (drawRelationship (pen.magnified s) small' p) := by
  unfold drawRelationship
  -- The line, the marker, the label and the two cardinalities.
  refine .append (.append (.append (.append ?_ ?_) ?_) ?_) ?_
  · exact Pen.scaledUp_stroke htrig hs _ _ _ _ _
  · exact scaledUp_drawMarker htrig hs p.relationship.relationType p.line
  · exact Pen.scaledUp_writeLabel? _ _ small small'
  · exact Pen.scaledUp_writeLabel? _ _ small small'
  · exact Pen.scaledUp_writeLabel? _ _ small small'

/-- A class diagram: relationships below classes. -/
theorem scaledUp_paint (font font' small small' : Font) (l : ClassLayout α) :
    ScaledUp pen s (paint pen font small l) (paint (pen.magnified s) font' small' l) :=
  .append (.flatMap (scaledUp_drawRelationship htrig hs small small') l.relationships)
    (.flatMap (scaledUp_drawClass font font' small small') l.classes)

end ClassLayout

namespace EntityLayout

theorem scalesTo_drawBar (start u : Point α) (distance : α) :
    (drawBar pen start u distance).ScalesTo s (drawBar (pen.magnified s) start u distance) :=
  Pen.scalesTo_strokeSegment _ _ _ _ _

theorem scalesTo_drawCircle (start u : Point α) (distance : α) :
    (drawCircle pen start u distance).ScalesTo s (drawCircle (pen.magnified s) start u distance) :=
  Pen.scalesTo_ellipse _ rfl

/-- The three toes of a foot are segments. -/
theorem scaledUp_drawFoot (start u : Point α) :
    ScaledUp pen s (drawFoot pen start u) (drawFoot (pen.magnified s) start u) := by
  unfold drawFoot
  refine .map ?_ [-1, 0, 1]
  intro side
  exact Pen.scalesTo_strokeSegment _ _ _ _ _

/-- An entity box: its frames, its name, its attributes. -/
theorem scaledUp_drawEntity (font font' small small' : Font) (e : PositionedEntity α) :
    ScaledUp pen s (drawEntity pen font small e) (drawEntity (pen.magnified s) font' small' e) := by
  unfold drawEntity
  refine .append (.append ?_ ?_) ?_
  · refine .shape ?_ (.singleton ?_)
    · exact Pen.scalesTo_rectangle e.frame rfl
    · exact Pen.scalesTo_rectangle e.headerFrame rfl
  · exact Pen.scaledUp_writeCentered e.headerFrame.center e.entity.name font font'
  · refine .flatMap ?_ (e.entity.attributes.zip e.attributeFrames)
    rintro ⟨a, frame⟩
    exact Pen.scaledUp_writeLeft _ (attributeText a) small small'

variable [Trig α]

/-- The marker of a cardinality is made of two parts, the inner of which is a bar or a circle. -/
theorem scaledUp_drawCardinality (line : Segment α) (c : Cardinality) :
    ScaledUp pen s (drawCardinality pen line c) (drawCardinality (pen.magnified s) line c) := by
  -- Both parts stand at fixed distances from the end of the line, in canvas units.
  cases c with
  | exactlyOne => exact .shape (scalesTo_drawBar _ _ _) (.singleton (scalesTo_drawBar _ _ _))
  | zeroOrOne => exact .shape (scalesTo_drawBar _ _ _) (.singleton (scalesTo_drawCircle _ _ _))
  | oneOrMore => exact .append (scaledUp_drawFoot _ _) (.singleton (scalesTo_drawBar _ _ _))
  | zeroOrMore => exact .append (scaledUp_drawFoot _ _) (.singleton (scalesTo_drawCircle _ _ _))

theorem scaledUp_drawRelationship (small small' : Font) (p : PositionedEntityRelationship α) :
    ScaledUp pen s (drawRelationship pen small p)
      (drawRelationship (pen.magnified s) small' p) := by
  unfold drawRelationship
  refine .append (.append (.append ?_ ?_) ?_) ?_
  · exact Pen.scaledUp_strokePath _ _ _ _
  · exact scaledUp_drawCardinality p.line p.relationship.sourceCardinality
  · exact scaledUp_drawCardinality p.line.reversed p.relationship.targetCardinality
  · exact Pen.scaledUp_writeLabel p.labelPosition p.relationship.label small small'

/-- An entity-relationship diagram: relationships below entities. -/
theorem scaledUp_paint (font font' small small' : Font) (l : EntityLayout α) :
    ScaledUp pen s (paint pen font small l) (paint (pen.magnified s) font' small' l) :=
  .append (.flatMap (scaledUp_drawRelationship small small') l.relationships)
    (.flatMap (scaledUp_drawEntity font font' small small') l.entities)

end EntityLayout

/-! ## State and sequence diagrams -/

namespace StateLayout

omit [Unrounded α] in
/-- A state with a description has two texts. -/
theorem scaledUp_drawTexts (font font' small small' : Font) (state : StateNode)
    (middle : Point α) :
    ScaledUp pen s (drawTexts pen font small state middle)
      (drawTexts (pen.magnified s) font' small' state middle) := by
  unfold drawTexts
  cases state.description with
  | none => exact Pen.scaledUp_writeCentered middle state.label font font'
  | some description =>
    exact .append (Pen.scaledUp_writeCentered _ state.label font font')
      (Pen.scaledUp_writeCentered _ description small small')

/-- A marker is made of two ellipses; any other state is a rounded box with its texts. -/
theorem scaledUp_drawState (font font' small small' : Font) (p : PositionedState α) :
    ScaledUp pen s (drawState pen font small p) (drawState (pen.magnified s) font' small' p) := by
  unfold drawState
  -- Being a marker is a matter of the state, not of the scale.
  by_cases hmarker : p.state.isStartEnd = true
  · simp only [if_pos hmarker]
    exact .shape (Pen.scalesTo_ellipse p.frame rfl) (.singleton (Pen.scalesTo_ellipse _ rfl))
  · simp only [if_neg hmarker]
    refine .shape (Pen.scalesTo_roundedRectangle p.frame _ rfl) ?_
    exact scaledUp_drawTexts font font' small small' p.state p.frame.center

variable [Trig α] (htrig : Trig.Homogeneous α) (hs : 1 ≤ s)

include htrig hs

theorem scaledUp_drawTransition (font font' : Font) (t : PositionedTransition α) :
    ScaledUp pen s (drawTransition pen font t) (drawTransition (pen.magnified s) font' t) := by
  unfold drawTransition
  refine .append (Pen.scaledUp_strokePath t.path _ _ _) (.shape ?_ ?_)
  · exact Pen.scalesTo_drawArrow htrig hs t.path.lastLeg _
  · exact Pen.scaledUp_writeLabel? t.labelPosition t.transition.label font font'

/-- A state diagram: transitions below states. -/
theorem scaledUp_paint (font font' small small' : Font) (l : StateLayout α) :
    ScaledUp pen s (paint pen font small l) (paint (pen.magnified s) font' small' l) :=
  .append (.flatMap (scaledUp_drawTransition htrig hs font font') l.transitions)
    (.flatMap (scaledUp_drawState font font' small small') l.states)

end StateLayout

namespace SequenceLayout

/-- An actor is an ellipse above four segments. -/
theorem scaledUp_drawActor (frame : Rect α) :
    ScaledUp pen s (drawActor pen frame) (drawActor (pen.magnified s) frame) := by
  refine .shape (Pen.scalesTo_ellipse _ rfl) (.shape ?_ (.shape ?_ (.shape ?_ (.singleton ?_))))
  all_goals exact Pen.scalesTo_strokeSegment _ _ _ _ _

/-- The head of a participant is an actor or a box, with its label. -/
theorem scaledUp_drawHeader (font font' : Font) (p : Participant) (frame : Rect α) :
    ScaledUp pen s (drawHeader pen font p frame) (drawHeader (pen.magnified s) font' p frame) := by
  unfold drawHeader
  by_cases hactor : p.isActor = true
  · rw [if_pos hactor, if_pos hactor]
    exact .append (scaledUp_drawActor frame) (Pen.scaledUp_writeCentered _ p.label font font')
  · rw [if_neg hactor, if_neg hactor]
    refine .shape (Pen.scalesTo_roundedRectangle frame _ rfl) ?_
    exact Pen.scaledUp_writeCentered frame.center p.label font font'

variable [Trig α] (htrig : Trig.Homogeneous α) (hs : 1 ≤ s)

include htrig hs

theorem scaledUp_drawParticipant (font font' : Font) (p : PositionedParticipant α) :
    ScaledUp pen s (drawParticipant pen font p) (drawParticipant (pen.magnified s) font' p) :=
  .append (Pen.scaledUp_strokeDashed htrig hs _ _ _ _)
    (scaledUp_drawHeader font font' p.participant p.headerFrame)

/-- The head of a message, which may have none. -/
theorem scaledUp_drawHead (head : MessageHead) (line : Segment α) :
    ScaledUp pen s (drawHead pen head line) (drawHead (pen.magnified s) head line) := by
  cases head with
  | arrow => exact .singleton (Pen.scalesTo_drawArrow htrig hs line _)
  | cross => exact Pen.scaledUp_drawCross line.stop _
  | async => exact .singleton (Pen.scalesTo_drawOpenArrow htrig hs line _)
  | none => exact .nil

/-- A message: its way, its head and its text. -/
theorem scaledUp_drawMessage (font font' : Font) (m : PositionedMessage α) :
    ScaledUp pen s (drawMessage pen font m) (drawMessage (pen.magnified s) font' m) := by
  unfold drawMessage
  -- The way and the head scale as paths do; the text has its own place.
  refine .append (.append ?_ ?_) ?_
  · exact Pen.scaledUp_stroke htrig hs _ m.path _ _ _
  · exact scaledUp_drawHead htrig hs m.message.style.head m.path.lastLeg
  · exact Pen.scaledUp_writeLabel m.labelPosition m.message.text font font'

/-- A sequence diagram: participants below messages. -/
theorem scaledUp_paint (font font' : Font) (l : SequenceLayout α) :
    ScaledUp pen s (paint pen font l) (paint (pen.magnified s) font' l) :=
  .append (.flatMap (scaledUp_drawParticipant htrig hs font font') l.participants)
    (.flatMap (scaledUp_drawMessage htrig hs font font') l.messages)

end SequenceLayout

/-! ## Flowcharts -/

/-- The width that the style of a node gives to its border is finite, if it gives one. -/
def PositionedNode.HasFiniteWidth {α : Type} (n : PositionedNode α) : Prop :=
  ∀ numeral ∈ NodeStyle.borderWidth n.style, ∃ negative d, numeral = .finite negative d

namespace FlowchartLayout

/-- In arithmetic without rounding every finite width will do. -/
theorem exists_styledWidth (pen : Pen) {n : PositionedNode α} (h : n.HasFiniteWidth) :
    ∃ width, pen.styledWidth α (n.style.getD {}).strokeWidth = .ok width := by
  have hgiven : (n.style.getD {}).strokeWidth = NodeStyle.borderWidth n.style := by
    cases n.style <;> rfl
  rw [Pen.exists_styledWidth_iff, hgiven]
  cases hwidth : NodeStyle.borderWidth n.style with
  | none => trivial
  | some numeral =>
    obtain ⟨negative, d, rfl⟩ := h numeral hwidth
    exact Or.inr (Unrounded.exists_exact _)

/-- Each shape of a node is one call. -/
theorem scalesTo_drawShape (shape : NodeShape) (frame : Rect α) {paint paint' : Paint}
    (h : paint'.widthless = paint.widthless) :
    (drawShape pen shape frame paint).ScalesTo s
      (drawShape (pen.magnified s) shape frame paint') := by
  cases shape with
  | rectangle => exact Pen.scalesTo_rectangle frame h
  | rounded | stadium => exact Pen.scalesTo_roundedRectangle frame _ h
  | circle => exact Pen.scalesTo_ellipse _ h
  | diamond | hexagon | asymmetric => exact Pen.scalesTo_polygon _ h

theorem scaledUp_drawSubgraph (font font' : Font) (b : PositionedSubgraph α) :
    ScaledUp pen s (drawSubgraph pen font b) (drawSubgraph (pen.magnified s) font' b) :=
  .shape (Pen.scalesTo_rectangle b.frame rfl)
    (Pen.scaledUp_writeLeft b.labelPosition b.subgraph.label font font')

/-- A node whose border has a width is drawn at both scales. -/
theorem exists_drawNode (font font' : Font) {n : PositionedNode α} (h : n.HasFiniteWidth) :
    ∃ calls calls', drawNode pen font n = .ok calls ∧
      drawNode (pen.magnified s) font' n = .ok calls' ∧ ScaledUp pen s calls calls' := by
  -- The width of the border is asked for at each scale and may be rounded differently. The drawing
  -- only has to have one.
  obtain ⟨width, hwidth⟩ := exists_styledWidth pen h
  obtain ⟨width', hwidth'⟩ := exists_styledWidth (pen.magnified s) h
  refine ⟨_, _, by rw [drawNode, hwidth, Except.map], by rw [drawNode, hwidth', Except.map], ?_⟩
  -- What is compared leaves widths of borders aside.
  refine .shape (scalesTo_drawShape n.node.shape n.frame rfl) ?_
  exact Pen.scaledUp_write n.frame.center n.node.label _ font font' .center

omit [Unrounded α] in
/-- A list of nodes is drawn if the first one is and the others are. -/
theorem drawNodes_cons {font : Font} {n : PositionedNode α} {rest : List (PositionedNode α)}
    {calls more : List (Call α)} (hn : drawNode pen font n = .ok calls)
    (hrest : drawNodes pen font rest = .ok more) :
    drawNodes pen font (n :: rest) = .ok (calls ++ more) := by
  unfold drawNodes at *
  -- The calls of the others are those of a list of drawings put together.
  cases hresults : rest.mapM (drawNode pen font) with
  | error e => simp [hresults, Except.map] at hrest
  | ok results =>
    rw [hresults] at hrest
    obtain rfl := Except.ok.inj hrest
    rw [List.mapM_cons, hn, hresults]
    rfl

/-- So are all nodes of a list. -/
theorem exists_drawNodes (font font' : Font) {nodes : List (PositionedNode α)}
    (h : ∀ n ∈ nodes, n.HasFiniteWidth) :
    ∃ calls calls', drawNodes pen font nodes = .ok calls ∧
      drawNodes (pen.magnified s) font' nodes = .ok calls' ∧ ScaledUp pen s calls calls' := by
  -- One node after another, as the first border without a width would end the drawing.
  induction nodes with
  | nil => exact ⟨[], [], rfl, rfl, .nil⟩
  | cons n rest ih =>
    obtain ⟨calls, calls', hn, hn', hcalls⟩ :=
      exists_drawNode (s := s) font font' (h n List.mem_cons_self)
    obtain ⟨more, more', hrest, hrest', hmore⟩ :=
      ih fun m hm => h m (List.mem_cons_of_mem n hm)
    exact ⟨_, _, drawNodes_cons hn hrest, drawNodes_cons hn' hrest', hcalls.append hmore⟩

variable [Trig α] (htrig : Trig.Homogeneous α) (hs : 1 ≤ s)

include htrig hs

/-- An invisible edge is drawn at no scale, any other one with its way, its arrow and its label. -/
theorem scaledUp_drawEdge (font font' : Font) (e : PositionedEdge α) :
    ScaledUp pen s (drawEdge pen font e) (drawEdge (pen.magnified s) font' e) := by
  unfold drawEdge
  by_cases hinvisible : e.edge.style = .invisible
  · rw [if_pos hinvisible, if_pos hinvisible]
    exact .nil
  · rw [if_neg hinvisible, if_neg hinvisible]
    -- An arrow takes the direction of the last leg of the way.
    refine .append (Pen.scaledUp_stroke htrig hs _ e.path _ _ _) (.shape ?_ ?_)
    · exact Pen.scalesTo_drawArrow htrig hs e.path.lastLeg _
    · exact Pen.scaledUp_writeLabel? e.labelPosition e.edge.label font font'

/-- A flowchart: blocks below edges below nodes. -/
theorem exists_paint (font font' : Font) {l : FlowchartLayout α}
    (hl : ∀ n ∈ l.nodes, n.HasFiniteWidth) :
    ∃ calls calls', paint pen font l = .ok calls ∧ paint (pen.magnified s) font' l = .ok calls' ∧
      ScaledUp pen s calls calls' := by
  -- Only the nodes can fail; what lies below them is drawn in any case.
  obtain ⟨nodes, nodes', hnodes, hnodes', hscaled⟩ :=
    exists_drawNodes font font' hl
  refine ⟨_, _, by rw [paint, hnodes, Except.map], by rw [paint, hnodes', Except.map], ?_⟩
  refine .append (.append ?_ ?_) hscaled
  · exact .flatMap (scaledUp_drawSubgraph font font') l.subgraphs.reverse
  · exact .flatMap (scaledUp_drawEdge htrig hs font font') l.edges

end FlowchartLayout

/-! ## Diagrams of all kinds -/

/-- Every width that is taken from a style is finite. -/
def Layout.HasFiniteWidths {α : Type} : Layout α → Prop
  | .flowchart l => ∀ n ∈ l.nodes, n.HasFiniteWidth
  | _ => True

namespace Renderer

variable [Trig α]

theorem exists_draw_magnified (htrig : Trig.Homogeneous α) (hs : 1 ≤ s) (r r' : Renderer)
    (hr : r'.toPen = r.toPen.magnified s) {l : Layout α} (hl : l.HasFiniteWidths)
    (fonts fonts' : FontCache) :
    ∃ calls calls', (r.draw l fonts).1 = .ok calls ∧ (r'.draw l fonts').1 = .ok calls' ∧
      ScaledUp r.toPen s calls calls' := by
  obtain ⟨pen', library'⟩ := r'
  obtain rfl : pen' = r.toPen.magnified s := hr
  -- Only flowcharts have borders that may be without a width. Two kinds have a title before the rest.
  cases l with
  | flowchart l => exact FlowchartLayout.exists_paint htrig hs _ _ hl
  | sequence l => exact ⟨_, _, rfl, rfl, SequenceLayout.scaledUp_paint htrig hs _ _ l⟩
  | pie l =>
    refine ⟨_, _, rfl, rfl, ScaledUp.append ?_ (PieLayout.scaledUp_paint _ _ l)⟩
    exact scaledUp_drawTitle r _ rfl rfl _ _ _
  | classes l => exact ⟨_, _, rfl, rfl, ClassLayout.scaledUp_paint htrig hs _ _ _ _ l⟩
  | states l => exact ⟨_, _, rfl, rfl, StateLayout.scaledUp_paint htrig hs _ _ _ _ l⟩
  | gantt l =>
    refine ⟨_, _, rfl, rfl, ScaledUp.append ?_ (GanttLayout.scaledUp_paint _ _ _ _ l)⟩
    exact scaledUp_drawTitle r _ rfl rfl _ _ _
  | entities l => exact ⟨_, _, rfl, rfl, EntityLayout.scaledUp_paint _ _ _ _ l⟩

/-- Whatever fonts have been loaded before either drawing. -/
theorem drawing_scales_uniformly (htrig : Trig.Homogeneous α) (config : Config)
    (library : FontLibrary) (hs : 1 ≤ s) {l : Layout α} (hl : l.HasFiniteWidths)
    (fonts fonts' : FontCache) :
    ∃ calls calls', (draw ⟨⟨config, 1⟩, library⟩ l fonts).1 = .ok calls ∧
      (draw ⟨⟨config, s⟩, library⟩ l fonts').1 = .ok calls' ∧
      ScaledUp ⟨config, 1⟩ s calls calls' := by
  have hpen : (⟨config, s⟩ : Pen) = (⟨config, 1⟩ : Pen).magnified s := by
    rw [Pen.magnified, Int.one_mul]
  exact exists_draw_magnified htrig hs ⟨⟨config, 1⟩, library⟩ ⟨⟨config, s⟩, library⟩ hpen hl
    fonts fonts'

/-- A rounded node with a border one and a half units wide and a dotted edge with a label, in real
numbers and twice as large. -/
theorem drawing_scales_uniformly_of_dotted_edge :
    let node : PositionedNode RealScalar :=
      ⟨⟨"A", "Start", .stadium⟩, ⟨0, 0, 40, 20⟩, 0,
        some ⟨none, none, some (.finite false ⟨15, -1⟩), none⟩⟩
    let edge : PositionedEdge RealScalar :=
      ⟨⟨"A", "A", some "again", .dotted⟩, ⟨⟨40, 10⟩, [], ⟨80, 40⟩⟩, some ⟨60, 25⟩⟩
    let l : Layout RealScalar := .flowchart ⟨⟨80, 40⟩, [node], [edge], []⟩
    Trig.Homogeneous RealScalar ∧ l.HasFiniteWidths ∧
      ∃ calls calls', (draw ⟨⟨Config.light, 1⟩, ⟨none, []⟩⟩ l []).1 = .ok calls ∧
        (draw ⟨⟨Config.light, 2⟩, ⟨none, []⟩⟩ l []).1 = .ok calls' ∧
        ScaledUp ⟨Config.light, 1⟩ 2 calls calls' := by
  intro node edge l
  have hwidths : l.HasFiniteWidths := by
    intro n hn numeral hnumeral
    obtain rfl := List.mem_singleton.1 hn
    exact ⟨_, _, (Option.some.inj hnumeral).symm⟩
  refine ⟨RealScalar.homogeneous, hwidths, ?_⟩
  exact drawing_scales_uniformly RealScalar.homogeneous Config.light ⟨none, []⟩ (by decide) hwidths
    [] []

end Renderer

end TextDiagram
