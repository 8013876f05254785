import TextDiagram.Proofs.Drawing.Colorless
import TextDiagram.Rendering
/-!
# Diagrams are drawn alike in all colours

No drawing looks at a colour: which calls it makes, and where, depends on the placed diagram, the
fonts and the sizes of the configuration.

Main statements:

* `map_bind_eq`: computations that go on alike from alike results have alike results.
* `FlowchartLayout.map_paint`, `SequenceLayout.alike_paint` and so on: each kind of diagram.
* `Renderer.alike_draw`, `Renderer.alike_render`: a placed diagram of any kind, with its image.
-/

namespace TextDiagram

open Call (Alike)

/-! ## Results that are alike -/

section

variable {β γ δ ζ ε : Type}

/-- Two computations that go on alike after alike intermediate results have alike results. -/
theorem map_bind_eq {x x' : Except ε β} {k : β → δ} {f f' : β → Except ε γ} {m : γ → ζ}
    (hx : x.map k = x'.map k) (hf : ∀ b b', k b = k b' → (f b).map m = (f' b').map m) :
    (x >>= f).map m = (x' >>= f').map m := by
  cases x with
  | error e =>
    cases x' with
    | error e' =>
      cases hx
      rfl
    | ok b' => cases hx
  | ok b =>
    cases x' with
    | error e' => cases hx
    | ok b' => exact hf b b' (Except.ok.inj hx)

/-- Results that are alike stay alike under functions that agree on what is alike. -/
theorem map_map_eq {x x' : Except ε β} {k : β → δ} {f f' : β → γ} {m : γ → ζ}
    (hx : x.map k = x'.map k) (hf : ∀ b b', k b = k b' → m (f b) = m (f' b')) :
    (x.map f).map m = (x'.map f').map m := by
  change (x >>= fun b => .ok (f b)).map m = (x' >>= fun b => .ok (f' b)).map m
  refine map_bind_eq hx fun b b' hb => ?_
  exact congrArg Except.ok (hf b b' hb)

/-- Running over a list gives alike results if each entry does. -/
theorem map_mapM_eq {f f' : β → Except ε γ} {k : γ → δ} (h : ∀ b, (f b).map k = (f' b).map k)
    (entries : List β) :
    (entries.mapM f).map (List.map k) = (entries.mapM f').map (List.map k) := by
  induction entries with
  | nil => rfl
  | cons b rest ih =>
    rw [List.mapM_cons, List.mapM_cons]
    -- The first entry decides whether the rest is looked at, in both runs.
    refine map_bind_eq (h b) fun c c' hc => map_bind_eq ih fun cs cs' hcs => ?_
    exact congrArg Except.ok (List.cons_eq_cons.2 ⟨hc, hcs⟩)

/-- Alike lists are alike after a function that looks at positions and at what is alike. -/
theorem map_mapIdx_eq {k : β → δ} {m : γ → ζ} {f : Nat → β → γ}
    (hf : ∀ i b b', k b = k b' → m (f i b) = m (f i b')) {entries entries' : List β}
    (h : entries.map k = entries'.map k) :
    (entries.mapIdx f).map m = (entries'.mapIdx f).map m := by
  induction entries generalizing entries' f with
  | nil =>
    rw [List.map_nil, eq_comm, List.map_eq_nil_iff] at h
    rw [h]
  | cons b rest ih =>
    cases entries' with
    | nil => cases h
    | cons b' rest' =>
      rcases List.cons_eq_cons.1 h with ⟨hb, hrest⟩
      -- The positions of the rest are one higher, hence the generalized `f`.
      rw [List.mapIdx_cons, List.mapIdx_cons, List.map_cons, List.map_cons, hf 0 b b' hb,
        ih (fun i => hf (i + 1)) hrest]

end

variable {α : Type} [Scalar α]

/-! ## Drawings -/

namespace FlowchartLayout

variable (pen : Pen) (font : Font)

/-- A block has the same frame and the same label. -/
theorem alike_drawSubgraph (s : PositionedSubgraph α) :
    Alike (drawSubgraph pen font s) (drawSubgraph pen.colorless font s) := by
  unfold drawSubgraph
  exact .cons rfl (pen.alike_writeLeft s.labelPosition s.subgraph.label font)

/-- The shape of a node and its place do not depend on the paint. -/
theorem colorless_drawShape (shape : NodeShape) (frame : Rect α) {paint paint' : Paint}
    (h : paint.colorless = paint'.colorless) :
    (drawShape pen shape frame paint).colorless =
      (drawShape pen.colorless shape frame paint').colorless := by
  cases shape <;> simp only [drawShape, Call.colorless, h] <;> rfl

/-- A node has the same shape and label, or fails to be drawn for the same reason. -/
theorem map_drawNode (n : PositionedNode α) :
    (drawNode pen font n).map (List.map Call.colorless) =
      (drawNode pen.colorless font n).map (List.map Call.colorless) := by
  unfold drawNode
  -- The width of the border comes from the style, or else from the configuration.
  refine map_map_eq (k := id) rfl fun width width' hwidth => ?_
  obtain rfl : width = width' := hwidth
  refine Alike.cons (colorless_drawShape pen n.node.shape n.frame rfl) ?_
  exact pen.alike_write n.frame.center n.node.label _ _ font .center rfl

variable [Trig α]

/-- An edge has the same line, arrow and label. -/
theorem alike_drawEdge (e : PositionedEdge α) :
    Alike (drawEdge pen font e) (drawEdge pen.colorless font e) := by
  unfold drawEdge
  by_cases hinvisible : e.edge.style = .invisible
  · -- An invisible edge gives no calls at all.
    rw [if_pos hinvisible, if_pos hinvisible]
    rfl
  · rw [if_neg hinvisible, if_neg hinvisible]
    refine .append (pen.alike_stroke _ e.path _ _ _) (.cons ?_ ?_)
    · exact pen.colorless_drawArrow e.path.lastLeg _ _
    · exact pen.alike_writeLabel? e.labelPosition e.edge.label font

/-- A whole flowchart is drawn alike; only nodes can fail. -/
theorem map_paint (l : FlowchartLayout α) :
    (paint pen font l).map (List.map Call.colorless) =
      (paint pen.colorless font l).map (List.map Call.colorless) := by
  have hnodes : (drawNodes pen font l.nodes).map (List.map Call.colorless) =
      (drawNodes pen.colorless font l.nodes).map (List.map Call.colorless) := by
    -- The calls of all nodes are computed before anything else is known to succeed.
    refine map_map_eq (map_mapM_eq (map_drawNode pen font) l.nodes) fun calls calls' hcalls => ?_
    rw [List.map_flatten, List.map_flatten, hcalls]
  unfold paint
  refine map_map_eq hnodes fun nodes nodes' hnodes => ?_
  refine Alike.append (.append ?_ ?_) hnodes
  · exact .flatMap (alike_drawSubgraph pen font) _
  · exact .flatMap (alike_drawEdge pen font) _

end FlowchartLayout

namespace SequenceLayout

variable (pen : Pen) (font : Font)

/-- The head of a participant is a figure or a box with the same name. -/
theorem alike_drawHeader (p : Participant) (frame : Rect α) :
    Alike (drawHeader pen font p frame) (drawHeader pen.colorless font p frame) := by
  unfold drawHeader
  by_cases hactor : p.isActor = true
  · rw [if_pos hactor, if_pos hactor]
    exact .append rfl (pen.alike_writeCentered _ p.label font)
  · rw [if_neg hactor, if_neg hactor]
    exact .cons rfl (pen.alike_writeCentered _ p.label font)

variable [Trig α]

/-- A participant has the same lifeline and the same head. -/
theorem alike_drawParticipant (p : PositionedParticipant α) :
    Alike (drawParticipant pen font p) (drawParticipant pen.colorless font p) :=
  .append (pen.alike_strokeDashed _ _ _ _) (alike_drawHeader pen font p.participant p.headerFrame)

/-- Each kind of message end is drawn alike. -/
theorem alike_drawHead (head : MessageHead) (line : Segment α) :
    Alike (drawHead pen head line) (drawHead pen.colorless head line) := by
  cases head with
  | arrow => exact .cons (pen.colorless_drawArrow line _ _) rfl
  | cross => exact pen.alike_drawCross line.stop _ _
  | async => exact .cons (pen.colorless_drawOpenArrow line _ _) rfl
  | none => rfl

/-- A message has the same line, end and text. -/
theorem alike_drawMessage (m : PositionedMessage α) :
    Alike (drawMessage pen font m) (drawMessage pen.colorless font m) := by
  unfold drawMessage
  refine .append (.append (pen.alike_stroke _ m.path _ _ _) ?_) ?_
  · exact alike_drawHead pen m.message.style.head m.path.lastLeg
  · exact pen.alike_writeLabel m.labelPosition m.message.text font

/-- A whole sequence diagram is drawn alike. -/
theorem alike_paint (l : SequenceLayout α) :
    Alike (paint pen font l) (paint pen.colorless font l) :=
  .append (.flatMap (alike_drawParticipant pen font) _) (.flatMap (alike_drawMessage pen font) _)

end SequenceLayout

namespace PieLayout

variable (pen : Pen) (font : Font)

/-- A slice has the same sector and percentage; empty slices are left out in both drawings. -/
theorem alike_drawSlice (box : Rect α) (s : PositionedSlice α) :
    Alike (drawSlice pen font box s) (drawSlice pen.colorless font box s.colorless) := by
  unfold drawSlice
  by_cases hempty : s.sweepAngle ≤ 0
  · -- Forgetting the colour of a slice keeps its angles.
    rw [if_pos hempty, if_pos (c := s.colorless.sweepAngle ≤ 0) hempty]
    rfl
  · rw [if_neg hempty, if_neg (c := s.colorless.sweepAngle ≤ 0) hempty]
    exact .cons rfl (pen.alike_writeCentered s.labelPosition _ font)

/-- An entry of the legend has the same box and text. -/
theorem alike_drawEntry (showData : Bool) (e : LegendEntry α) :
    Alike (drawEntry pen font showData e) (drawEntry pen.colorless font showData e.colorless) :=
  .cons rfl (pen.alike_writeLeft e.textPosition _ font)

/-- A whole pie chart is drawn alike, the colours of its slices forgotten. -/
theorem alike_paint (l : PieLayout α) :
    Alike (paint pen font l) (paint pen.colorless font l.colorless) := by
  unfold paint PieLayout.colorless
  refine .append ?_ ?_
  · rw [List.flatMap_map]
    exact .flatMap (alike_drawSlice pen font _) l.slices
  · rw [List.flatMap_map]
    exact .flatMap (alike_drawEntry pen font l.showData) l.legend

end PieLayout

namespace ClassLayout

variable (pen : Pen) (font small : Font)

/-- A class has the same name, below the same stereotype if there is one. -/
theorem alike_drawName (c : PositionedClass α) :
    Alike (drawName pen font small c) (drawName pen.colorless font small c) := by
  unfold drawName
  cases c.classDef.stereotype.filter (!·.isEmpty) with
  | none => exact pen.alike_writeCentered _ _ font
  | some text => exact .append (pen.alike_writeCentered _ _ small) (pen.alike_writeCentered _ _ font)

/-- Members are written in the same rows. -/
theorem alike_drawMembers (compartment : Rect α) (members : List ClassMember) :
    Alike (drawMembers pen small compartment members)
      (drawMembers pen.colorless small compartment members) := by
  unfold drawMembers
  refine .flatten_mapIdx ?_ members
  intro i m
  exact pen.alike_writeLeft (memberAnchor pen.config compartment i) m.display small

/-- A class has the same box, name and compartments. -/
theorem alike_drawClass (c : PositionedClass α) :
    Alike (drawClass pen font small c) (drawClass pen.colorless font small c) := by
  unfold drawClass
  refine .append (.append (.append rfl ?_) ?_) ?_
  · exact alike_drawName pen font small c
  · exact alike_drawMembers pen small c.propertiesFrame c.classDef.properties
  · exact alike_drawMembers pen small c.methodsFrame c.classDef.methods

variable [Trig α]

/-- Every kind of relationship has the same marker at its end. -/
theorem alike_drawMarker (relationType : RelationType) (line : Segment α) :
    Alike (drawMarker pen relationType line) (drawMarker pen.colorless relationType line) := by
  cases relationType with
  | association | dependency => exact .cons (pen.colorless_drawArrow line _ _) rfl
  | _ => rfl

/-- A relationship has the same line, marker and labels. -/
theorem alike_drawRelationship (p : PositionedRelationship α) :
    Alike (drawRelationship pen small p) (drawRelationship pen.colorless small p) := by
  unfold drawRelationship
  refine .append (.append (.append (.append ?_ ?_) ?_) ?_) ?_
  · exact pen.alike_stroke _ _ _ _ _
  · exact alike_drawMarker pen p.relationship.relationType p.line
  · exact pen.alike_writeLabel? p.labelPosition p.relationship.label small
  · exact pen.alike_writeLabel? p.sourceLabelPosition p.relationship.sourceCardinality small
  · exact pen.alike_writeLabel? p.targetLabelPosition p.relationship.targetCardinality small

/-- A whole class diagram is drawn alike. -/
theorem alike_paint (l : ClassLayout α) :
    Alike (paint pen font small l) (paint pen.colorless font small l) :=
  .append (.flatMap (alike_drawRelationship pen small) _)
    (.flatMap (alike_drawClass pen font small) _)

end ClassLayout

namespace StateLayout

variable (pen : Pen) (font small : Font)

/-- A state has the same label and description. -/
theorem alike_drawTexts (state : StateNode) (middle : Point α) :
    Alike (drawTexts pen font small state middle)
      (drawTexts pen.colorless font small state middle) := by
  unfold drawTexts
  cases state.description with
  | none => exact pen.alike_writeCentered middle state.label font
  | some description =>
    exact .append (pen.alike_writeCentered _ state.label font)
      (pen.alike_writeCentered _ description small)

/-- A state is the same dot or the same box with its texts. -/
theorem alike_drawState (s : PositionedState α) :
    Alike (drawState pen font small s) (drawState pen.colorless font small s) := by
  unfold drawState
  by_cases hmarker : s.state.isStartEnd = true
  · simp only [if_pos hmarker]
    rfl
  · simp only [if_neg hmarker]
    exact .cons rfl (alike_drawTexts pen font small s.state s.frame.center)

variable [Trig α]

/-- A transition has the same line, arrow and label. -/
theorem alike_drawTransition (t : PositionedTransition α) :
    Alike (drawTransition pen font t) (drawTransition pen.colorless font t) := by
  unfold drawTransition
  refine .append rfl (.cons ?_ ?_)
  · exact pen.colorless_drawArrow t.path.lastLeg _ _
  · exact pen.alike_writeLabel? t.labelPosition t.transition.label font

/-- A whole state diagram is drawn alike. -/
theorem alike_paint (l : StateLayout α) :
    Alike (paint pen font small l) (paint pen.colorless font small l) :=
  .append (.flatMap (alike_drawTransition pen font) _)
    (.flatMap (alike_drawState pen font small) _)

end StateLayout

namespace GanttLayout

variable (pen : Pen) (font small : Font)

/-- A grid line has the same ends and the same label. -/
theorem alike_drawGridLine (top bottom : α) (g : GridLine α) :
    Alike (drawGridLine pen small top bottom g) (drawGridLine pen.colorless small top bottom g) :=
  .cons rfl (pen.alike_writeCentered _ g.label small)

/-- The name of a section is written in the same place. -/
theorem alike_drawSection (s : PositionedSection α) :
    Alike (drawSection pen font s) (drawSection pen.colorless font s) :=
  pen.alike_write _ s.name _ _ font .left rfl

/-- The decoration of a bar depends on the state of the task, not on the colour of the bar. -/
theorem alike_drawTask (t : PositionedTask α) :
    Alike (drawTask pen small t) (drawTask pen.colorless small t.colorless) := by
  have hstripes : Alike (if t.isStriped then pen.drawStripes t.bar else [])
      (if t.isStriped then pen.colorless.drawStripes t.bar else []) := by
    cases t.isStriped with
    | false => rfl
    | true => exact pen.alike_drawStripes t.bar
  -- Of the border only the colour may differ, which is forgotten.
  have hborder : ∀ color color', Alike
      (if t.isBordered then
        [.rectangle (pen.box t.bar) (Paint.outlined color (pen.width 4))] else [])
      (if t.isBordered then
        [.rectangle (pen.box t.bar) (Paint.outlined color' (pen.width 4))] else []) := by
    intro color color'
    cases t.isBordered <;> rfl
  refine .cons rfl (.append (.append hstripes (hborder _ _)) ?_)
  exact pen.alike_writeLeft t.labelPosition t.task.name small

/-- A whole Gantt chart is drawn alike, the colours of its bars forgotten. -/
theorem alike_paint (l : GanttLayout α) :
    Alike (paint pen font small l) (paint pen.colorless font small l.colorless) := by
  unfold paint GanttLayout.colorless
  refine .append (.append ?_ ?_) ?_
  · exact .flatMap (alike_drawGridLine pen small l.chartTop l.chartBottom) l.gridLines
  · exact .flatMap (alike_drawSection pen font) l.sections
  · rw [List.flatMap_map]
    exact .flatMap (alike_drawTask pen small) l.tasks

end GanttLayout

namespace EntityLayout

variable (pen : Pen) (font small : Font)

/-- An entity has the same box, name and rows. -/
theorem alike_drawEntity (e : PositionedEntity α) :
    Alike (drawEntity pen font small e) (drawEntity pen.colorless font small e) := by
  unfold drawEntity
  refine .append (.append rfl ?_) ?_
  · exact pen.alike_writeCentered e.headerFrame.center e.entity.name font
  · refine .flatMap ?_ (e.entity.attributes.zip e.attributeFrames)
    rintro ⟨a, frame⟩
    exact pen.alike_writeLeft _ (attributeText a) small

variable [Trig α]

/-- A cardinality is drawn by the same strokes. -/
theorem alike_drawCardinality (line : Segment α) (c : Cardinality) :
    Alike (drawCardinality pen line c) (drawCardinality pen.colorless line c) := by
  cases c <;> rfl

/-- A relationship between entities has the same line, ends and label. -/
theorem alike_drawRelationship (p : PositionedEntityRelationship α) :
    Alike (drawRelationship pen small p) (drawRelationship pen.colorless small p) := by
  unfold drawRelationship
  refine .append (.append (.append rfl ?_) ?_) ?_
  · exact alike_drawCardinality pen p.line p.relationship.sourceCardinality
  · exact alike_drawCardinality pen p.line.reversed p.relationship.targetCardinality
  · exact pen.alike_writeLabel p.labelPosition p.relationship.label small

/-- A whole entity diagram is drawn alike. -/
theorem alike_paint (l : EntityLayout α) :
    Alike (paint pen font small l) (paint pen.colorless font small l) :=
  .append (.flatMap (alike_drawRelationship pen small) _)
    (.flatMap (alike_drawEntity pen font small) _)

end EntityLayout

/-! ## Drawings of all kinds -/

namespace Renderer

variable [Trig α] (r : Renderer)

/-- A placed diagram of any kind is drawn alike with colours and without, with the same fonts. -/
theorem alike_draw (l : Layout α) (fonts : FontCache) :
    (r.draw l fonts).1.map (List.map Call.colorless) =
        (r.colorless.draw l.colorless fonts).1.map (List.map Call.colorless) ∧
      (r.draw l fonts).2 = (r.colorless.draw l.colorless fonts).2 := by
  cases l with
  | flowchart l => exact ⟨FlowchartLayout.map_paint r.toPen _ l, rfl⟩
  | sequence l => exact ⟨congrArg Except.ok (SequenceLayout.alike_paint r.toPen _ l), rfl⟩
  | pie l =>
    -- The title is drawn first and may load one more font, so the fonts are followed too.
    have htitle := r.alike_drawTitle (titleLine? l.title l.titlePosition) (r.font none fonts).2
    refine ⟨congrArg Except.ok ?_, htitle.2⟩
    exact Alike.append htitle.1 (PieLayout.alike_paint r.toPen _ l)
  | classes l => exact ⟨congrArg Except.ok (ClassLayout.alike_paint r.toPen _ _ l), rfl⟩
  | states l => exact ⟨congrArg Except.ok (StateLayout.alike_paint r.toPen _ _ l), rfl⟩
  | gantt l =>
    have htitle := r.alike_drawTitle (titleLine? l.title l.titlePosition)
      (r.font (some (r.config.fontSize - 3)) (r.font none fonts).2).2
    refine ⟨congrArg Except.ok ?_, htitle.2⟩
    exact Alike.append htitle.1 (GanttLayout.alike_paint r.toPen _ _ l)
  | entities l => exact ⟨congrArg Except.ok (EntityLayout.alike_paint r.toPen _ _ l), rfl⟩

/-- The image of a placed diagram is alike with colours and without. -/
theorem alike_render (l : Layout α) (fonts : FontCache) :
    (r.render l fonts).1.map Image.colorless =
        (r.colorless.render l.colorless fonts).1.map Image.colorless ∧
      (r.render l fonts).2 = (r.colorless.render l.colorless fonts).2 := by
  rcases r.alike_draw l fonts with ⟨hcalls, hfonts⟩
  refine ⟨?_, hfonts⟩
  change ((r.draw l fonts).1.map _).map _ = ((r.colorless.draw l.colorless fonts).1.map _).map _
  rw [Layout.size_colorless]
  refine map_map_eq hcalls fun calls calls' h => ?_
  unfold Image.colorless
  simp only [h]
  rfl

end Renderer

end TextDiagram
