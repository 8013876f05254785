import TextDiagram.ClassDiagram.Layout
import TextDiagram.Proofs.Boxes
/-!
# Placed class diagrams are complete

Main statements:

* `layout_eq_ok_iff`: what a drawing consists of.
* `exists_layout`: the relationships of a well-referenced diagram can be placed, as connectors of boxes.
* `valid_of_mem_namedFrames`: in exact arithmetic the sides of the frames are in order.
-/

namespace TextDiagram

namespace ClassDiagram

section

variable (α : Type) [Scalar α] (config : Config) (diagram : ClassDiagram)

/-- The frames of the class boxes, in order. -/
def frames : List (Rect α) :=
  Grid.frames (config.padding : α) config.classSpacing (diagram.classes.map (boxSize config))

/-- The frames under the names of the classes. -/
def namedFrames : List (String × Rect α) :=
  Grid.namedFrames (config.padding : α) config.classSpacing (boxSize config) diagram.classes

end

variable {α : Type} [Scalar α] {config : Config} {diagram : ClassDiagram}

/-- A relationship between two boxes, with the places of its texts. -/
def relationshipBetween (r : ClassRelationship) (source target : Rect α) :
    PositionedRelationship α :=
  let line := source.connector target
  { relationship := r
    line := line
    labelPosition := placeFor r.label line.labelPosition
    sourceLabelPosition := placeFor r.sourceCardinality line.startLabelPosition
    targetLabelPosition := placeFor r.targetCardinality line.reversed.startLabelPosition }

theorem placeRelationship_eq (frames : List (String × Rect α)) : placeRelationship frames =
    placeBy frames frames (fun r => (r.source, r.target)) relationshipBetween := rfl

/-- A drawing consists of the classes in their frames and of the relationships on their ways. -/
theorem layout_eq_ok_iff {l : ClassLayout α} : diagram.layout config = .ok l ↔
    ∃ relationships, diagram.relationships.mapM (placeRelationship (namedFrames α config diagram)) =
        .ok relationships ∧
      { size := canvasSize (frames α config diagram) (config.padding : α)
        classes := diagram.classes.zipWith (placeClass config) (frames α config diagram)
        relationships := relationships } = l := by
  have hlayout : diagram.layout config = do
      let relationships ← diagram.relationships.mapM (placeRelationship (namedFrames α config diagram))
      return ⟨canvasSize (frames α config diagram) (config.padding : α),
        diagram.classes.zipWith (placeClass config) (frames α config diagram), relationships⟩ := rfl
  simp only [hlayout, bind_eq_ok_iff, pure_eq_ok_iff]

variable (α config)

/-- Every class and every relationship has its place. The boxes have the frames under their names,
and the relationships are connectors of frames. -/
theorem exists_layout (h : diagram.WellReferenced) :
    ∃ l : ClassLayout α, diagram.layout config = .ok l ∧
      l.classes.map (·.classDef) = diagram.classes ∧
      l.relationships.map (·.relationship) = diagram.relationships ∧
      Connected (namedFrames α config diagram) l.outlines l.links := by
  -- Only the look-ups of relationships can fail.
  have hplaced : ∃ relationships, diagram.relationships.mapM
      (placeRelationship (namedFrames α config diagram)) = .ok relationships := by
    rw [placeRelationship_eq]
    exact h.linked.exists_placedBy Grid.exists_named
  rcases hplaced with ⟨relationships, hrelationships⟩
  refine ⟨_, layout_eq_ok_iff.2 ⟨relationships, hrelationships, rfl⟩, ?_⟩
  rw [placeRelationship_eq] at hrelationships
  refine ⟨Grid.map_zipWith_frames fun _ _ => rfl, map_of_placedBy (fun _ _ _ => rfl) hrelationships,
    ?_⟩
  refine Grid.connected (fun _ _ => ?_) (fun _ _ _ => ?_) hrelationships
  · rfl
  · rfl

variable {config}

theorem height_boxSize_pos (hheader : 0 ≤ config.classHeaderHeight)
    (hmember : 0 ≤ config.classMemberHeight) (c : ClassDefinition) :
    0 < (boxSize config c : Size Rat).height := by
  have hcompartment : ∀ members, (0 : Rat) ≤ compartmentHeight config members := fun members =>
    mul_nonneg (Nat.cast_nonneg _) (Rat.intCast_nonneg.2 hmember)
  have hproperties := hcompartment c.properties
  have hmethods := hcompartment c.methods
  have htop : (0 : Rat) ≤ config.classHeaderHeight := Rat.intCast_nonneg.2 hheader
  -- Nothing is negative, and there are four pixels below the compartments.
  simp only [boxSize]
  linarith

/-- In exact arithmetic the sides of the frames are in order. -/
theorem valid_of_mem_namedFrames (hwidth : 0 ≤ config.classBoxWidth)
    (hheader : 0 ≤ config.classHeaderHeight) (hmember : 0 ≤ config.classMemberHeight)
    (name : String) (frame : Rect Rat) (h : (name, frame) ∈ namedFrames Rat config diagram) :
    frame.Valid :=
  Grid.valid_of_mem_namedFrames
    (fun c => ⟨Rat.intCast_nonneg.2 hwidth, (height_boxSize_pos hheader hmember c).le⟩) name frame h

end ClassDiagram

end TextDiagram
