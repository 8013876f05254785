import TextDiagram.EntityDiagram.Layout
import TextDiagram.Proofs.Boxes
/-!
# Placed entity-relationship diagrams are complete

Main statements:

* `layout_eq_ok_iff`: what a drawing consists of.
* `exists_layout`: the relationships of a well-referenced diagram can be placed, as connectors of boxes.
* `valid_of_mem_namedFrames`: in exact arithmetic the sides of the frames are in order.
-/

namespace TextDiagram

namespace EntityDiagram

section

variable (α : Type) [Scalar α] (config : Config) (diagram : EntityDiagram)

/-- The frames of the entity boxes, in order. -/
def frames : List (Rect α) :=
  Grid.frames (config.padding : α) config.entitySpacing (diagram.entities.map (boxSize config))

/-- The frames under the names of the entities. -/
def namedFrames : List (String × Rect α) :=
  Grid.namedFrames (config.padding : α) config.entitySpacing (boxSize config) diagram.entities

end

variable {α : Type} [Scalar α] {config : Config} {diagram : EntityDiagram}

theorem placeRelationship_eq (frames : List (String × Rect α)) : placeRelationship frames =
    placeBy frames frames (fun r => (r.source, r.target)) fun r source target =>
      ⟨r, source.connector target, (source.connector target).labelPosition⟩ := rfl

/-- A drawing consists of the entities in their frames and of the relationships on their ways. -/
theorem layout_eq_ok_iff {l : EntityLayout α} : diagram.layout config = .ok l ↔
    ∃ relationships, diagram.relationships.mapM (placeRelationship (namedFrames α config diagram)) =
        .ok relationships ∧
      { size := canvasSize (frames α config diagram) (config.padding : α)
        entities := diagram.entities.zipWith (placeEntity config) (frames α config diagram)
        relationships := relationships } = l := by
  have hlayout : diagram.layout config = do
      let relationships ← diagram.relationships.mapM (placeRelationship (namedFrames α config diagram))
      return ⟨canvasSize (frames α config diagram) (config.padding : α),
        diagram.entities.zipWith (placeEntity config) (frames α config diagram), relationships⟩ := rfl
  simp only [hlayout, bind_eq_ok_iff, pure_eq_ok_iff]

variable (α config)

/-- Every entity and every relationship has its place. The boxes have the frames under their names,
and the relationships are connectors of frames. -/
theorem exists_layout (h : diagram.WellReferenced) :
    ∃ l : EntityLayout α, diagram.layout config = .ok l ∧
      l.entities.map (·.entity) = diagram.entities ∧
      l.relationships.map (·.relationship) = diagram.relationships ∧
      Connected (namedFrames α config diagram) l.outlines l.links := by
  -- Only the look-ups of relationships can fail.
  have hplaced : ∃ relationships, diagram.relationships.mapM
      (placeRelationship (namedFrames α config diagram)) = .ok relationships := by
    rw [placeRelationship_eq]
    exact h.linked.exists_placedBy Grid.exists_named
  rcases hplaced with ⟨relationships, hrelationships⟩
  refine ⟨_, layout_eq_ok_iff.2 ⟨relationships, hrelationships, rfl⟩, ?_⟩
  rw [placeRelationship_eq] at hrelationships
  refine ⟨Grid.map_zipWith_frames fun _ _ => rfl, map_of_placedBy (fun _ _ _ => rfl) hrelationships,
    ?_⟩
  refine Grid.connected (fun _ _ => ?_) (fun _ _ _ => ?_) hrelationships
  · rfl
  · rfl

variable {config}

theorem height_boxSize_pos (hheader : 0 ≤ config.entityHeaderHeight)
    (hattribute : 0 ≤ config.entityAttributeHeight) (entity : Entity) :
    0 < (boxSize config entity : Size Rat).height := by
  have hrows : (0 : Rat) ≤
      (Nat.max 1 entity.attributes.length : Rat) * (config.entityAttributeHeight : Rat) :=
    mul_nonneg (Nat.cast_nonneg _) (Rat.intCast_nonneg.2 hattribute)
  have htop : (0 : Rat) ≤ config.entityHeaderHeight := Rat.intCast_nonneg.2 hheader
  simp only [boxSize]
  linarith

/-- In exact arithmetic the sides of the frames are in order. -/
theorem valid_of_mem_namedFrames (hwidth : 0 ≤ config.entityWidth)
    (hheader : 0 ≤ config.entityHeaderHeight) (hattribute : 0 ≤ config.entityAttributeHeight)
    (name : String) (frame : Rect Rat) (h : (name, frame) ∈ namedFrames Rat config diagram) :
    frame.Valid :=
  Grid.valid_of_mem_namedFrames
    (fun entity =>
      ⟨Rat.intCast_nonneg.2 hwidth, (height_boxSize_pos hheader hattribute entity).le⟩)
    name frame h

end EntityDiagram

end TextDiagram
