import TextDiagram.Proofs.Geometry.Canvas
import TextDiagram.Proofs.StateDiagram.Layout
/-!
# State diagrams fit their canvas

States are not shifted. A state fills its cell and a marker stands in the middle of one, so no frame
starts inside the padding if a marker is not larger than a cell.

Main statements:

* `extent_nodeSize_le`: no state is larger than a cell.
* `inside_frames`: the states that transitions are led around.
* `states_inside`, `ways_inside`: a drawing and its canvas.
-/

namespace TextDiagram

/-- A marker is not larger than a state, and the padding has room for detours. -/
structure Config.RoomForStates (config : Config) : Prop where
  radius_nonneg : 0 ≤ config.startEndRadius
  width : 2 * config.startEndRadius ≤ config.stateWidth
  height : 2 * config.startEndRadius ≤ config.stateHeight
  spacing_nonneg : 0 ≤ config.stateSpacing
  padding : 24 ≤ config.padding

namespace Config.RoomForStates

variable {config : Config} (h : config.RoomForStates)

include h

/-- A state that is not smaller than a marker has a size. -/
theorem width_nonneg : 0 ≤ config.stateWidth := by
  have hradius := h.radius_nonneg
  have hwidth := h.width
  omega

theorem height_nonneg : 0 ≤ config.stateHeight := by
  have hradius := h.radius_nonneg
  have hheight := h.height
  omega

end Config.RoomForStates

namespace StateDiagram

variable {config : Config} {diagram : StateDiagram} {l : StateLayout Rat}

/-- The step from one cell to the next does not lead back. -/
theorem step_nonneg (h : config.RoomForStates) (direction : Direction) (axis : Axis) :
    0 ≤ axis.extent (cellGrid config direction : CellGrid Rat).cell +
      axis.extent (cellGrid config direction : CellGrid Rat).spacing :=
  add_nonneg
    (Axis.forall_extent_iff.2
      ⟨Rat.intCast_nonneg.2 h.width_nonneg, Rat.intCast_nonneg.2 h.height_nonneg⟩ axis)
    (Axis.forall_extent_iff.2
      ⟨Rat.intCast_nonneg.2 h.spacing_nonneg, Rat.intCast_nonneg.2 h.spacing_nonneg⟩ axis)

/-- No state is larger than a cell. -/
theorem extent_nodeSize_le (h : config.RoomForStates) (direction : Direction)
    (states : List StateNode) (name : String) (axis : Axis) :
    axis.extent ((cellGrid config direction : CellGrid Rat).nodeSize (markerSizes config states)
      name) ≤ axis.extent (cellGrid config direction : CellGrid Rat).cell := by
  unfold CellGrid.nodeSize
  let sizes : List (String × Size Rat) := markerSizes config states
  -- A state without a size of its own is as large as a cell, a marker is as large as its diameter.
  cases hsize : Keyed.value? sizes name with
  | none => exact le_rfl
  | some size =>
    rcases List.mem_map.1 (Keyed.mem_of_value? hsize) with ⟨state, _, heq⟩
    rcases Prod.mk.inj heq with ⟨-, rfl⟩
    have hwidth : 2 * (config.startEndRadius : Rat) ≤ config.stateWidth := by
      exact_mod_cast h.width
    have hheight : 2 * (config.startEndRadius : Rat) ≤ config.stateHeight := by
      exact_mod_cast h.height
    cases axis with
    | x => exact hwidth
    | y => exact hheight

theorem contains_of_mem (h : config.RoomForStates) {name : String} {r : Rect Rat}
    (hr : (name, r) ∈ (placement Rat config diagram).frames) :
    ((canvasSize ((placement Rat config diagram).frames.map (·.2)) (config.padding : Rat)).inner
      config.padding).Contains r := by
  -- The canvas is made for these frames, so only the low sides have to be compared with the
  -- padding.
  refine contains_of_mem_frames (List.mem_map_of_mem hr) fun axis => ?_
  rcases List.mem_map.1 hr with ⟨node, hnode, heq⟩
  rcases Prod.mk.inj heq with ⟨-, rfl⟩
  exact CellGrid.padding_le_low (cellGrid config diagram.direction) (step_nonneg h _)
    (extent_nodeSize_le h diagram.direction diagram.states) hnode axis

theorem states_inside (h : config.RoomForStates) (hl : diagram.layout config = .ok l)
    {s : PositionedState Rat} (hs : s ∈ l.states) :
    (l.size.inner config.padding).Contains s.frame := by
  rcases of_mem_mapM_eq_ok (of_layout_eq_ok hl).2 hs with ⟨state, -, hplaced⟩
  rcases placeState_eq_ok_iff.1 hplaced with ⟨frame, hframe, _, _, rfl⟩
  rw [size_eq hl]
  exact contains_of_mem h (Keyed.mem_of_value? hframe)

/-- The states that transitions are led around leave the padding free. -/
theorem inside_frames (h : config.RoomForStates) (hl : diagram.layout config = .ok l) :
    (Router.ofBoxes (placement Rat config diagram).frames).Inside l.size config.padding := by
  refine .ofBoxes ?_ (valid_of_mem_frames h.width_nonneg h.height_nonneg h.radius_nonneg)
    fun name r hr => ?_
  · exact_mod_cast h.padding
  · rw [size_eq hl]
    exact contains_of_mem h hr

theorem ways_inside (h : config.RoomForStates) (hl : diagram.layout config = .ok l)
    {t : PositionedTransition Rat} (ht : t ∈ l.transitions) :
    (∀ p ∈ t.path.points, (l.size.inner 0).Covers p) ∧
      ∀ p ∈ t.labelPosition, (l.size.inner 0).Covers p := by
  rcases of_mem_mapM_eq_ok (of_layout_eq_ok hl).1 ht with ⟨transition, -, hplaced⟩
  rcases placeTransition_eq_ok_iff.1 hplaced with ⟨source, hsource, target, htarget, rfl⟩
  have hway := (inside_frames h hl).covers_way hsource htarget
    (cellGrid config diagram.direction) transition.label
  simp only [transitionBetween]
  exact hway

end StateDiagram

end TextDiagram
