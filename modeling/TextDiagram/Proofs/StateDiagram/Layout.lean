import TextDiagram.StateDiagram.Layout
import TextDiagram.Proofs.Attachment
import TextDiagram.Proofs.Placement
import TextDiagram.Proofs.Traversal
/-!
# Placed state diagrams are complete

Main statements:

* `layout_eq_ok_iff`, `of_layout_eq_ok`, `size_eq`: what a drawing consists of.
* `exists_layout`: the states and transitions of a well-referenced diagram can be placed.
* `valid_of_mem_frames`: in exact arithmetic the sides of the frames are in order.
-/

namespace TextDiagram

namespace StateDiagram

section

variable (α : Type) [Scalar α] (config : Config) (diagram : StateDiagram)

/-- The states in the cells of their layers. -/
def placement : Placement α :=
  (cellGrid config diagram.direction).place (diagram.states.map (·.id)) (ends diagram.transitions)
    (markerSizes config diagram.states)

end

variable {α : Type} [Scalar α] {config : Config} {diagram : StateDiagram}

/-- One transition on its way around the states. -/
def placeTransition (grid : CellGrid α) (frames : List (String × Rect α)) (t : StateTransition) :
    Except LayoutError (PositionedTransition α) :=
  routeTransition (Router.ofBoxes frames) grid frames t

section

variable {grid : CellGrid α} {frames : List (String × Rect α)} {layers : List (String × Nat)}

omit [Scalar α] in
theorem placeState_eq : placeState frames layers =
    placeBy frames layers (fun state => (state.id, state.id)) PositionedState.mk := rfl

/-- The way of a transition between the frames of its ends. -/
def transitionBetween (grid : CellGrid α) (frames : List (String × Rect α)) (t : StateTransition)
    (source target : Rect α) : PositionedTransition α :=
  let route := (Router.ofBoxes frames).route t.source t.target (grid.anchors source target)
  ⟨t, route.path, t.label.map fun _ => route.labelPosition⟩

theorem placeTransition_eq : placeTransition grid frames =
    placeBy frames frames (fun t => (t.source, t.target)) (transitionBetween grid frames) := rfl

omit [Scalar α] in
theorem placeState_eq_ok_iff {state : StateNode} {placed : PositionedState α} :
    placeState frames layers state = .ok placed ↔
      ∃ frame, Keyed.value? frames state.id = some frame ∧
        ∃ layer, Keyed.value? layers state.id = some layer ∧ ⟨state, frame, layer⟩ = placed := by
  rw [placeState_eq, placeBy_eq_ok_iff]

theorem placeTransition_eq_ok_iff {t : StateTransition} {placed : PositionedTransition α} :
    placeTransition grid frames t = .ok placed ↔
      ∃ source, Keyed.value? frames t.source = some source ∧
        ∃ target, Keyed.value? frames t.target = some target ∧
          transitionBetween grid frames t source target = placed := by
  rw [placeTransition_eq, placeBy_eq_ok_iff]

end

/-- A drawing consists of the states and transitions on their places. -/
theorem layout_eq_ok_iff {l : StateLayout α} : diagram.layout config = .ok l ↔
    ∃ transitions, diagram.transitions.mapM (placeTransition (cellGrid config diagram.direction)
        (placement α config diagram).frames) = .ok transitions ∧
      ∃ states, diagram.states.mapM (placeState (placement α config diagram).frames
          (placement α config diagram).layerNumbers) = .ok states ∧
        { size := canvasSize ((placement α config diagram).frames.map (·.2)) (config.padding : α)
          states := states
          transitions := transitions } = l := by
  have hlayout : diagram.layout config = do
      let transitions ← diagram.transitions.mapM (placeTransition
        (cellGrid config diagram.direction) (placement α config diagram).frames)
      let states ← diagram.states.mapM (placeState (placement α config diagram).frames
        (placement α config diagram).layerNumbers)
      return ⟨canvasSize ((placement α config diagram).frames.map (·.2)) (config.padding : α),
        states, transitions⟩ := rfl
  simp only [hlayout, bind_eq_ok_iff, pure_eq_ok_iff]

section

variable {l : StateLayout α} (h : diagram.layout config = .ok l)

include h

/-- What a drawing consists of. -/
theorem of_layout_eq_ok :
    diagram.transitions.mapM (placeTransition (cellGrid config diagram.direction)
        (placement α config diagram).frames) = .ok l.transitions ∧
      diagram.states.mapM (placeState (placement α config diagram).frames
        (placement α config diagram).layerNumbers) = .ok l.states := by
  rcases layout_eq_ok_iff.1 h with ⟨transitions, htransitions, states, hstates, rfl⟩
  exact ⟨htransitions, hstates⟩

/-- The canvas is made for the frames of the states. -/
theorem size_eq :
    l.size = canvasSize ((placement α config diagram).frames.map (·.2)) (config.padding : α) := by
  rcases layout_eq_ok_iff.1 h with ⟨transitions, -, states, -, hl⟩
  rw [← hl]

end

variable (α config)

theorem exists_placedTransitions (h : diagram.WellReferenced) :
    ∃ transitions : List (PositionedTransition α), diagram.transitions.mapM
      (placeTransition (cellGrid config diagram.direction) (placement α config diagram).frames) =
        .ok transitions := by
  rw [placeTransition_eq]
  exact h.linked.exists_placedBy CellGrid.exists_frame

theorem exists_placedStates (diagram : StateDiagram) :
    ∃ states : List (PositionedState α), diagram.states.mapM
      (placeState (placement α config diagram).frames
        (placement α config diagram).layerNumbers) = .ok states := by
  rw [placeState_eq]
  exact exists_placedBy (fun state hstate => CellGrid.exists_frame (List.mem_map_of_mem hstate))
    fun state hstate => CellGrid.exists_layer (List.mem_map_of_mem hstate)

/-- Every state and every transition has its place, transitions between the frames of their own
ends. -/
theorem exists_layout (h : diagram.WellReferenced) :
    ∃ l : StateLayout α, diagram.layout config = .ok l ∧
      l.states.map (·.state) = diagram.states ∧
      l.transitions.map (·.transition) = diagram.transitions ∧
      Framed (placement α config diagram).frames l.outlines l.links := by
  rcases exists_placedTransitions α config h with ⟨transitions, htransitions⟩
  rcases exists_placedStates α config diagram with ⟨states, hstates⟩
  refine ⟨_, layout_eq_ok_iff.2 ⟨transitions, htransitions, states, hstates, rfl⟩, ?_⟩
  rw [placeTransition_eq] at htransitions
  rw [placeState_eq] at hstates
  refine ⟨map_of_placedBy (fun _ _ _ => rfl) hstates,
    map_of_placedBy (fun _ _ _ => rfl) htransitions, ?_, ?_⟩
  · -- A state is drawn in the frame that its transitions have looked up.
    exact box_of_placedBy (fun _ _ _ => rfl) hstates
  · refine between_of_placedBy (fun t source target => ⟨_, rfl, ?_⟩) htransitions
    simp only [transitionBetween, Router.ends_route]
    exact Rect.anchors_mem_sideMiddles source target _

variable {config}

/-- In exact arithmetic the sides of the frames are in order. -/
theorem valid_of_mem_frames (hwidth : 0 ≤ config.stateWidth) (hheight : 0 ≤ config.stateHeight)
    (hradius : 0 ≤ config.startEndRadius) (name : String) (frame : Rect Rat)
    (h : (name, frame) ∈ (placement Rat config diagram).frames) : frame.Valid := by
  refine CellGrid.valid_of_mem_frames (fun name => ?_) h
  unfold CellGrid.nodeSize
  let sizes : List (String × Size Rat) := markerSizes config diagram.states
  cases hsize : Keyed.value? sizes name with
  | none => exact ⟨Rat.intCast_nonneg.2 hwidth, Rat.intCast_nonneg.2 hheight⟩
  | some size =>
    -- Only the marker has a size of its own.
    rcases List.mem_map.1 (Keyed.mem_of_value? hsize) with ⟨state, _, heq⟩
    rcases Prod.mk.inj heq with ⟨-, rfl⟩
    have hside : (0 : Rat) ≤ 2 * (config.startEndRadius : Rat) :=
      mul_nonneg (by norm_num) (Rat.intCast_nonneg.2 hradius)
    exact ⟨hside, hside⟩

end StateDiagram

end TextDiagram
