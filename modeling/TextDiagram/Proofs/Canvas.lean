import TextDiagram.Proofs.Completeness
import TextDiagram.Proofs.Flowchart.Canvas
import TextDiagram.Proofs.StateDiagram.Canvas
/-!
# Layered diagrams fit their canvas

Main statement: `fits_canvas`, the drawings of flowcharts and state diagrams lie on their canvas, the
frames inside the padding. `fits_canvas_around_middle` shows it of two drawings with detours.
-/

namespace TextDiagram.Diagram

/-- In the drawing of a flowchart or a state diagram all frames leave the padding free on all four
sides, a flowchart's right up to it on the left and on top, and all ways of edges and the places of
their labels are on the canvas. -/
theorem fits_canvas (config : Config) (text : String) :
    (config.RoomForFlowcharts → ∀ chart, parse text = .ok (.flowchart chart) →
      ∃ l : FlowchartLayout Rat, chart.layout config = .ok l ∧
        (∀ r ∈ l.frames, (l.size.inner config.padding).Contains r) ∧
        (∀ e ∈ l.edges, (∀ p ∈ e.path.points, (l.size.inner 0).Covers p) ∧
          ∀ p ∈ e.labelPosition, (l.size.inner 0).Covers p) ∧
        (chart.nodes ≠ [] → ∀ axis : Axis,
          IsLeast {low | ∃ r ∈ l.frames, axis.low r = low} (config.padding : Rat))) ∧
    (config.RoomForStates → ∀ diagram, parse text = .ok (.states diagram) →
      ∃ l : StateLayout Rat, diagram.layout config = .ok l ∧
        (∀ s ∈ l.states, (l.size.inner config.padding).Contains s.frame) ∧
        ∀ t ∈ l.transitions, (∀ p ∈ t.path.points, (l.size.inner 0).Covers p) ∧
          ∀ p ∈ t.labelPosition, (l.size.inner 0).Covers p) := by
  constructor
  · intro hroom chart hparse
    rcases exists_ofLines_of_parse hparse with ⟨kind, header, lines, heq⟩
    have hwell : chart.WellReferenced := by
      have hlines := wellReferenced_ofLines kind header lines
      rwa [← heq] at hlines
    rcases Flowchart.exists_layout Rat config hwell with ⟨l, hl, -⟩
    -- Frames, ways and the least side, each by its own lemma.
    refine ⟨l, hl, ?_, ?_, ?_⟩
    · intro r hr
      exact Flowchart.frames_inside hl hwell.linked hr
    · intro e he
      exact Flowchart.ways_inside hroom hl he
    · intro hnodes axis
      exact Flowchart.isLeast_low hl hwell.linked hnodes axis
  · intro hroom diagram hparse
    rcases exists_ofLines_of_parse hparse with ⟨kind, header, lines, heq⟩
    have hwell : diagram.WellReferenced := by
      have hlines := wellReferenced_ofLines kind header lines
      rwa [← heq] at hlines
    rcases StateDiagram.exists_layout Rat config hwell with ⟨l, hl, -⟩
    refine ⟨l, hl, ?_, ?_⟩
    · intro s hs
      exact StateDiagram.states_inside hroom hl hs
    · intro t ht
      exact StateDiagram.ways_inside hroom hl ht

/-- Two detours in the light theme: in a flowchart with a block, and between states and a marker. -/
theorem fits_canvas_around_middle :
    ∃ chart diagram,
      parse "flowchart TD\nsubgraph one\nA-->B\nend\nB-->C\nA-->|back|C" = .ok (.flowchart chart) ∧
      parse "stateDiagram-v2\n[*]-->A\nA-->B\n[*]-->B" = .ok (.states diagram) ∧
      Config.light.RoomForFlowcharts ∧ Config.light.RoomForStates ∧ chart.nodes ≠ [] ∧
      (∃ l : FlowchartLayout Rat, chart.layout Config.light = .ok l ∧ l.frames.length = 4 ∧
        (∀ r ∈ l.frames, (l.size.inner Config.light.padding).Contains r) ∧
        (∃ e ∈ l.edges, e.path.points.length = 4 ∧ ∃ p ∈ e.labelPosition,
          (l.size.inner 0).Covers p) ∧
        IsLeast {top | ∃ r ∈ l.frames, r.top = top} (Config.light.padding : Rat)) ∧
      ∃ l : StateLayout Rat, diagram.layout Config.light = .ok l ∧
        (∀ s ∈ l.states, (l.size.inner Config.light.padding).Contains s.frame) ∧
        ∃ t ∈ l.transitions, t.path.points.length = 4 ∧
          ∀ p ∈ t.path.points, (l.size.inner 0).Covers p := by
  have hparse : parse "flowchart TD\nsubgraph one\nA-->B\nend\nB-->C\nA-->|back|C" =
      .ok (.flowchart
        ⟨.topDown, [⟨"A", "A", .rectangle⟩, ⟨"B", "B", .rectangle⟩, ⟨"C", "C", .rectangle⟩],
          [⟨"A", "B", none, .solid⟩, ⟨"B", "C", none, .solid⟩, ⟨"A", "C", some "back", .solid⟩],
          [⟨"one", "one", ["A", "B"], []⟩], [], []⟩) := rfl
  have hroom : Config.light.RoomForFlowcharts := ⟨by decide, by decide, by decide⟩
  have hroom' : Config.light.RoomForStates :=
    ⟨by decide, by decide, by decide, by decide, by decide⟩
  have hparse' : parse "stateDiagram-v2\n[*]-->A\nA-->B\n[*]-->B" = .ok (.states
      ⟨[⟨"A", "A", none⟩, ⟨"B", "B", none⟩, ⟨"[*]", "", none⟩],
        [⟨"[*]", "A", none⟩, ⟨"A", "B", none⟩, ⟨"[*]", "B", none⟩], .topDown⟩) := rfl
  rcases (fits_canvas Config.light _).1 hroom _ hparse with ⟨l, hl, hframes, hways, hleast⟩
  rcases (fits_canvas Config.light _).2 hroom' _ hparse' with ⟨l', hl', hstates, hways'⟩
  -- What is particular about the two drawings is computed: four frames, and a detour in each.
  have hcount : l.frames.length = 4 := by
    cases hl
    decide +kernel
  have hdetour : ∃ e ∈ l.edges, e.path.points.length = 4 ∧ e.labelPosition.isSome := by
    cases hl
    decide +kernel
  have hdetour' : ∃ t ∈ l'.transitions, t.path.points.length = 4 := by
    cases hl'
    decide +kernel
  rcases hdetour with ⟨e, he, hcorners, hlabel⟩
  rcases Option.isSome_iff_exists.1 hlabel with ⟨p, hp⟩
  rcases hdetour' with ⟨t, ht, hcorners'⟩
  refine ⟨_, _, hparse, hparse', hroom, hroom', by decide, ⟨l, hl, hcount, hframes, ?_, ?_⟩,
    ⟨l', hl', hstates, t, ht, hcorners', (hways' t ht).1⟩⟩
  · exact ⟨e, he, hcorners, p, hp, (hways e he).2 p hp⟩
  · exact hleast (by decide) .y

end TextDiagram.Diagram
