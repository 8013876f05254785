import Mathlib.Tactic.Positivity
import TextDiagram.Proofs.Geometry.Canvas
import TextDiagram.Proofs.Integrity
import TextDiagram.Proofs.Sequence.Layout
/-!
# Sequence diagrams fit their canvas

The places of participants and of messages are computed from their numbers alone: a participant stands in
a column and a message in a row. The width of the canvas comes from the number of columns and its height
from the number of rows. Loops stick out to the right of their column and below their row, so for the
last column and the last row they need the room that is left there.

Main statements:

* `right_add_spacing_le_left`, `rowY_lt`: columns from left to right, rows from top to bottom.
* `exists_joins_of_mem`: the lifelines that a message passes between, and its way.
* `margin_contains_header`, `lifelineX_bounds`: the columns on the canvas.
* `point_between`: messages stay between the headers and the ends of the lifelines.
* `layout_arranged`: headers, lifelines and messages of the diagram of a text.
-/

namespace TextDiagram

/-- No size is negative, rows are set apart, and a loop ends before the canvas does. -/
structure Config.RoomForSequences (config : Config) : Prop where
  padding_nonneg : 0 ≤ config.padding
  width_nonneg : 0 ≤ config.participantWidth
  height_nonneg : 0 ≤ config.participantHeight
  spacing_nonneg : 0 ≤ config.participantSpacing
  rows_pos : 0 < config.messageSpacing
  loops : (40 : Rat) ≤ config.padding + config.participantWidth / 2

/-- The way of a message between the lifelines of its participants: straight across, or back to the same
lifeline with two turns to the right of it. -/
structure PositionedMessage.Joins {α : Type} [Scalar α] (m : PositionedMessage α)
    (source target : PositionedParticipant α) : Prop where
  source_id : source.participant.id = m.message.source
  target_id : target.participant.id = m.message.target
  straight : m.message.source ≠ m.message.target →
    m.path.points = [⟨source.lifelineX, m.y⟩, ⟨target.lifelineX, m.y⟩]
  loop : m.message.source = m.message.target → m.path.points =
    [⟨source.lifelineX, m.y⟩, ⟨source.lifelineX + 40, m.y⟩,
      ⟨source.lifelineX + 40, m.y + 20⟩, ⟨source.lifelineX, m.y + 20⟩]

/-- No point of a way is farther to the right of a lifeline or farther below its row than a loop is. -/
theorem PositionedMessage.Joins.bounds {m : PositionedMessage Rat}
    {source target : PositionedParticipant Rat} (h : m.Joins source target) {p : Point Rat}
    (hp : p ∈ m.path.points) :
    (∃ q, (q = source ∨ q = target) ∧ q.lifelineX ≤ p.x ∧ p.x ≤ q.lifelineX + 40) ∧
      m.y ≤ p.y ∧ p.y ≤ m.y + 20 := by
  by_cases hself : m.message.source = m.message.target
  · rw [h.loop hself] at hp
    simp only [List.mem_cons, List.not_mem_nil, or_false] at hp
    obtain rfl | rfl | rfl | rfl := hp <;>
      exact ⟨⟨source, Or.inl rfl, by simp, by simp⟩, by simp, by simp⟩
  · rw [h.straight hself] at hp
    simp only [List.mem_cons, List.not_mem_nil, or_false] at hp
    obtain rfl | rfl := hp
    · exact ⟨⟨source, Or.inl rfl, by simp, by simp⟩, by simp, by simp⟩
    · exact ⟨⟨target, Or.inr rfl, by simp, by simp⟩, by simp, by simp⟩

/-- Headers stand side by side with the spacing free between them and a lifeline below the middle of each;
messages pass between lifelines, each in its row, from below the headers to where the lifelines end. -/
structure SequenceLayout.Arranged (config : Config) (l : SequenceLayout Rat) : Prop where
  headers : l.participants.Pairwise fun a b =>
    a.headerFrame.right + (config.participantSpacing : Rat) ≤ b.headerFrame.left
  sizes : ∀ p ∈ l.participants, p.headerFrame.width = config.participantWidth ∧
    p.headerFrame.height = config.participantHeight
  lifelines : ∀ p ∈ l.participants, p.lifelineX = p.headerFrame.center.x ∧
    p.lifelineTop = p.headerFrame.bottom
  rows : l.messages.Pairwise fun a b => a.y < b.y
  joined : ∀ m ∈ l.messages, ∃ source ∈ l.participants, ∃ target ∈ l.participants,
    m.Joins source target
  between : ∀ m ∈ l.messages, ∀ point ∈ m.path.points, ∀ p ∈ l.participants,
    p.headerFrame.bottom ≤ point.y ∧ point.y ≤ p.lifelineBottom

/-- Nothing that is drawn reaches beyond the canvas. -/
structure SequenceLayout.OnCanvas (l : SequenceLayout Rat) : Prop where
  headers : ∀ p ∈ l.participants, (l.size.inner 0).Contains p.headerFrame
  lifelines : ∀ p ∈ l.participants, (l.size.inner 0).Covers ⟨p.lifelineX, p.lifelineTop⟩ ∧
    (l.size.inner 0).Covers ⟨p.lifelineX, p.lifelineBottom⟩
  messages : ∀ m ∈ l.messages, ∀ point ∈ m.path.points, (l.size.inner 0).Covers point

namespace SequenceDiagram

/-! ## Messages and their lifelines -/

section

variable {α : Type} [Scalar α] {config : Config} {diagram : SequenceDiagram}
  {messages : List (PositionedMessage α)}

theorem exists_participant_of_lifeline {id : String} {x : α}
    (h : Keyed.value? (lifelines α config diagram) id = some x) :
    ∃ p ∈ placedParticipants α config diagram, p.participant.id = id ∧ p.lifelineX = x := by
  obtain ⟨p, hp, heq⟩ := List.mem_map.1 (Keyed.mem_of_value? h)
  obtain ⟨hid, hx⟩ := Prod.mk.inj heq
  exact ⟨p, hp, hid, hx⟩

variable (h : placeMessages config (lifelines α config diagram) 0 diagram.messages = .ok messages)

include h

theorem map_message_of_placeMessages : messages.map (·.message) = diagram.messages := by
  rw [placeMessages_eq_mapM] at h
  refine (map_of_mapM_eq_ok (fun entry placed hplaced => ?_) h).trans (List.zipIdx_map_fst 0 _)
  obtain ⟨_, _, _, _, rfl⟩ := placeMessage_eq_ok_iff.1 hplaced
  split <;> rfl

/-- The messages take the rows one after the other. -/
theorem map_y_of_placeMessages :
    messages.map (·.y) = (List.range' 0 diagram.messages.length).map (rowY α config) := by
  rw [placeMessages_eq_mapM] at h
  rw [← List.zipIdx_map_snd, List.map_map]
  refine map_of_mapM_eq_ok (fun entry placed hplaced => ?_) h
  obtain ⟨_, _, _, _, rfl⟩ := placeMessage_eq_ok_iff.1 hplaced
  split <;> rfl

theorem exists_row_of_mem {m : PositionedMessage α} (hm : m ∈ messages) :
    ∃ index < diagram.messages.length, m.y = rowY α config index := by
  have hy : m.y ∈ messages.map (·.y) := List.mem_map_of_mem hm
  rw [map_y_of_placeMessages h] at hy
  obtain ⟨index, hindex, heq⟩ := List.mem_map.1 hy
  exact ⟨index, by simpa using hindex, heq.symm⟩

/-- A message joins two of the placed participants. -/
theorem exists_joins_of_mem {m : PositionedMessage α} (hm : m ∈ messages) :
    ∃ source ∈ placedParticipants α config diagram,
      ∃ target ∈ placedParticipants α config diagram, m.Joins source target := by
  rw [placeMessages_eq_mapM] at h
  obtain ⟨⟨message, index⟩, -, hplaced⟩ := of_mem_mapM_eq_ok h hm
  obtain ⟨x, hx, x', hx', rfl⟩ := placeMessage_eq_ok_iff.1 hplaced
  obtain ⟨source, hsource, hid, rfl⟩ := exists_participant_of_lifeline hx
  obtain ⟨target, htarget, hid', rfl⟩ := exists_participant_of_lifeline hx'
  refine ⟨source, hsource, target, htarget, ?_⟩
  -- A message to itself is a loop, any other one is straight.
  by_cases hself : message.source = message.target
  · rw [if_pos hself]
    exact ⟨hid, hid', fun hne => absurd hself hne, fun _ => rfl⟩
  · rw [if_neg hself]
    exact ⟨hid, hid', fun _ => rfl, fun heq => absurd heq hself⟩

end

/-! ## Columns and rows -/

section

variable {config : Config} (hroom : config.RoomForSequences) {index later count : Nat}

include hroom

/-- From a header to any later one the spacing is free. -/
theorem right_add_spacing_le_left (hlt : index < later) :
    (header config index : Rect Rat).right + config.participantSpacing ≤
      (header config later : Rect Rat).left := by
  have hwidth : (0 : Rat) ≤ config.participantWidth := Rat.intCast_nonneg.2 hroom.width_nonneg
  have hspacing : (0 : Rat) ≤ config.participantSpacing := Rat.intCast_nonneg.2 hroom.spacing_nonneg
  have hstep : ((index : Rat) + 1) * (config.participantWidth + config.participantSpacing) ≤
      (later : Rat) * (config.participantWidth + config.participantSpacing) :=
    mul_le_mul_of_nonneg_right (by exact_mod_cast hlt) (add_nonneg hwidth hspacing)
  simp only [header, Rect.ofSize]
  linarith

/-- Every row is below the rows before it. -/
theorem rowY_lt (hlt : index < later) : rowY Rat config index < rowY Rat config later := by
  have hrows : (0 : Rat) < config.messageSpacing := Rat.intCast_pos.2 hroom.rows_pos
  have hstep : ((index + 1 : Nat) : Rat) * config.messageSpacing <
      ((later + 1 : Nat) : Rat) * config.messageSpacing :=
    mul_lt_mul_of_pos_right (Nat.cast_lt.2 (Nat.succ_lt_succ hlt)) hrows
  simp only [rowY]
  linarith

/-- The headers leave the padding free on the canvas that is made for them and for some rows. -/
theorem margin_contains_header (hlt : index < count) (rows : Nat) :
    ((⟨canvasWidth config count, rowsBottom config rows + (config.padding : Rat)⟩ :
      Size Rat).inner config.padding).Contains (header config index) := by
  have hwidth : (0 : Rat) ≤ config.participantWidth := Rat.intCast_nonneg.2 hroom.width_nonneg
  have hspacing : (0 : Rat) ≤ config.participantSpacing := Rat.intCast_nonneg.2 hroom.spacing_nonneg
  have hrows : (0 : Rat) < config.messageSpacing := Rat.intCast_pos.2 hroom.rows_pos
  have hleft : (0 : Rat) ≤ (index : Rat) * (config.participantWidth + config.participantSpacing) := by
    positivity
  have hright : (index : Rat) * (config.participantWidth + config.participantSpacing) ≤
      ((count - 1 : Nat) : Rat) * (config.participantWidth + config.participantSpacing) :=
    mul_le_mul_of_nonneg_right (by exact_mod_cast (by omega)) (add_nonneg hwidth hspacing)
  have hdown : (0 : Rat) ≤ (rows : Rat) * config.messageSpacing := by positivity
  -- The width counts headers and the gaps between them, of which there is one less.
  have hcount : (count : Rat) = ((count - 1 : Nat) : Rat) + 1 := by
    exact_mod_cast (by omega)
  rw [Rect.contains_iff]
  simp only [Size.inner, header, Rect.ofSize, canvasWidth, rowsBottom, rowsTop,
    if_neg (Nat.ne_of_gt (Nat.zero_lt_of_lt hlt))]
  rw [hcount]
  refine ⟨?_, ?_, ?_, ?_⟩ <;> linarith

end

/-! ## The drawing -/

section

variable {config : Config} {diagram : SequenceDiagram} {p : PositionedParticipant Rat}
  {messages : List (PositionedMessage Rat)} {m : PositionedMessage Rat} {point : Point Rat}

/-- The canvas of a diagram. -/
def canvas (config : Config) (diagram : SequenceDiagram) : Size Rat :=
  ⟨canvasWidth config diagram.participants.length,
    rowsBottom config diagram.messages.length + (config.padding : Rat)⟩

theorem exists_header_of_mem (hp : p ∈ placedParticipants Rat config diagram) :
    ∃ index < diagram.participants.length, p.headerFrame = header config index ∧
      p.lifelineX = p.headerFrame.center.x ∧ p.lifelineTop = p.headerFrame.bottom ∧
      p.lifelineBottom = rowsBottom config diagram.messages.length := by
  obtain ⟨index, hindex, rfl⟩ := List.mem_mapIdx.1 hp
  exact ⟨index, hindex, rfl, rfl, rfl, rfl⟩

theorem size_headerFrame (hp : p ∈ placedParticipants Rat config diagram) :
    p.headerFrame.width = config.participantWidth ∧
      p.headerFrame.height = config.participantHeight := by
  obtain ⟨index, -, hheader, -⟩ := exists_header_of_mem hp
  rw [hheader]
  exact ⟨add_sub_cancel_left _ _, add_sub_cancel_left _ _⟩

variable (hroom : config.RoomForSequences)

include hroom

/-- On both sides of a lifeline there is room for the padding and half a header. -/
theorem lifelineX_bounds (hp : p ∈ placedParticipants Rat config diagram) :
    (config.padding : Rat) + config.participantWidth / 2 ≤ p.lifelineX ∧
      p.lifelineX + (config.padding + config.participantWidth / 2) ≤
        (canvas config diagram).width := by
  obtain ⟨index, hindex, hheader, hx, -⟩ := exists_header_of_mem hp
  have hmargin := margin_contains_header hroom hindex diagram.messages.length
  have hleft := hmargin.left
  have hright := hmargin.right
  have hwidth := (size_headerFrame hp).1
  rw [← hheader] at hleft hright
  simp only [Size.inner, Rect.width] at hleft hright hwidth
  rw [hx, Rect.center, canvas]
  constructor <;> linarith

/-- The part of the canvas from the headers to the ends of the lifelines. -/
theorem covers_of_between (hpoint : 0 ≤ point.x ∧ point.x ≤ (canvas config diagram).width)
    (hbetween : lifelineTop Rat config ≤ point.y ∧
      point.y ≤ rowsBottom config diagram.messages.length) :
    ((canvas config diagram).inner 0).Covers point := by
  have hpadding : (0 : Rat) ≤ config.padding := Rat.intCast_nonneg.2 hroom.padding_nonneg
  have hheight : (0 : Rat) ≤ config.participantHeight := Rat.intCast_nonneg.2 hroom.height_nonneg
  obtain ⟨hx, hx'⟩ := hpoint
  obtain ⟨hy, hy'⟩ := hbetween
  simp only [lifelineTop] at hy
  constructor <;> simp only [Size.inner, canvas] at hx' ⊢ <;> linarith

variable (h : placeMessages config (lifelines Rat config diagram) 0 diagram.messages = .ok messages)

include h

/-- A message stays between the headers and the ends of the lifelines. -/
theorem point_between (hm : m ∈ messages) (hpoint : point ∈ m.path.points) :
    lifelineTop Rat config ≤ point.y ∧ point.y ≤ rowsBottom config diagram.messages.length := by
  obtain ⟨index, hindex, hy⟩ := exists_row_of_mem h hm
  obtain ⟨source, -, target, -, hjoins⟩ := exists_joins_of_mem h hm
  obtain ⟨-, habove, hbelow⟩ := hjoins.bounds hpoint
  obtain ⟨htop, hbottom⟩ := rowY_bounds hroom.rows_pos.le hindex
  rw [hy] at habove hbelow
  constructor <;> linarith

theorem arranged_of_placeMessages : SequenceLayout.Arranged config
    ⟨canvas config diagram, placedParticipants Rat config diagram, messages⟩ where
  headers := pairwise_mapIdx (fun _ _ _ _ hlt => right_add_spacing_le_left hroom hlt) _
  sizes p hp := size_headerFrame hp
  lifelines p hp := by
    obtain ⟨index, -, -, hx, htop, -⟩ := exists_header_of_mem hp
    exact ⟨hx, htop⟩
  rows := by
    rw [← List.pairwise_map, map_y_of_placeMessages h, List.pairwise_map]
    exact (List.pairwise_lt_range' 1 one_pos).imp (rowY_lt hroom)
  joined m hm := exists_joins_of_mem h hm
  between m hm point hpoint p hp := by
    obtain ⟨index, -, hheader, -, -, hbottom⟩ := exists_header_of_mem hp
    rw [hheader, hbottom]
    exact point_between hroom h hm hpoint

theorem onCanvas_of_placeMessages : SequenceLayout.OnCanvas
    ⟨canvas config diagram, placedParticipants Rat config diagram, messages⟩ := by
  have hpadding : (0 : Rat) ≤ config.padding := Rat.intCast_nonneg.2 hroom.padding_nonneg
  have hwidth : (0 : Rat) ≤ config.participantWidth := Rat.intCast_nonneg.2 hroom.width_nonneg
  constructor
  case headers =>
    intro p hp
    obtain ⟨index, hindex, hheader, -⟩ := exists_header_of_mem hp
    rw [hheader]
    exact (Size.inner_contains_inner _ hpadding).trans (margin_contains_header hroom hindex _)
  case lifelines =>
    intro p hp
    obtain ⟨index, hindex, hheader, -, htop, hbottom⟩ := exists_header_of_mem hp
    obtain ⟨hleft, hright⟩ := lifelineX_bounds hroom hp
    have hx : 0 ≤ p.lifelineX ∧ p.lifelineX ≤ (canvas config diagram).width := by
      constructor <;> linarith
    -- A header ends above the margin at the bottom, which starts where the lifelines end.
    have hend : lifelineTop Rat config ≤ rowsBottom config diagram.messages.length := by
      have hmargin := (margin_contains_header hroom hindex diagram.messages.length).bottom
      simp only [Size.inner, add_sub_cancel_right] at hmargin
      exact hmargin
    rw [htop, hbottom, hheader]
    exact ⟨covers_of_between hroom hx ⟨le_rfl, hend⟩, covers_of_between hroom hx ⟨hend, le_rfl⟩⟩
  case messages =>
    intro m hm point hpoint
    obtain ⟨source, hsource, target, htarget, hjoins⟩ := exists_joins_of_mem h hm
    obtain ⟨⟨q, hq, hleft, hright⟩, -⟩ := hjoins.bounds hpoint
    have hmem : q ∈ placedParticipants Rat config diagram := by
      obtain rfl | rfl := hq
      · exact hsource
      · exact htarget
    obtain ⟨hstart, hstop⟩ := lifelineX_bounds hroom hmem
    -- A loop is as wide as the room beside the last lifeline at most.
    have hloops := hroom.loops
    refine covers_of_between hroom ⟨?_, ?_⟩ (point_between hroom h hm hpoint)
    · linarith
    · linarith

end

/-- The drawing of the diagram of a text has all of its participants and messages in order: the headers
from left to right with the spacing free between them, each message in a row of its own below the one
before, straight from lifeline to lifeline or in a loop beside one, and all of it on the canvas. -/
theorem layout_arranged {config : Config} (hroom : config.RoomForSequences) {text : String}
    {diagram : SequenceDiagram} (hparse : Diagram.parse text = .ok (.sequence diagram)) :
    (Keyed.keys diagram.participants).Nodup ∧
      ∃ l : SequenceLayout Rat, diagram.layout config = .ok l ∧
        l.participants.map (·.participant) = diagram.participants ∧
        l.messages.map (·.message) = diagram.messages ∧ l.Arranged config ∧ l.OnCanvas := by
  have hwell : diagram.WellReferenced := by
    obtain ⟨kind, header, lines, heq⟩ := Diagram.exists_ofLines_of_parse hparse
    have hlines := Diagram.wellReferenced_ofLines kind header lines
    rwa [← heq] at hlines
  obtain ⟨messages, hmessages⟩ := exists_placedMessages Rat config hwell
  have h := (placeMessages_eq_mapM _).trans hmessages
  exact ⟨hwell.nodup, _, layout_eq_ok h, participants_placedParticipants Rat config diagram,
    map_message_of_placeMessages h, arranged_of_placeMessages hroom h,
    onCanvas_of_placeMessages hroom h⟩

/-- A loop beside the last lifeline, in the last row. -/
theorem layout_arranged_last_loop :
    ∃ diagram, Diagram.parse "sequenceDiagram\nA->>B: ask\nB->>B: think" = .ok (.sequence diagram) ∧
      Config.light.RoomForSequences ∧
      ∃ l : SequenceLayout Rat, diagram.layout Config.light = .ok l ∧
        l.participants.map (·.participant) = [⟨"A", "A", false⟩, ⟨"B", "B", false⟩] ∧
        l.messages.map (·.path.points) =
          [[⟨100, 150⟩, ⟨260, 150⟩], [⟨260, 200⟩, ⟨300, 200⟩, ⟨300, 220⟩, ⟨260, 220⟩]] ∧
        l.size = ⟨360, 280⟩ ∧ l.Arranged Config.light ∧ l.OnCanvas := by
  have hparse : Diagram.parse "sequenceDiagram\nA->>B: ask\nB->>B: think" = .ok (.sequence
      ⟨[⟨"A", "A", false⟩, ⟨"B", "B", false⟩],
        [⟨"A", "B", "ask", ⟨.arrow, false⟩⟩, ⟨"B", "B", "think", ⟨.arrow, false⟩⟩]⟩) := rfl
  have hroom : Config.light.RoomForSequences :=
    ⟨by decide, by decide, by decide, by decide, by decide, by decide +kernel⟩
  obtain ⟨-, l, hl, hparticipants, -, harranged, hcanvas⟩ := layout_arranged hroom hparse
  refine ⟨_, hparse, hroom, l, hl, hparticipants, ?_, ?_, harranged, hcanvas⟩
  · cases hl
    decide +kernel
  · cases hl
    decide +kernel

end SequenceDiagram

end TextDiagram
