import TextDiagram.Sequence.Layout
import TextDiagram.Proofs.Attachment
import TextDiagram.Proofs.Traversal
/-!
# Placed sequence diagrams are complete

The message at an index has a row of its own, at a height between the two ends of all lifelines.

Main statements:

* `placeMessages_eq_mapM`: messages are placed one by one, each with its index.
* `exists_layout`: the messages of a well-referenced diagram can be placed.
* `InRow.holds`, `InRow.touches`: messages start and stop on the lifelines of their own ends.
-/

namespace TextDiagram

namespace SequenceDiagram

section

variable (α : Type) [Scalar α] (config : Config) (diagram : SequenceDiagram)

/-- The participants on their places. -/
def placedParticipants : List (PositionedParticipant α) :=
  diagram.participants.mapIdx (placeParticipant config (rowsBottom config diagram.messages.length))

/-- The abscissas of the lifelines under the ids of the participants. -/
def lifelines : List (String × α) :=
  (placedParticipants α config diagram).map fun p => (p.participant.id, p.lifelineX)

/-- The height at which lifelines start. -/
def lifelineTop : α := config.padding + config.participantHeight

/-- The height of the row of the message at an index. -/
def rowY (index : Nat) : α := rowsTop config + ((index + 1 : Nat) : α) * config.messageSpacing

theorem participants_placedParticipants :
    (placedParticipants α config diagram).map (·.participant) = diagram.participants :=
  map_mapIdx_eq_self (fun _ _ => rfl) _

theorem keys_lifelines :
    Keyed.keys (lifelines α config diagram) = Keyed.keys diagram.participants := by
  rw [← participants_placedParticipants α config diagram]
  simp [lifelines, Keyed.keys, Keyed.key, Function.comp_def]

variable {diagram} in
theorem exists_lifeline {id : String} (h : id ∈ Keyed.keys diagram.participants) :
    ∃ x, Keyed.value? (lifelines α config diagram) id = some x := by
  rw [Keyed.exists_value?_iff, keys_lifelines]
  exact h

end

variable {α : Type} [Scalar α] {config : Config} {diagram : SequenceDiagram}

/-! ## Messages -/

section

variable {lifelines : List (String × α)} {index : Nat}

/-- A message runs from lifeline to lifeline in its row, or loops beside one. -/
theorem placeMessage_eq_ok_iff {m : Message} {placed : PositionedMessage α} :
    placeMessage config lifelines index m = .ok placed ↔
      ∃ source, Keyed.value? lifelines m.source = some source ∧
        ∃ target, Keyed.value? lifelines m.target = some target ∧
          let y : α := rowY α config index
          (if m.source = m.target then
            (⟨m, loop source y, y, ⟨source + 20, y - 8⟩⟩ : PositionedMessage α)
          else
            ⟨m, Path.straight ⟨⟨source, y⟩, ⟨target, y⟩⟩, y, ⟨(source + target) / 2, y - 8⟩⟩) =
          placed := by
  simp only [placeMessage, bind_eq_ok_iff, placedUnder_eq_ok_iff]
  by_cases hself : m.source = m.target
  · simp only [hself, if_true, pure, Except.pure, Except.ok.injEq]
    rfl
  · simp only [hself, if_false, pure, Except.pure, Except.ok.injEq]
    rfl

theorem placeMessages_eq_mapM (messages : List Message) :
    placeMessages config lifelines index messages =
      (messages.zipIdx index).mapM fun (m, i) => placeMessage config lifelines i m := by
  induction messages generalizing index with
  | nil => rfl
  | cons m more ih =>
    rw [placeMessages, List.zipIdx_cons, List.mapM_cons, ih]

end

/-- The drawing of a sequence diagram, once all messages have been placed. -/
theorem layout_eq_ok {messages : List (PositionedMessage α)}
    (h : placeMessages config (lifelines α config diagram) 0 diagram.messages = .ok messages) :
    diagram.layout config = .ok {
      size := ⟨canvasWidth config diagram.participants.length,
        rowsBottom config diagram.messages.length + (config.padding : α)⟩
      participants := placedParticipants α config diagram
      messages := messages } := by
  show (placeMessages config (lifelines α config diagram) 0 diagram.messages >>= _) = _
  rw [h]
  rfl

/-- A message passes between two lifelines in one of the rows; a loop ends a bit lower. -/
def InRow (config : Config) (count : Nat) (outlines : List (String × Outline α))
    (link : Link α) : Prop :=
  ∃ index < count, ∃ source target,
    (link.source, .lifeline source (lifelineTop α config) (rowsBottom config count)) ∈ outlines ∧
    (link.target, .lifeline target (lifelineTop α config) (rowsBottom config count)) ∈ outlines ∧
    link.ends.start = ⟨source, rowY α config index⟩ ∧
    (link.ends.stop = ⟨target, rowY α config index⟩ ∨
      link.ends.stop = ⟨target, rowY α config index + 20⟩)

theorem mem_outlines_of_lifeline {size : Size α} {messages : List (PositionedMessage α)}
    {id : String} {x : α} (h : Keyed.value? (lifelines α config diagram) id = some x) :
    (id, .lifeline x (lifelineTop α config) (rowsBottom config diagram.messages.length)) ∈
      SequenceLayout.outlines ⟨size, placedParticipants α config diagram, messages⟩ := by
  rcases List.mem_map.1 (Keyed.mem_of_value? h) with ⟨p, hp, heq⟩
  rcases Prod.mk.inj heq with ⟨rfl, rfl⟩
  refine List.mem_map.2 ⟨p, hp, ?_⟩
  -- All lifelines have the same height.
  rcases List.mem_mapIdx.1 hp with ⟨index, hindex, rfl⟩
  rfl

variable (α config)

/-- All messages are placed if their ends are participants. -/
theorem exists_placedMessages (h : diagram.WellReferenced) :
    ∃ messages : List (PositionedMessage α), (diagram.messages.zipIdx 0).mapM (fun (m, i) =>
      placeMessage config (lifelines α config diagram) i m) = .ok messages := by
  refine exists_mapM_eq_ok fun entry hentry => ?_
  have hends := h.mem _ (List.mem_map_of_mem (List.fst_mem_of_mem_zipIdx hentry))
  rcases exists_lifeline α config hends.1 with ⟨source, hsource⟩
  rcases exists_lifeline α config hends.2 with ⟨target, htarget⟩
  exact ⟨_, placeMessage_eq_ok_iff.2 ⟨source, hsource, target, htarget, rfl⟩⟩

/-- Every participant and every message has its place, messages between the lifelines of their own
ends. -/
theorem exists_layout (h : diagram.WellReferenced) :
    ∃ l : SequenceLayout α, diagram.layout config = .ok l ∧
      l.participants.map (·.participant) = diagram.participants ∧
      l.messages.map (·.message) = diagram.messages ∧
      ∀ link ∈ l.links, InRow config diagram.messages.length l.outlines link := by
  rcases exists_placedMessages α config h with ⟨messages, hmessages⟩
  refine ⟨_, layout_eq_ok ((placeMessages_eq_mapM _).trans hmessages), ?_, ?_, ?_⟩
  · exact participants_placedParticipants α config diagram
  · refine (map_of_mapM_eq_ok (fun entry placed hplaced => ?_) hmessages).trans
      (List.zipIdx_map_fst 0 _)
    rcases placeMessage_eq_ok_iff.1 hplaced with ⟨_, _, _, _, rfl⟩
    split <;> rfl
  · intro link hlink
    rcases List.mem_map.1 hlink with ⟨placed, hplaced, rfl⟩
    rcases of_mem_mapM_eq_ok hmessages hplaced with ⟨⟨m, index⟩, hentry, hm⟩
    rcases placeMessage_eq_ok_iff.1 hm with ⟨source, hsource, target, htarget, rfl⟩
    have hindex : index < diagram.messages.length := by
      have := List.snd_lt_of_mem_zipIdx hentry
      omega
    refine ⟨index, hindex, source, target, ?_⟩
    by_cases hself : m.source = m.target
    · -- A loop stays on one lifeline.
      obtain rfl : source = target := by
        rw [hself] at hsource
        exact Option.some.inj (hsource.symm.trans htarget)
      simp only [hself, if_true]
      exact ⟨mem_outlines_of_lifeline htarget, mem_outlines_of_lifeline htarget, rfl, Or.inr rfl⟩
    · simp only [hself, if_false]
      exact ⟨mem_outlines_of_lifeline hsource, mem_outlines_of_lifeline htarget, rfl, Or.inl rfl⟩

/-! ## Both ends lie on lifelines -/

variable {α config}

/-- Messages in rows are attached to the lifelines of their ends. -/
theorem InRow.holds {count : Nat} {outlines : List (String × Outline α)} {links : List (Link α)}
    (hnodup : (Keyed.keys outlines).Nodup) (h : ∀ link ∈ links, InRow config count outlines link) :
    Attached Outline.Holds outlines links := by
  refine ⟨hnodup, fun link hlink => ?_, fun link hlink => ?_⟩
  · rcases h link hlink with ⟨index, -, source, target, hsource, -, hstart, -⟩
    exact ⟨_, hsource, congrArg Point.x hstart⟩
  · rcases h link hlink with ⟨index, -, source, target, -, htarget, -, hstop⟩
    refine ⟨_, htarget, ?_⟩
    rcases hstop with hstop | hstop
    · exact congrArg Point.x hstop
    · exact congrArg Point.x hstop

/-- In exact arithmetic rows lie between the two ends of the lifelines, with room for a loop. -/
theorem rowY_bounds (hspacing : 0 ≤ config.messageSpacing) {count index : Nat}
    (h : index < count) :
    lifelineTop Rat config ≤ rowY Rat config index ∧
      rowY Rat config index + 20 ≤ rowsBottom config count := by
  have hstep : (0 : Rat) ≤ config.messageSpacing := Rat.intCast_nonneg.2 hspacing
  have hdown : (0 : Rat) ≤ ((index + 1 : Nat) : Rat) * config.messageSpacing :=
    mul_nonneg (Nat.cast_nonneg _) hstep
  have hup : ((index + 1 : Nat) : Rat) * config.messageSpacing ≤
      (count : Rat) * config.messageSpacing :=
    mul_le_mul_of_nonneg_right (Nat.cast_le.2 h) hstep
  -- The first row starts 20 below the headers, the last one ends 40 above the bottom.
  simp only [lifelineTop, rowY, rowsBottom, rowsTop]
  constructor <;> linarith

theorem InRow.touches (hspacing : 0 ≤ config.messageSpacing) {count : Nat}
    {outlines : List (String × Outline Rat)} {links : List (Link Rat)}
    (hnodup : (Keyed.keys outlines).Nodup) (h : ∀ link ∈ links, InRow config count outlines link) :
    Attached Outline.Touches outlines links := by
  refine ⟨hnodup, fun link hlink => ?_, fun link hlink => ?_⟩
  · rcases h link hlink with ⟨index, hindex, source, target, hsource, -, hstart, -⟩
    -- The row is between the ends of all lifelines.
    rcases rowY_bounds hspacing hindex with ⟨htop, hbottom⟩
    refine ⟨_, hsource, ?_⟩
    rw [hstart]
    exact ⟨rfl, htop, by linarith⟩
  · rcases h link hlink with ⟨index, hindex, source, target, -, htarget, -, hstop⟩
    rcases rowY_bounds hspacing hindex with ⟨htop, hbottom⟩
    refine ⟨_, htarget, ?_⟩
    rcases hstop with hstop | hstop
    · rw [hstop]
      exact ⟨rfl, htop, by linarith⟩
    · rw [hstop]
      exact ⟨rfl, by linarith, hbottom⟩

end SequenceDiagram

end TextDiagram
