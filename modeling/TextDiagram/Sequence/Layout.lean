import TextDiagram.Sequence.Basic
import TextDiagram.Config
import TextDiagram.LayoutError
/-!
# Placed sequence diagrams

Participants stand side by side with a lifeline below each. Messages follow one another in rows; a
message of a participant to itself is a loop to the right of its lifeline.
-/

namespace TextDiagram

/-- A participant on its place. -/
structure PositionedParticipant (α : Type) where
  participant : Participant
  headerFrame : Rect α
  lifelineX : α
  lifelineTop : α
  lifelineBottom : α
  deriving DecidableEq, Repr

/-- A message in its row. -/
structure PositionedMessage (α : Type) where
  message : Message
  path : Path α
  y : α
  labelPosition : Point α
  deriving DecidableEq, Repr

/-- A placed sequence diagram. -/
structure SequenceLayout (α : Type) where
  size : Size α
  participants : List (PositionedParticipant α)
  messages : List (PositionedMessage α)
  deriving DecidableEq, Repr

namespace SequenceDiagram

variable {α : Type} [Scalar α]

/-- The height at which rows of messages start. -/
def rowsTop (config : Config) : α := config.padding + config.participantHeight + 20

/-- The height at which lifelines end, below some rows of messages. -/
def rowsBottom (config : Config) (messageCount : Nat) : α :=
  rowsTop config + (messageCount : α) * config.messageSpacing + 40

/-- The header of the participant at an index. -/
def header (config : Config) (index : Nat) : Rect α :=
  let step : α := config.participantWidth + config.participantSpacing
  Rect.ofSize (config.padding + (index : α) * step) config.padding
    ⟨config.participantWidth, config.participantHeight⟩

/-- A participant on its place. -/
def placeParticipant (config : Config) (bottom : α) (index : Nat) (p : Participant) :
    PositionedParticipant α :=
  let frame : Rect α := header config index
  ⟨p, frame, frame.center.x, frame.bottom, bottom⟩

/-- The loop of a message of one participant to itself. -/
def loop (x y : α) : Path α := ⟨⟨x, y⟩, [⟨x + 40, y⟩, ⟨x + 40, y + 20⟩], ⟨x, y + 20⟩⟩

/-- The message at an index in its row. -/
def placeMessage (config : Config) (lifelines : List (String × α)) (index : Nat) (m : Message) :
    Except LayoutError (PositionedMessage α) := do
  let y := rowsTop config + ((index + 1 : Nat) : α) * config.messageSpacing
  let source ← placedUnder lifelines m.source
  let target ← placedUnder lifelines m.target
  if m.source = m.target then
    return ⟨m, loop source y, y, ⟨source + 20, y - 8⟩⟩
  else
    return ⟨m, Path.straight ⟨⟨source, y⟩, ⟨target, y⟩⟩, y, ⟨(source + target) / 2, y - 8⟩⟩

/-- The messages from an index on in their rows. -/
def placeMessages (config : Config) (lifelines : List (String × α)) :
    Nat → List Message → Except LayoutError (List (PositionedMessage α))
  | _, [] => return []
  | index, m :: more => do
    let placed ← placeMessage config lifelines index m
    let others ← placeMessages config lifelines (index + 1) more
    return placed :: others

/-- The width of the canvas for some participants. -/
def canvasWidth (config : Config) (count : Nat) : α :=
  let margins : α := 2 * (config.padding : α)
  if count = 0 then margins
  else
    margins + ((count : α) * config.participantWidth +
      ((count - 1 : Nat) : α) * config.participantSpacing)

/-- Places a sequence diagram. -/
def layout (config : Config) (diagram : SequenceDiagram) :
    Except LayoutError (SequenceLayout α) := do
  let bottom : α := rowsBottom config diagram.messages.length
  let participants := diagram.participants.mapIdx (placeParticipant config bottom)
  let lifelines := participants.map fun p => (p.participant.id, p.lifelineX)
  let messages ← placeMessages config lifelines 0 diagram.messages
  return {
    size := ⟨canvasWidth config diagram.participants.length, bottom + config.padding⟩
    participants := participants
    messages := messages }

end SequenceDiagram

end TextDiagram
