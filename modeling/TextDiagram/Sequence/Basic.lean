import TextDiagram.Keyed
/-!
# Sequence diagrams

Participants and the messages that they send to each other.
-/

namespace TextDiagram

/-- The end of a message line. -/
inductive MessageHead where
  | arrow | none | cross | async
  deriving DecidableEq, Repr, Inhabited

/-- The look of a message line: its end and whether it is dotted. -/
structure MessageStyle where
  head : MessageHead
  isDotted : Bool
  deriving DecidableEq, Repr, Inhabited

/-- A participant or actor. -/
structure Participant where
  id : String
  label : String
  isActor : Bool
  deriving DecidableEq, Repr, Inhabited

instance : Keyed Participant where
  key := Participant.id

/-- A message between two participants or of one to itself. -/
structure Message where
  source : String
  target : String
  text : String
  style : MessageStyle
  deriving DecidableEq, Repr, Inhabited

/-- A sequence diagram: participants in the order of first mention, messages as declared. -/
structure SequenceDiagram where
  participants : List Participant
  messages : List Message
  deriving DecidableEq, Repr, Inhabited

namespace MessageStyle

/-- The operator that a message of this style is written with. -/
def operator (style : MessageStyle) : String :=
  (if style.isDotted then "--" else "-") ++
    match style.head with
    | .arrow => ">>"
    | .none => ">"
    | .cross => "x"
    | .async => ")"

end MessageStyle

end TextDiagram
