import TextDiagram.Direction
import TextDiagram.Keyed
/-!
# State diagrams

States, the transitions between them and the marker that stands for the start and the end.
-/

namespace TextDiagram

/-- A state; the description is what has been said about it besides its label. -/
structure StateNode where
  id : String
  label : String
  description : Option String
  deriving DecidableEq, Repr, Inhabited

instance : Keyed StateNode where
  key := StateNode.id

/-- A transition; a label is never empty. -/
structure StateTransition where
  source : String
  target : String
  label : Option String
  deriving DecidableEq, Repr, Inhabited

/-- A state diagram: states in the order of their ids, transitions as declared. -/
structure StateDiagram where
  states : List StateNode
  transitions : List StateTransition
  direction : Direction
  deriving DecidableEq, Repr, Inhabited

namespace StateNode

/-- The id of the start and end marker. -/
def markerId : String := "[*]"

/-- Whether the state is the start and end marker. -/
def isStartEnd (s : StateNode) : Bool := s.id == markerId

/-- A state of which only the id is known; the marker has no label. -/
def named (id : String) : StateNode := ⟨id, if id = markerId then "" else id, none⟩

end StateNode

end TextDiagram
