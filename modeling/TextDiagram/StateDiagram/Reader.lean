import TextDiagram.StateDiagram.Basic
import TextDiagram.Text.Cut
import TextDiagram.Text.Ident
import TextDiagram.Text.Quoted
/-!
# Reading a state diagram

A line gives the direction, a transition, a state or the description of a state. Every line with an
arrow is taken for a transition.

Main statement: `Statement.apply_skip`, a line that is no statement has no effect.
-/

namespace TextDiagram.StateDiagram

/-- What one line of a state diagram says. -/
inductive Statement where
  | direction (d : Direction)
  | move (transition : StateTransition)
  | define (id description : String)
  | declare (id : String)
  | describe (id description : String)
  | skip
  deriving DecidableEq, Repr, Inhabited

namespace Statement

/-- An id of a state or of the marker that makes up a whole text. -/
def endpoint? (t : List Char) : Option String :=
  let id := Text.trim t
  if Text.isIdent id || id == StateNode.markerId.toList then some (String.ofList id) else none

/-- The transition that the texts on the two sides of an arrow spell. -/
def transition? (left right : List Char) : Option StateTransition :=
  let (target, label) := (Text.cut [':'] right).getD (right, [])
  let label := Text.unquote label
  (endpoint? left).bind fun source =>
  (endpoint? target).map fun target =>
    ⟨source, target, if label.isEmpty then none else some (String.ofList label)⟩

/-- The form `state "description" as id`. -/
def defined? (line : Line) : Option Statement :=
  (Text.afterKeyword? "state" line).bind fun rest =>
  (Text.quoted? rest).bind fun (description, rest) =>
    match rest with
    | c :: rest =>
      if Text.isBlank c then
        (Text.afterKeyword? "as" (Text.trimStart rest)).bind fun id =>
          if Text.isIdent id then some (.define (String.ofList id) (String.ofList description))
          else none
      else none
    | [] => none

/-- The form `state id`, with or without an opening brace after it. -/
def declared? (line : Line) : Option Statement :=
  (Text.afterKeyword? "state" line).bind fun rest =>
  (Text.ident? rest).bind fun (id, rest) =>
    if rest.isEmpty || Text.trimStart rest == ['\x7b'] then some (.declare (String.ofList id))
    else none

/-- The form `id : description`. -/
def described? (line : Line) : Option Statement :=
  (Text.ident? line).bind fun (id, rest) =>
    match Text.trimStart rest with
    | ':' :: text =>
      (Text.trimmed? text).map fun text => .describe (String.ofList id) (String.ofList text)
    | _ => none

/-- Reads a line. A direction that is not understood is skipped. -/
def ofLine (line : Line) : Statement :=
  if (Text.after? "direction " line).isSome then
    match Direction.ofLine? line with
    | some d => .direction d
    | none => .skip
  else
    match Text.cut "-->".toList line with
    | some (left, right) =>
      match transition? left right with
      | some transition => .move transition
      | none => .skip
    | none => (((defined? line).or (declared? line)).or (described? line)).getD .skip

/-- The states with a state of the given id among them. -/
def ensured (states : List StateNode) (id : String) : List StateNode :=
  Keyed.ensure (StateNode.named id) states

/-- What one statement changes. -/
def apply (d : StateDiagram) : Statement → StateDiagram
  | .direction chosen => { d with direction := chosen }
  | .move t =>
    { d with
      states := ensured (ensured d.states t.source) t.target
      transitions := d.transitions ++ [t] }
  | .define id description => { d with states := Keyed.put ⟨id, id, some description⟩ d.states }
  | .declare id => { d with states := ensured d.states id }
  | .describe id description =>
    { d with
      states := Keyed.modify id ({ · with description := some description })
        (ensured d.states id) }
  | .skip => d

@[simp] theorem apply_skip (d : StateDiagram) : apply d .skip = d := rfl

end Statement

/-- The diagram after some more lines, its states in the order of first mention. -/
def readLines (d : StateDiagram) (lines : List Line) : StateDiagram :=
  lines.foldl (fun d line => Statement.apply d (Statement.ofLine line)) d

/-- Reads a state diagram from the lines after its header. -/
def ofLines (lines : List Line) : StateDiagram :=
  let d := readLines ⟨[], [], .topDown⟩ lines
  { d with states := Keyed.sorted d.states }

end TextDiagram.StateDiagram
