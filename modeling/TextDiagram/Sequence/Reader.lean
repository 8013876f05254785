import TextDiagram.Sequence.Basic
import TextDiagram.Text.Cut
/-!
# Reading a sequence diagram

A line declares a participant or sends a message. A message operator only counts when a target and
a colon follow it, so that an operator inside the text of a message does not split the line.

Main statement: `Statement.apply_skip`, a line that is no statement has no effect.
-/

namespace TextDiagram.SequenceDiagram

/-- What one line of a sequence diagram says. -/
inductive Statement where
  | declare (participant : Participant)
  | send (message : Message)
  | skip
  deriving DecidableEq, Repr, Inhabited

/-- The message operators, in the order in which they are looked for: the longest spelling of each
family first. -/
def messageTokens : List (List Char × MessageStyle) :=
  [("-->>".toList, ⟨.arrow, true⟩), ("->>".toList, ⟨.arrow, false⟩),
    ("--x".toList, ⟨.cross, true⟩), ("-x".toList, ⟨.cross, false⟩),
    ("--)".toList, ⟨.async, true⟩), ("-)".toList, ⟨.async, false⟩),
    ("-->".toList, ⟨.none, true⟩), ("->".toList, ⟨.none, false⟩)]

namespace Statement

/-- A declaration `id as label` or `id`; an empty label is replaced by the id. -/
def ofDeclaration (rest : Line) (isActor : Bool) : Statement :=
  let (id, label) := (Text.cut " as ".toList rest).getD (rest, rest)
  match Text.trimmed? id with
  | some id => .declare
      ⟨String.ofList id, String.ofList ((Text.trimmed? label).getD id), isActor⟩
  | none => .skip

/-- The target of a message without the marks of activation before it. -/
def target (t : List Char) : List Char :=
  Text.trim ((Text.trim t).dropWhile fun c => c == '+' || c == '-')

/-- The message that a line spells with one operator. -/
def message? (line : Line) (token : List Char × MessageStyle) : Option Message :=
  (Text.cut token.1 line).bind fun (left, right) =>
  -- The text of the message may hold further colons.
  (Text.cut [':'] right).bind fun (receiver, text) =>
    let source := Text.trim left
    let target := target receiver
    if source.isEmpty || target.isEmpty then none
    else
      some ⟨String.ofList source, String.ofList target, String.ofList (Text.trim text), token.2⟩

/-- Reads a line. -/
def ofLine (line : Line) : Statement :=
  match Text.after? "participant " line, Text.after? "actor " line with
  | some rest, _ => ofDeclaration rest false
  | none, some rest => ofDeclaration rest true
  | none, none =>
    match messageTokens.findSome? (message? line) with
    | some message => .send message
    | none => .skip

/-- What one statement changes. A repeated declaration keeps the place of the participant. -/
def apply (d : SequenceDiagram) : Statement → SequenceDiagram
  | .declare participant => { d with participants := Keyed.put participant d.participants }
  | .send message =>
    { participants :=
        Keyed.ensure ⟨message.target, message.target, false⟩
          (Keyed.ensure ⟨message.source, message.source, false⟩ d.participants)
      messages := d.messages ++ [message] }
  | .skip => d

@[simp] theorem apply_skip (d : SequenceDiagram) : apply d .skip = d := rfl

end Statement

/-- The diagram after some more lines. -/
def readLines (d : SequenceDiagram) (lines : List Line) : SequenceDiagram :=
  lines.foldl (fun d line => Statement.apply d (Statement.ofLine line)) d

/-- Reads a sequence diagram from the lines after its header. -/
def ofLines (lines : List Line) : SequenceDiagram := readLines ⟨[], []⟩ lines

end TextDiagram.SequenceDiagram
