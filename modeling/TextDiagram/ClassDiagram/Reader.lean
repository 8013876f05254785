import TextDiagram.ClassDiagram.Statement
/-!
# Reading a class diagram

Lines act one after the other on a draft, which knows the class whose block is open.

Main statement: `Draft.apply_skip`, a line that is no statement has no effect.
-/

namespace TextDiagram.ClassDiagram

/-- A class diagram while it is read, with the name of the class whose block is open. -/
structure Draft where
  classes : List ClassDefinition
  relationships : List ClassRelationship
  current : Option String
  deriving DecidableEq, Repr, Inhabited

namespace Draft

/-- Nothing has been read. -/
def empty : Draft := ⟨[], [], none⟩

/-- Classes with a class of the given name among them. -/
def declared (classes : List ClassDefinition) (name : String) : List ClassDefinition :=
  Keyed.ensure (ClassDefinition.named name) classes

/-- Declares a class if needed and changes it. -/
def change (d : Draft) (name : String) (f : ClassDefinition → ClassDefinition) : Draft :=
  { d with classes := Keyed.modify name f (declared d.classes name) }

/-- What one line outside a block changes. -/
def apply (d : Draft) : Statement → Draft
  | .openBlock name => { d with classes := declared d.classes name, current := some name }
  | .declare name => { d with classes := declared d.classes name }
  | .stereotype name stereotype => d.change name ({ · with stereotype := some stereotype })
  | .addMember name member => d.change name (·.addMember member)
  | .relate r =>
    { d with
      classes := declared (declared d.classes r.source) r.target
      relationships := d.relationships ++ [r] }
  | .skip => d

/-- What one line inside the block of a class changes. -/
def applyBody (d : Draft) (name : String) : BodyLine → Draft
  | .closeBlock => { d with current := none }
  | .stereotype stereotype =>
    { d with classes := Keyed.modify name ({ · with stereotype := some stereotype }) d.classes }
  | .member m => { d with classes := Keyed.modify name (·.addMember m) d.classes }
  | .skip => d

/-- Reads one line. -/
def readLine (d : Draft) (line : Line) : Draft :=
  match d.current with
  | some name => d.applyBody name (BodyLine.ofLine line)
  | none => d.apply (Statement.ofLine line)

/-- The draft after some lines. -/
def readLines (d : Draft) (lines : List Line) : Draft := lines.foldl readLine d

/-- The diagram of a draft, with its classes sorted. -/
def diagram (d : Draft) : ClassDiagram := ⟨Keyed.sorted d.classes, d.relationships⟩

@[simp] theorem apply_skip (d : Draft) : d.apply .skip = d := rfl

end Draft

/-- Reads a class diagram from the lines after its header. -/
def ofLines (lines : List Line) : ClassDiagram := (Draft.empty.readLines lines).diagram

end TextDiagram.ClassDiagram
