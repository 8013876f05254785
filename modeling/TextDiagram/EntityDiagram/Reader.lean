import TextDiagram.EntityDiagram.Attribute
import TextDiagram.Text.Cut
/-!
# Reading an entity-relationship diagram

Inside a block every line is an attribute of the open entity or says nothing; outside, a line opens
a block or relates two entities.

Main statement: `Draft.apply_skip`, a line that is no statement has no effect.
-/

namespace TextDiagram.EntityDiagram

/-- What one line outside a block says. -/
inductive Statement where
  | openBlock (name : String)
  | relate (relationship : EntityRelationship)
  | skip
  deriving DecidableEq, Repr, Inhabited

/-- The cardinalities of the two ends of a relationship operator. -/
structure Ends where
  source : Cardinality
  target : Cardinality
  deriving DecidableEq, Repr, Inhabited

/-- The relationship operators, in the order in which they are looked for. -/
def cardinalityTokens : List (List Char × Ends) :=
  [("||--||".toList, ⟨.exactlyOne, .exactlyOne⟩),
    ("||--o\x7b".toList, ⟨.exactlyOne, .zeroOrMore⟩),
    ("||--|\x7b".toList, ⟨.exactlyOne, .oneOrMore⟩),
    ("||--o|".toList, ⟨.exactlyOne, .zeroOrOne⟩),
    ("\x7do--||".toList, ⟨.zeroOrMore, .exactlyOne⟩),
    ("\x7d|--||".toList, ⟨.oneOrMore, .exactlyOne⟩),
    ("o|--||".toList, ⟨.zeroOrOne, .exactlyOne⟩),
    ("o\x7b--||".toList, ⟨.zeroOrMore, .exactlyOne⟩),
    ("\x7do--o\x7b".toList, ⟨.zeroOrMore, .zeroOrMore⟩),
    ("\x7d|--o\x7b".toList, ⟨.oneOrMore, .zeroOrMore⟩),
    ("o|--o\x7b".toList, ⟨.zeroOrOne, .zeroOrMore⟩),
    ("\x7d|--|\x7b".toList, ⟨.oneOrMore, .oneOrMore⟩)]

/-- A character of an entity name. -/
def isNameChar (c : Char) : Bool := Text.isIdentChar c || c == '-'

/-- An entity name that makes up a whole text, apart from blanks. -/
def wholeName? (t : List Char) : Option String :=
  let name := Text.trim t
  if name.isEmpty || !name.all isNameChar then none else some (String.ofList name)

/-- The name of the entity whose block a line opens. -/
def blockName? (line : Line) : Option String :=
  (Text.run? isNameChar line).bind fun (name, rest) =>
    if Text.trimStart rest = ['\x7b'] then some (String.ofList name) else none

/-- The relationship that a line spells; its label may be empty. -/
def relationship? (line : Line) : Option EntityRelationship :=
  (Text.findToken cardinalityTokens line).bind fun (source, ends, right) =>
  (Text.cut [':'] right).bind fun (target, label) =>
  (wholeName? source).bind fun source =>
  (wholeName? target).map fun target =>
    ⟨source, target, String.ofList (Text.unquote label), ends.source, ends.target⟩

/-- Reads a line outside a block. -/
def Statement.ofLine (line : Line) : Statement :=
  match blockName? line with
  | some name => .openBlock name
  | none =>
    match relationship? line with
    | some relationship => .relate relationship
    | none => .skip

/-- A diagram while it is read, with the name of the entity whose block is open. -/
structure Draft where
  entities : List Entity
  relationships : List EntityRelationship
  current : Option String
  deriving DecidableEq, Repr, Inhabited

namespace Draft

/-- Nothing has been read. -/
def empty : Draft := ⟨[], [], none⟩

/-- Entities with one of the given name among them. -/
def declared (entities : List Entity) (name : String) : List Entity :=
  Keyed.ensure ⟨name, []⟩ entities

/-- What one line outside a block changes. -/
def apply (d : Draft) : Statement → Draft
  | .openBlock name => { d with entities := declared d.entities name, current := some name }
  | .relate r =>
    { d with
      entities := declared (declared d.entities r.source) r.target
      relationships := d.relationships ++ [r] }
  | .skip => d

/-- What one line inside the block of an entity changes. -/
def applyBody (d : Draft) (name : String) (line : Line) : Draft :=
  if line = ['\x7d'] then { d with current := none }
  else
    match EntityAttribute.ofText? line with
    | some a =>
      { d with
        entities := Keyed.modify name (fun e => { e with attributes := e.attributes ++ [a] })
          d.entities }
    | none => d

/-- Reads one line. -/
def readLine (d : Draft) (line : Line) : Draft :=
  match d.current with
  | some name => d.applyBody name line
  | none => d.apply (Statement.ofLine line)

/-- The draft after some lines. -/
def readLines (d : Draft) (lines : List Line) : Draft := lines.foldl readLine d

/-- The diagram of a draft, with its entities sorted. -/
def diagram (d : Draft) : EntityDiagram := ⟨Keyed.sorted d.entities, d.relationships⟩

@[simp] theorem apply_skip (d : Draft) : d.apply .skip = d := rfl

end Draft

/-- Reads an entity-relationship diagram from the lines after its header. -/
def ofLines (lines : List Line) : EntityDiagram := (Draft.empty.readLines lines).diagram

end TextDiagram.EntityDiagram
