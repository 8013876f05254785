import TextDiagram.ClassDiagram.Member
import TextDiagram.Text.Ident
import TextDiagram.Text.Quoted
/-!
# Lines of a class diagram

Inside a block every line belongs to the open class; outside, a line declares a class, gives one a
stereotype, adds a member to one or relates two.
-/

namespace TextDiagram.ClassDiagram

/-- What one line outside a block says. -/
inductive Statement where
  | openBlock (name : String)
  | declare (name : String)
  | stereotype (name stereotype : String)
  | addMember (name : String) (member : ClassMember)
  | relate (relationship : ClassRelationship)
  | skip
  deriving DecidableEq, Repr, Inhabited

/-- What one line inside a block says about the open class. -/
inductive BodyLine where
  | closeBlock
  | stereotype (stereotype : String)
  | member (m : ClassMember)
  | skip
  deriving DecidableEq, Repr, Inhabited

/-- A relationship operator. One whose marker stands on its left is mirrored: it names the target
first. -/
structure RelationToken where
  relationType : RelationType
  mirrored : Bool
  deriving DecidableEq, Repr, Inhabited

/-- The relationship operators, in the order in which they are looked for. -/
def relationTokens : List (List Char × RelationToken) :=
  [("..|>".toList, ⟨.realization, false⟩), ("<|..".toList, ⟨.realization, true⟩),
    ("<|--".toList, ⟨.inheritance, true⟩), ("--|>".toList, ⟨.inheritance, false⟩),
    ("*--".toList, ⟨.composition, true⟩), ("--*".toList, ⟨.composition, false⟩),
    ("o--".toList, ⟨.aggregation, true⟩), ("--o".toList, ⟨.aggregation, false⟩),
    ("..>".toList, ⟨.dependency, false⟩), ("<..".toList, ⟨.dependency, true⟩),
    ("-->".toList, ⟨.association, false⟩), ("<--".toList, ⟨.association, true⟩),
    ("--".toList, ⟨.link, false⟩)]

/-- A class name and the text after it: an identifier, and type parameters between tildes if a
tilde follows. -/
def name? (t : List Char) : Option (List Char × List Char) :=
  (Text.ident? t).bind fun (id, rest) =>
    match rest with
    | '~' :: inner =>
      (Text.run? (· != '~') inner).bind fun (parameters, rest) =>
        match rest with
        | '~' :: rest => some (id ++ '~' :: parameters ++ ['~'], rest)
        | _ => none
    | _ => some (id, rest)

/-- A text that is one class name. -/
def wholeName? (t : List Char) : Option String :=
  (name? t).bind fun (name, rest) => if rest.isEmpty then some (String.ofList name) else none

/-- A quoted cardinality that makes up a whole text; the empty text is none at all. -/
def cardinality? (t : List Char) : Option (Option String) :=
  if t.isEmpty then some none
  else
    (Text.quoted? t).bind fun (text, rest) =>
      if rest.isEmpty then some (some (String.ofList text)) else none

/-- The left side of a relationship: a class name and a cardinality. -/
def leftOperand? (t : List Char) : Option (String × Option String) :=
  (name? (Text.trim t)).bind fun (name, rest) =>
    (cardinality? (Text.trimStart rest)).map fun cardinality =>
      (String.ofList name, cardinality)

/-- The right side of a relationship: a cardinality and a class name. -/
def rightOperand? (t : List Char) : Option (String × Option String) :=
  let t := Text.trim t
  match Text.quoted? t with
  | some (text, rest) =>
    (wholeName? (Text.trimStart rest)).map fun name => (name, some (String.ofList text))
  | none => (wholeName? t).map fun name => (name, none)

/-- A label as written after a colon; an empty one is none. -/
def label? (t : List Char) : Option String :=
  let label := Text.unquote t
  if label.isEmpty then none else some (String.ofList label)

/-- The relationship of two operands; a mirrored operator exchanges them. -/
def relationship (token : RelationToken) (left right : String × Option String)
    (label : Option String) : ClassRelationship :=
  let (source, target) := if token.mirrored then (right, left) else (left, right)
  ⟨source.1, target.1, token.relationType, label, source.2, target.2⟩

/-- The relationship that a line spells. -/
def relationship? (line : Line) : Option ClassRelationship :=
  (Text.findToken relationTokens line).bind fun (left, token, right) =>
    let (right, label) :=
      match Text.cut [':'] right with
      | some (right, label) => (right, label? label)
      | none => (right, none)
    match leftOperand? left, rightOperand? right with
    | some left, some right => some (relationship token left right label)
    | _, _ => none

/-- The declaration of a class, with or without a block after it. -/
def declaration? (line : Line) : Option Statement :=
  (Text.afterKeyword? "class" line).bind fun rest =>
  (name? rest).bind fun (name, rest) =>
    if rest.isEmpty then some (.declare (String.ofList name))
    else if Text.trimStart rest = ['\x7b'] then some (.openBlock (String.ofList name))
    else none

/-- A stereotype in double angle brackets before a class name. -/
def stereotype? (line : Line) : Option (String × String) :=
  match Text.after? "<<" line with
  | some (c :: rest) =>
    (Text.cutLast ">>".toList (fun t => wholeName? (Text.trimStart t)) rest).map
      fun (text, name) => (name, String.ofList (Text.trim (c :: text)))
  | _ => none

/-- A class name, a colon and a text. -/
def inlineMember? (line : Line) : Option (String × List Char) :=
  if Text.occurs "--".toList line || Text.occurs "..".toList line then none
  else
    (name? line).bind fun (name, rest) =>
      match Text.trimStart rest with
      | ':' :: text => (Text.trimmed? text).map fun text => (String.ofList name, text)
      | _ => none

/-- Reads a line outside a block. -/
def Statement.ofLine (line : Line) : Statement :=
  match declaration? line with
  | some declaration => declaration
  | none =>
    match stereotype? line with
    | some (name, text) => .stereotype name text
    | none =>
      match inlineMember? line with
      | some (name, text) =>
        -- A line of this form without a member is not tried as a relationship.
        match ClassMember.ofText? text with
        | some member => .addMember name member
        | none => .skip
      | none =>
        match relationship? line with
        | some relationship => .relate relationship
        | none => .skip

/-- Reads a line inside a block. -/
def BodyLine.ofLine (line : Line) : BodyLine :=
  if line = ['\x7d'] then .closeBlock
  else
    match Text.between? "<<" ">>" line with
    | some text => .stereotype (String.ofList (Text.trim text))
    | none =>
      match ClassMember.ofText? line with
      | some m => .member m
      | none => .skip

end TextDiagram.ClassDiagram
