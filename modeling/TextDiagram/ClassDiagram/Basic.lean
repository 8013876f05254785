import TextDiagram.Keyed
/-!
# Class diagrams

Classes with properties and methods, and relationships of seven types between them.
-/

namespace TextDiagram

/-- Who may use a member. -/
inductive Visibility where
  | isPublic | isPrivate | isProtected | isPackage
  deriving DecidableEq, Repr, Inhabited

/-- The type of a relationship. The marker of the type belongs to the target. -/
inductive RelationType where
  | inheritance | composition | aggregation | association | dependency | realization | link
  deriving DecidableEq, Repr, Inhabited

/-- A property or method. The name of a method includes its parameters; the type may be empty. -/
structure ClassMember where
  visibility : Visibility
  name : String
  memberType : String
  deriving DecidableEq, Repr, Inhabited

/-- A class with its members in declaration order. -/
structure ClassDefinition where
  name : String
  stereotype : Option String
  properties : List ClassMember
  methods : List ClassMember
  deriving DecidableEq, Repr, Inhabited

instance : Keyed ClassDefinition where
  key := ClassDefinition.name

/-- A relationship between two classes. -/
structure ClassRelationship where
  source : String
  target : String
  relationType : RelationType
  label : Option String
  sourceCardinality : Option String
  targetCardinality : Option String
  deriving DecidableEq, Repr, Inhabited

/-- A class diagram: classes in the order of their names, relationships as declared. -/
structure ClassDiagram where
  classes : List ClassDefinition
  relationships : List ClassRelationship
  deriving DecidableEq, Repr, Inhabited

namespace Visibility

/-- The sign in front of a member. -/
def sigil : Visibility → Char
  | isPublic => '+'
  | isPrivate => '-'
  | isProtected => '#'
  | isPackage => '~'

/-- The visibility that a sign stands for. -/
def ofSigil? (c : Char) : Option Visibility :=
  [isPublic, isPrivate, isProtected, isPackage].find? (·.sigil == c)

theorem ofSigil?_sigil (v : Visibility) : ofSigil? v.sigil = some v := by
  cases v <;> decide

end Visibility

namespace ClassMember

/-- A member with an opening parenthesis in its name is a method. -/
def isMethod (m : ClassMember) : Bool := m.name.toList.contains '('

/-- The member as it is written in a class body: the type stands before the name of a property and
after that of a method. -/
def display (m : ClassMember) : String :=
  let sign := String.singleton m.visibility.sigil
  if m.memberType.isEmpty then sign ++ m.name
  else if m.isMethod then sign ++ m.name ++ " " ++ m.memberType
  else sign ++ m.memberType ++ " " ++ m.name

end ClassMember

namespace ClassDefinition

/-- A class of which only the name is known. -/
def named (name : String) : ClassDefinition := ⟨name, none, [], []⟩

/-- Adds a member last among its kind. -/
def addMember (c : ClassDefinition) (m : ClassMember) : ClassDefinition :=
  if m.isMethod then { c with methods := c.methods ++ [m] }
  else { c with properties := c.properties ++ [m] }

end ClassDefinition

end TextDiagram
