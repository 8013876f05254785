import TextDiagram.Keyed
/-!
# Entity-relationship diagrams

Entities with typed attributes, and relationships with a cardinality at each end.
-/

namespace TextDiagram

/-- The part an attribute plays as a key: primary, foreign or unique. -/
inductive AttributeKey where
  | primary | foreign | unique
  deriving DecidableEq, Repr, Inhabited

/-- How many entities stand at one end of a relationship. -/
inductive Cardinality where
  | exactlyOne | zeroOrOne | zeroOrMore | oneOrMore
  deriving DecidableEq, Repr, Inhabited

/-- An attribute of an entity. -/
structure EntityAttribute where
  attributeType : String
  name : String
  key : Option AttributeKey
  comment : Option String
  deriving DecidableEq, Repr, Inhabited

/-- An entity with its attributes in declaration order. -/
structure Entity where
  name : String
  attributes : List EntityAttribute
  deriving DecidableEq, Repr, Inhabited

instance : Keyed Entity where
  key := Entity.name

/-- A relationship between two entities. -/
structure EntityRelationship where
  source : String
  target : String
  label : String
  sourceCardinality : Cardinality
  targetCardinality : Cardinality
  deriving DecidableEq, Repr, Inhabited

/-- An entity-relationship diagram: entities in the order of their names, relationships as
declared. -/
structure EntityDiagram where
  entities : List Entity
  relationships : List EntityRelationship
  deriving DecidableEq, Repr, Inhabited

namespace AttributeKey

/-- The two letters of a key. -/
def code : AttributeKey → String
  | primary => "PK"
  | foreign => "FK"
  | unique => "UK"

/-- A leading key code and the text after it. -/
def ofText? : List Char → Option (AttributeKey × List Char)
  | 'P' :: 'K' :: rest => some (primary, rest)
  | 'F' :: 'K' :: rest => some (foreign, rest)
  | 'U' :: 'K' :: rest => some (unique, rest)
  | _ => none

theorem ofText?_code (k : AttributeKey) (rest : List Char) :
    ofText? (k.code.toList ++ rest) = some (k, rest) := by
  cases k <;> rfl

end AttributeKey

end TextDiagram
