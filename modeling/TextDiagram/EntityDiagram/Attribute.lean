import TextDiagram.EntityDiagram.Basic
import TextDiagram.Text.Ident
import TextDiagram.Text.Quoted
/-!
# Attribute lines

An attribute is written as a type, a name, optional keys separated by commas and an optional
comment in double quotes, with blanks between them. Type and name are any texts without blanks, so
even a key code or a quoted text is a type or a name where one is due.
-/

namespace TextDiagram.EntityAttribute

/-- The text after at least one blank and all further ones. -/
def afterBlank? (t : List Char) : Option (List Char) :=
  match t with
  | c :: rest => if Text.isBlank c then some (Text.trimStart rest) else none
  | [] => none

/-- A leading text without blanks and what follows it. -/
def word? (t : List Char) : Option (List Char × List Char) :=
  Text.run? (fun c => !Text.isBlank c) t

/-- What follows any number of further keys, each after a comma. The first argument bounds their
number. -/
def afterMoreKeys : Nat → List Char → List Char
  | 0, t => t
  | n + 1, t =>
    match Text.trimStart t with
    | ',' :: rest =>
      match AttributeKey.ofText? (Text.trimStart rest) with
      | some (_, rest) => afterMoreKeys n rest
      | none => t
    | _ => t

/-- The first of the keys that follow a name, and the text after all of them. -/
def keys (t : List Char) : Option AttributeKey × List Char :=
  match (afterBlank? t).bind AttributeKey.ofText? with
  -- Only the first key is kept; the others just have to be keys.
  | some (key, rest) => (some key, afterMoreKeys rest.length rest)
  | none => (none, t)

/-- The end of a line; one line feed may still follow. -/
def isEnd (t : List Char) : Bool := t.isEmpty || t == ['\n']

/-- The comment that ends a line, or the end itself. -/
def comment? (t : List Char) : Option (Option String) :=
  if isEnd t then some none
  else
    ((afterBlank? t).bind Text.quoted?).bind fun (text, rest) =>
      if isEnd rest then some (some (String.ofList text)) else none

/-- Reads an attribute line, which starts with the type at once. -/
def ofText? (t : List Char) : Option EntityAttribute :=
  (word? t).bind fun (attributeType, rest) =>
  (afterBlank? rest).bind fun rest =>
  (word? rest).bind fun (name, rest) =>
    let (key, rest) := keys rest
    (comment? rest).map fun comment =>
      ⟨String.ofList attributeType, String.ofList name, key, comment⟩

end TextDiagram.EntityAttribute
