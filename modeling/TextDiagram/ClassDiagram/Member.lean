import TextDiagram.ClassDiagram.Basic
import TextDiagram.Text.Cut
import TextDiagram.Text.Words
/-!
# Member lines

A member line is a visibility sign, which may be left out, and either a type and a name or the name
of a method with its parameters and a return type.
-/

namespace TextDiagram.ClassMember

/-- A member whose text has an opening parenthesis: the name reaches to the last closing one. -/
def ofMethodText (visibility : Visibility) (t : List Char) : ClassMember :=
  match Text.cutLast [')'] some t with
  | some (before, after) =>
    ⟨visibility, String.ofList (before ++ [')']), String.ofList (Text.trim after)⟩
  | none => ⟨visibility, String.ofList t, ""⟩

/-- A member whose text has no parenthesis: a type and a name, or a name alone. -/
def ofPropertyText (visibility : Visibility) (t : List Char) : ClassMember :=
  let rest := Text.afterFirstWord t
  let first := String.ofList (Text.firstWord t)
  if rest.isEmpty then ⟨visibility, first, ""⟩ else ⟨visibility, String.ofList rest, first⟩

/-- A trimmed text without its visibility sign, with the visibility it stands for; public when
there is no sign. -/
def splitSigil (t : List Char) : Visibility × List Char :=
  match t with
  | c :: rest =>
    match Visibility.ofSigil? c with
    | some visibility => (visibility, Text.trim rest)
    | none => (.isPublic, t)
  | [] => (.isPublic, [])

/-- Reads a member; a text of blanks and at most a sign is none. -/
def ofText? (t : List Char) : Option ClassMember :=
  let (visibility, body) := splitSigil (Text.trim t)
  if body.isEmpty then none
  else if body.contains '(' then some (ofMethodText visibility body)
  else some (ofPropertyText visibility body)

end TextDiagram.ClassMember
