import TextDiagram.Text.Cut
/-!
# Path names

A path name is written in its simplest form before a file is saved: without empty parts and parts
that stand for the folder itself. Two slashes at the very start, and no more, are kept.
-/

namespace TextDiagram.PathName

/-- The slashes at the start of a simple path name. -/
def root (t : List Char) : List Char :=
  match (t.takeWhile (· == '/')).length with
  | 0 => []
  -- Exactly two slashes have a meaning of their own.
  | 2 => ['/', '/']
  | _ => ['/']

/-- The parts of a path name that lead anywhere. -/
def parts (t : List Char) : List (List Char) :=
  (Text.pieces '/' t).filter fun part => !part.isEmpty && part != ['.']

/-- The simplest form of a path name. -/
def simplify (path : String) : String :=
  let t := path.toList
  let simple := root t ++ ['/'].intercalate (parts t)
  if simple.isEmpty then "." else String.ofList simple

end TextDiagram.PathName
