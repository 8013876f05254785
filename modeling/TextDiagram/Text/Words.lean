import TextDiagram.Text.Blank
/-!
# Words of a line

A word is a maximal run of characters that are not blank.
-/

namespace TextDiagram.Text

/-- The words of a line, in order. -/
def words : List Char → List (List Char)
  | [] => []
  | c :: rest =>
    if isBlank c then words rest
    else if rest.head?.all isBlank then [c] :: words rest
    else
      match words rest with
      | [] => [[c]]
      | w :: ws => (c :: w) :: ws

/-- The first word of a text; empty when there is none. -/
def firstWord (t : List Char) : List Char := (trimStart t).takeWhile fun c => !isBlank c

/-- What follows the first word, without the blanks before it. -/
def afterFirstWord (t : List Char) : List Char :=
  trimStart ((trimStart t).dropWhile fun c => !isBlank c)

/-- The second word and all that follows it, of a line that has at least three words. What follows
keeps its inner and trailing blanks. -/
def secondAndRest? (t : List Char) : Option (List Char × List Char) :=
  let tail := afterFirstWord t
  let rest := afterFirstWord tail
  if rest.isEmpty then none else some (firstWord tail, rest)

end TextDiagram.Text
