import TextDiagram.Text.Blank
/-!
# Quoted texts

A label may be written in double quotes. One pair of quotes at the two ends of the trimmed text is
dropped; quotes elsewhere are part of the label.
-/

namespace TextDiagram.Text

/-- The trimmed text, without the double quotes if it starts and ends with one each. -/
def unquote (t : List Char) : List Char :=
  let s := trim t
  match s with
  | '"' :: rest => if rest.getLast? = some '"' then rest.dropLast else s
  | _ => s

/-- The text between a double quote and the next one, and what follows that. -/
def quoted? : List Char → Option (List Char × List Char)
  | '"' :: rest =>
    match rest.dropWhile (· != '"') with
    | '"' :: after => some (rest.takeWhile (· != '"'), after)
    | _ => none
  | _ => none

end TextDiagram.Text
