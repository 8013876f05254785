import TextDiagram.Number.Numeral
/-!
# Colours

A colour has three components. In styles it is written as a hash sign with three or six characters;
each pair of characters, or each single character doubled, is read as a hexadecimal number.
-/

namespace TextDiagram

/-- A colour; the components of a displayable one lie between 0 and 255. -/
structure Color where
  red : Int
  green : Int
  blue : Int
  deriving DecidableEq, Repr, Inhabited

/-- The colours that entities without a colour of their own take in turn. -/
abbrev Palette := List Color

namespace Color

/-- A hexadecimal number in plain form: an optional sign and at least one digit. -/
def hexNumber? (t : List Char) : Option Int :=
  let (negative, digits) := Numeral.signed t
  match digits.mapM Text.hexDigit? with
  | none | some [] => none
  | some values =>
    let n : Int := (values.foldl (fun n d => 16 * n + d) 0 : Nat)
    some (if negative then -n else n)

/-- One component, written with two characters. A space beside a digit and digits of other scripts
are accepted as in any numeral. -/
def component? (a b : Char) : Option Int := hexNumber? (Numeral.plain [a, b])

/-- Reads a colour; surrounding blanks are ignored. -/
def ofText? (t : List Char) : Option Color :=
  match Text.trim t with
  | ['#', a, b, c] => build a a b b c c
  | ['#', a, a', b, b', c, c'] => build a a' b b' c c'
  | _ => none
where
  /-- The colour of three pairs of characters. -/
  build (a a' b b' c c' : Char) : Option Color :=
    (component? a a').bind fun red =>
    (component? b b').bind fun green =>
    (component? c c').map fun blue => ⟨red, green, blue⟩

/-- The colour that an optional text names, or else the given one. -/
def named (text : Option String) (otherwise : Color) : Color :=
  (text.bind fun t => ofText? t.toList).getD otherwise

end Color

end TextDiagram
