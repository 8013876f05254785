import TextDiagram.Number.Decimal
import TextDiagram.Text.Blank
import TextDiagram.Text.Digit
/-!
# Numerals

The widths given in style lines are numerals of a wide kind: a sign, digits of any script with a
point and a power of ten, underscores between digits, or a word for infinity or for no number.
-/

namespace TextDiagram

/-- A number as it may be written in a style. -/
inductive Numeral where
  | finite (negative : Bool) (magnitude : Decimal)
  | infinite (negative : Bool)
  | nan
  deriving DecidableEq, Repr, Inhabited

namespace Numeral

/-- The plain form of a character in a numeral: blanks and digits of other scripts become a space
and ASCII digits, and any other foreign character becomes a question mark. -/
def plainChar (c : Char) : Char :=
  if c.toNat < 127 then c
  else if Text.isBlank c then ' '
  else
    match Text.decimalDigit? c with
    | some d => Char.ofNat (48 + d)
    | none => '?'

/-- The spaces that may surround a numeral in its plain form. -/
def isSpace (c : Char) : Bool := c == ' ' || (9 ≤ c.toNat && c.toNat ≤ 13)

/-- The plain form of a numeral without the spaces around it. -/
def plain (t : List Char) : List Char :=
  Text.dropEndWhile isSpace ((t.map plainChar).dropWhile isSpace)

/-- Takes the underscores out of a numeral; each has to stand between two digits. The first
argument is the character before the text. -/
def joinDigits? (previous : Char) : List Char → Option (List Char)
  | [] => if previous = '_' then none else some []
  | c :: rest =>
    if c = '_' then if previous.isDigit then joinDigits? '_' rest else none
    else if previous = '_' ∧ ¬c.isDigit then none
    else (joinDigits? c rest).map (c :: ·)

/-- Splits off a sign; the first part tells whether it is a minus. -/
def signed : List Char → Bool × List Char
  | '-' :: rest => (true, rest)
  | '+' :: rest => (false, rest)
  | t => (false, t)

/-- A power of ten: an optional sign and at least one digit. -/
def exponent? (t : List Char) : Option Int :=
  let (negative, digits) := signed t
  if digits.isEmpty || !digits.all Char.isDigit then none
  else
    let n : Int := Decimal.digitsValue digits
    some (if negative then -n else n)

/-- Reads an unsigned finite numeral, with or without a power of ten. -/
def magnitude? (t : List Char) : Option Decimal :=
  let isMark := fun c => c == 'e' || c == 'E'
  match Decimal.ofText? (t.takeWhile fun c => !isMark c), t.dropWhile fun c => !isMark c with
  | some d, [] => some d
  | some d, _ :: power => (exponent? power).map fun e => ⟨d.digits, d.exponent + e⟩
  | none, _ => none

/-- Reads a numeral in plain form, without spaces and underscores. -/
def ofPlain? (t : List Char) : Option Numeral :=
  let (negative, body) := signed t
  let word := String.ofList (body.map Char.toLower)
  if word = "inf" ∨ word = "infinity" then some (.infinite negative)
  else if word = "nan" then some .nan
  else (magnitude? body).map (.finite negative)

/-- Reads a numeral. -/
def ofText? (t : List Char) : Option Numeral := (joinDigits? ' ' (plain t)).bind ofPlain?

/-- The nearest floating-point number. -/
def toFloat : Numeral → Float
  | .finite negative d => if negative then -d.toFloat else d.toFloat
  | .infinite negative => if negative then -1.0 / 0.0 else 1.0 / 0.0
  | .nan => 0.0 / 0.0

end Numeral

end TextDiagram
