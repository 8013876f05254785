/-!
# Decimal numbers

Numbers written in a diagram are kept as written: the digits and a power of ten. No rounding takes
place until a drawing needs the number.
-/

namespace TextDiagram

/-- The non-negative number `digits * 10 ^ exponent`. -/
structure Decimal where
  digits : Nat
  exponent : Int
  deriving DecidableEq, Repr, Inhabited

namespace Decimal

/-- The number that a list of ASCII digits spells. -/
def digitsValue (ds : List Char) : Nat := ds.foldl (fun n c => 10 * n + (c.toNat - 48)) 0

/-- Reads digits with at most one point among them; at least one digit has to be there. -/
def ofText? (t : List Char) : Option Decimal :=
  let whole := t.takeWhile Char.isDigit
  match t.dropWhile Char.isDigit with
  | [] => if whole.isEmpty then none else some ⟨digitsValue whole, 0⟩
  | c :: fraction =>
    if c = '.' ∧ fraction.all Char.isDigit ∧ ¬(whole.isEmpty ∧ fraction.isEmpty) then
      some ⟨digitsValue (whole ++ fraction), -fraction.length⟩
    else none

/-- The number as a fraction. -/
def toRat (d : Decimal) : Rat := d.digits * (10 : Rat) ^ d.exponent

/-- The nearest floating-point number. A number beyond every finite one becomes infinity and one
below every positive one becomes zero, whatever the size of the exponent. -/
def toFloat (d : Decimal) : Float :=
  -- The two bounds keep powers of ten small; between them the conversion rounds correctly.
  if d.digits = 0 ∨ d.exponent + d.digits.log2 + 1 < -400 then 0
  else if 400 < d.exponent then 1.0 / 0.0
  else Float.ofScientific d.digits (d.exponent < 0) d.exponent.natAbs

end Decimal

end TextDiagram
