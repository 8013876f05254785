/-!
# Exact values and their texts

Every number that a drawing computes has an exact value: a fraction with a sign, an infinity, or no
number. Rounding to an integer and all number texts are functions of the exact value, and a half
always goes to the even neighbour. Square roots are rounded in the same way, to some number of bits.
-/

namespace TextDiagram

/-- The exact value of a computed number. Zero has a sign. -/
inductive Exact where
  | finite (negative : Bool) (num den : Nat)
  | infinite (negative : Bool)
  | nan
  deriving DecidableEq, Repr, Inhabited

/-- The integer nearest to a quotient; a tie goes to the even one. -/
def roundHalfEven (num den : Nat) : Nat :=
  let q := num / den
  let r := num % den
  if 2 * r < den ∨ (2 * r = den ∧ q % 2 = 0) then q else q + 1

/-- What the lowest `k` bits add to the first bits of a square root. -/
def rootBits (n : Nat) : Nat → Nat → Nat
  | 0, r => r
  | k + 1, r =>
    let more := r + Nat.pow 2 k
    rootBits n k (if more * more ≤ n then more else r)

/-- The greatest number with a square that is not above the given one. -/
def floorRoot (n : Nat) : Nat := rootBits n (n.log2 / 2 + 1) 0

example : floorRoot 99 = 9 ∧ floorRoot 100 = 10 := by decide

/-- The square root rounded to so many significant bits: the bits as one number, and how many bits have
been rounded away. A tie goes to the even neighbour. -/
def significantRoot (bits n : Nat) : Nat × Nat :=
  let excess := (floorRoot n).log2 + 1 - bits
  let q := floorRoot n / Nat.pow 2 excess
  -- Twice the root is compared with the middle between two neighbours.
  let middle := (2 * q + 1) * Nat.pow 2 excess
  if 4 * n < middle * middle ∨ (4 * n = middle * middle ∧ q % 2 = 0) then (q, excess)
  else (q + 1, excess)

example : significantRoot 2 81 = (2, 2) ∧ significantRoot 4 110 = (10, 0) := by decide

namespace Exact

/-- An integer with a sign of its own. -/
def signedInt (negative : Bool) (n : Nat) : Int := if negative then -(n : Int) else n

/-- The integer nearest to a signed quotient; a tie goes to the even one. -/
def nearest (negative : Bool) (num den : Nat) : Int :=
  signedInt negative (roundHalfEven num den)

/-- The least integer that is not below the value; zero when there is none. -/
def ceil : Exact → Int
  | .finite negative num den =>
    if negative then -((num / den : Nat) : Int) else (((num + den - 1) / den : Nat) : Int)
  | _ => 0

/-! ## Texts -/

/-- Digits with zeros in front up to the given length. -/
def padLeft (length : Nat) (ds : List Char) : List Char :=
  List.replicate (length - ds.length) '0' ++ ds

/-- The digits of `n` with a point before the last `places` of them. -/
def withPoint (places n : Nat) : List Char :=
  let ds := padLeft (places + 1) (Nat.toDigits 10 n)
  if places = 0 then ds
  else ds.take (ds.length - places) ++ '.' :: ds.drop (ds.length - places)

/-- A minus sign when asked for. -/
def sign (negative : Bool) : List Char := if negative then ['-'] else []

/-- The words for values that have no digits. -/
def word : Exact → List Char
  | .nan => "nan".toList
  | .infinite negative => sign negative ++ "inf".toList
  | .finite .. => []

/-- The value with a fixed number of places after the point. -/
def fixed (places : Nat) : Exact → List Char
  | .finite negative num den =>
    sign negative ++ withPoint places (roundHalfEven (num * Nat.pow 10 places) den)
  | x => x.word

/-- The exponent `e` with `10 ^ e ≤ num / den < 10 ^ (e + 1)`, for a positive fraction. -/
def magnitude (num den : Nat) : Int :=
  let a := (Nat.toDigits 10 num).length
  let b := (Nat.toDigits 10 den).length
  let e : Int := a - b
  -- The lengths alone leave two candidates, `e` and `e - 1`.
  if num * Nat.pow 10 (b - a) < den * Nat.pow 10 (a - b) then e - 1 else e

/-- The fraction rounded to `places + 1` significant digits: the digits as one number and the
exponent of the first of them. -/
def significant (places num den : Nat) : Nat × Int :=
  if num = 0 then (0, 0)
  else
    let e := magnitude num den
    let shift : Int := places - e
    let n :=
      roundHalfEven (num * Nat.pow 10 shift.toNat) (den * Nat.pow 10 (-shift).toNat)
    -- Rounding up may give one digit too many, as when 9.99 becomes 10.0.
    if n = Nat.pow 10 (places + 1) then (Nat.pow 10 places, e + 1) else (n, e)

/-- An exponent with its sign and at least two digits. -/
def exponentText (e : Int) : List Char :=
  'e' :: (if e < 0 then '-' else '+') :: padLeft 2 (Nat.toDigits 10 e.natAbs)

/-- The value with one digit before the point, a fixed number after it, and a power of ten. -/
def scientific (places : Nat) : Exact → List Char
  | .finite negative num den =>
    let (n, e) := significant places num den
    sign negative ++ withPoint places n ++ exponentText e
  | x => x.word

/-- A number text without the zeros at its end and without a point that would then end it. -/
def dropTrailingZeros (t : List Char) : List Char :=
  if t.contains '.' then
    ((t.reverse.dropWhile (· == '0')).dropWhile (· == '.')).reverse
  else t

/-- The value with at most six significant digits, positional from `0.0001` up to a million and
with a power of ten beyond. -/
def general : Exact → List Char
  | .finite negative num den =>
    let (n, e) := significant 5 num den
    if -4 ≤ e ∧ e < 6 then
      dropTrailingZeros (fixed (5 - e).toNat (.finite negative num den))
    else sign negative ++ dropTrailingZeros (withPoint 5 n) ++ exponentText e
  | x => x.word

end Exact

end TextDiagram
