import TextDiagram.Number.Decimal
import TextDiagram.Number.Exact
/-!
# Scalars

Geometry, placement and drawing are written once for every type of numbers with the arithmetic of
a `Scalar`. Two types are scalars: floating-point numbers, which a drawing is computed with, and
fractions, in which arithmetic is exact.

`Trig` holds the circle functions apart, because fractions have none.

Main statements: `Scalar.min_eq` and `Scalar.max_eq`, on fractions the two choices are the usual
minimum and maximum.
-/

namespace TextDiagram

/-- Numbers that geometry can be computed with. -/
class Scalar (α : Type) extends Add α, Sub α, Mul α, Div α, Neg α, LE α, LT α, BEq α, NatCast α,
    IntCast α where
  /-- Numerals of the type. -/
  numeral (n : Nat) : OfNat α n
  /-- Order is decidable. -/
  decLe : DecidableLE α
  /-- Strict order is decidable. -/
  decLt : DecidableLT α
  /-- The number of the type that is nearest to a decimal. -/
  ofDecimal : Decimal → α
  /-- The exact value of a number. -/
  exact : α → Exact

attribute [reducible] Scalar.numeral Scalar.decLe Scalar.decLt
attribute [instance] Scalar.numeral Scalar.decLe Scalar.decLt

/-- The functions that turn angles into directions and back. -/
class Trig (α : Type) where
  /-- Half a turn. -/
  pi : α
  /-- The cosine of an angle. -/
  cos : α → α
  /-- The sine of an angle. -/
  sin : α → α
  /-- The angle of the direction with the given ordinate and abscissa, in this order. -/
  atan2 : α → α → α
  /-- The length of a vector. -/
  hypot : α → α → α

namespace Scalar

variable {α : Type} [Scalar α]

/-- The smaller of two numbers; the first when neither is smaller. -/
def min (a b : α) : α := if b < a then b else a

/-- The larger of two numbers; the first when neither is larger. -/
def max (a b : α) : α := if a < b then b else a

/-- The distance from zero. -/
def abs (a : α) : α := if a < 0 then -a else a

/-- The smallest of some numbers. -/
def minimum (first : α) (others : List α) : α := others.foldl min first

/-- The largest of some numbers. -/
def maximum (first : α) (others : List α) : α := others.foldl max first

/-- Whether a number is infinite. -/
def isInfinite (a : α) : Bool :=
  match exact a with
  | .infinite _ => true
  | _ => false

/-- The least integer that is not below a number. -/
def ceil (a : α) : Int := (exact a).ceil

end Scalar

/-! ## Fractions -/

/-- The exact value of a fraction is the fraction itself. -/
def Exact.ofRat (q : Rat) : Exact := .finite (q.num < 0) q.num.natAbs q.den

instance : Scalar Rat where
  numeral _ := inferInstance
  decLe := inferInstance
  decLt := inferInstance
  ofDecimal := Decimal.toRat
  exact := Exact.ofRat

/-! ## Floating-point numbers -/

/-- The exact value of a floating-point number, read off its sign, exponent and fraction bits. -/
def Exact.ofFloat (x : Float) : Exact :=
  let bits := x.toBits.toNat
  let negative := bits / Nat.pow 2 63 == 1
  let exponent := bits / Nat.pow 2 52 % Nat.pow 2 11
  let fraction := bits % Nat.pow 2 52
  if exponent = 2047 then if fraction = 0 then .infinite negative else .nan
  else if exponent = 0 then .finite negative fraction (Nat.pow 2 1074)
  else
    .finite negative ((Nat.pow 2 52 + fraction) * Nat.pow 2 (exponent - 1075))
      (Nat.pow 2 (1075 - exponent))

instance : Scalar Float where
  natCast := Float.ofNat
  intCast := Float.ofInt
  numeral _ := inferInstance
  decLe := inferInstance
  decLt := inferInstance
  ofDecimal := Decimal.toFloat
  exact := Exact.ofFloat

/-- The floating-point number nearest to the length of a vector. The squares are taken of exact values,
so nothing overflows on the way and no digits are lost; an infinite coordinate makes the vector infinite,
whatever the other one is. -/
def floatHypot (x y : Float) : Float :=
  match Exact.ofFloat x, Exact.ofFloat y with
  | .infinite _, _ => 1.0 / 0.0
  | _, .infinite _ => 1.0 / 0.0
  | .finite _ a b, .finite _ c d =>
    -- All floating-point numbers are multiples of the least positive one.
    let m := a * (Nat.pow 2 1074 / b)
    let n := c * (Nat.pow 2 1074 / d)
    let root := significantRoot 53 (m * m + n * n)
    (Float.ofNat root.1).scaleB ((root.2 : Int) - 1074)
  | _, _ => 0.0 / 0.0

instance : Trig Float where
  pi := 3.141592653589793
  cos := Float.cos
  sin := Float.sin
  atan2 := Float.atan2
  hypot := floatHypot

/-! ## Elementary facts -/

namespace Scalar

theorem min_eq (a b : Rat) : Scalar.min a b = if b < a then b else a := rfl

theorem max_eq (a b : Rat) : Scalar.max a b = if a < b then b else a := rfl

theorem isInfinite_rat (q : Rat) : Scalar.isInfinite q = false := rfl

end Scalar

end TextDiagram
