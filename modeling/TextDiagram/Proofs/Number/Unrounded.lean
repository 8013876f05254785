import Mathlib.Analysis.SpecialFunctions.Complex.Arg
import TextDiagram.Number.Scalar
import TextDiagram.Proofs.Number.Ceiling
/-!
# Arithmetic without rounding

Scalars that stand for real numbers, and calculate as these do. Fractions are of this kind. So are the
real numbers themselves, which have the circle functions too.

Main statements:

* `Unrounded.mul_div_mul`, `Unrounded.min_mul` and so on: a common positive factor may be left out of a
  quotient or a comparison, and taken out of a minimum.
* `RealScalar.homogeneous`: a multiple of a vector is as many times as long and has the same angle.
* `RoundsUp Rat`, `RoundsUp RealScalar`: the next integer above a number is that above its value.
-/

namespace TextDiagram

/-- Numbers that are not rounded. Each stands for one real number, operations and order are those of the
real numbers, and none is infinite. -/
class Unrounded (α : Type) [Scalar α] where
  /-- The real number that a number stands for. -/
  value : α → ℝ
  value_injective : Function.Injective value
  value_add (a b : α) : value (a + b) = value a + value b
  value_sub (a b : α) : value (a - b) = value a - value b
  value_neg (a : α) : value (-a) = -value a
  value_mul (a b : α) : value (a * b) = value a * value b
  value_div (a b : α) : value (a / b) = value a / value b
  value_intCast (n : Int) : value (n : α) = n
  value_numeral (n : Nat) : value (OfNat.ofNat n : α) = n
  lt_iff (a b : α) : a < b ↔ value a < value b
  beq_iff (a b : α) : (a == b) = true ↔ a = b
  exists_exact (a : α) : ∃ negative num den, Scalar.exact a = .finite negative num den

/-- Unrounded numbers whose next integer above is that of the real number they stand for. -/
class RoundsUp (α : Type) [Scalar α] [Unrounded α] : Prop where
  ceil_eq (a : α) : Scalar.ceil a = ⌈Unrounded.value a⌉

/-- What is known of the circle functions: a multiple of a vector is as many times as long and has the
same angle. -/
structure Trig.Homogeneous (α : Type) [Scalar α] [Trig α] : Prop where
  hypot_mul (x y : α) {n : Int} (h : 1 ≤ n) : Trig.hypot (x * n) (y * n) = Trig.hypot x y * n
  atan2_mul (x y : α) {n : Int} (h : 1 ≤ n) : Trig.atan2 (y * n) (x * n) = Trig.atan2 y x

namespace Unrounded

variable {α : Type} [Scalar α] [Unrounded α]

attribute [simp] value_add value_sub value_neg value_mul value_div value_intCast

@[simp]
theorem value_ofNat (n : Nat) : value (ofNat(n) : α) = (OfNat.ofNat n : Nat) := value_numeral n

theorem intCast_pos {n : Int} (h : 1 ≤ n) : 0 < value (n : α) := by
  rw [value_intCast]
  exact_mod_cast h

theorem value_min (a b : α) : value (Scalar.min a b) = min (value a) (value b) := by
  unfold Scalar.min
  split
  · next h => rw [min_eq_right ((lt_iff b a).1 h).le]
  · next h => rw [min_eq_left (not_lt.1 (mt (lt_iff b a).2 h))]

/-! ## Common factors -/

protected theorem sub_add_cancel (a b : α) : a - b + b = a := by
  apply value_injective
  rw [value_add, value_sub]
  ring

protected theorem mul_assoc (a b c : α) : a * b * c = a * (b * c) := by
  apply value_injective
  simp only [value_mul]
  ring

protected theorem add_mul (a b c : α) : (a + b) * c = a * c + b * c := by
  apply value_injective
  simp only [value_add, value_mul]
  ring

protected theorem sub_mul (a b c : α) : (a - b) * c = a * c - b * c := by
  apply value_injective
  simp only [value_sub, value_mul]
  ring

protected theorem zero_mul (c : α) : 0 * c = 0 := by
  apply value_injective
  simp

variable {c : α} (hc : 0 < value c)

include hc

theorem mul_lt_mul_iff (a b : α) : a * c < b * c ↔ a < b := by
  rw [lt_iff, lt_iff, value_mul, value_mul]
  exact mul_lt_mul_iff_left₀ hc

theorem mul_beq_zero (a : α) : (a * c == 0) = (a == 0) := by
  rw [Bool.eq_iff_iff, beq_iff, beq_iff]
  constructor
  · intro h
    apply value_injective
    have h := congrArg value h
    simpa [hc.ne'] using h
  · intro h
    rw [h, Unrounded.zero_mul]

theorem mul_div_mul (a b : α) : a * c / (b * c) = a / b := by
  apply value_injective
  rw [value_div, value_div, value_mul, value_mul]
  exact mul_div_mul_right _ _ hc.ne'

theorem min_mul (a b : α) : Scalar.min (a * c) (b * c) = Scalar.min a b * c := by
  unfold Scalar.min
  simp only [mul_lt_mul_iff hc]
  split <;> rfl

end Unrounded

/-! ## Fractions -/

noncomputable instance : Unrounded Rat where
  value := Rat.cast
  value_injective := Rat.cast_injective
  value_add := Rat.cast_add
  value_sub := Rat.cast_sub
  value_neg := Rat.cast_neg
  value_mul := Rat.cast_mul
  value_div := Rat.cast_div
  value_intCast := Rat.cast_intCast
  value_numeral := Rat.cast_natCast
  lt_iff _ _ := Rat.cast_lt.symm
  beq_iff _ _ := beq_iff_eq
  exists_exact _ := ⟨_, _, _, rfl⟩

instance : RoundsUp Rat where
  ceil_eq q := (Scalar.ceil_rat q).trans (Rat.ceil_cast q).symm

/-! ## Real numbers -/

/-- The real numbers as scalars. -/
def RealScalar : Type := ℝ

namespace RealScalar

open Classical in
/-- The exact value of a real number, if it is a fraction; of any other one, the next integer. -/
noncomputable def exact (x : ℝ) : Exact :=
  if h : ∃ q : ℚ, (q : ℝ) = x then .ofRat h.choose else .ofRat ⌈x⌉

noncomputable instance : Scalar RealScalar where
  add := fun (a b : ℝ) => (a + b : ℝ)
  sub := fun (a b : ℝ) => (a - b : ℝ)
  mul := fun (a b : ℝ) => (a * b : ℝ)
  div := fun (a b : ℝ) => (a / b : ℝ)
  neg := fun (a : ℝ) => (-a : ℝ)
  le := fun (a b : ℝ) => a ≤ b
  lt := fun (a b : ℝ) => a < b
  beq := fun (a b : ℝ) => @decide (a = b) (Classical.dec _)
  natCast := fun n => (n : ℝ)
  intCast := fun n => (n : ℝ)
  numeral n := ⟨(n : ℝ)⟩
  decLe := fun _ _ => Classical.dec _
  decLt := fun _ _ => Classical.dec _
  ofDecimal d := (d.toRat : ℝ)
  exact := exact

noncomputable instance : Trig RealScalar where
  pi := Real.pi
  cos := Real.cos
  sin := Real.sin
  atan2 := fun (y x : ℝ) => Complex.arg ⟨x, y⟩
  hypot := fun (x y : ℝ) => Real.sqrt (x ^ 2 + y ^ 2)

theorem exists_exact (x : ℝ) : ∃ negative num den, exact x = .finite negative num den := by
  unfold exact
  split <;> exact ⟨_, _, _, rfl⟩

noncomputable instance : Unrounded RealScalar where
  value := fun (x : ℝ) => x
  value_injective := fun _ _ h => h
  value_add _ _ := rfl
  value_sub _ _ := rfl
  value_neg _ := rfl
  value_mul _ _ := rfl
  value_div _ _ := rfl
  value_intCast _ := rfl
  value_numeral _ := rfl
  lt_iff _ _ := Iff.rfl
  beq_iff a b := @decide_eq_true_iff (a = b) (Classical.dec _)
  exists_exact := exists_exact

instance : RoundsUp RealScalar where
  ceil_eq := by
    intro (x : ℝ)
    change (exact x).ceil = ⌈x⌉
    unfold exact
    split
    · next h =>
      have hceil : (Exact.ofRat h.choose).ceil = ⌈(h.choose : ℝ)⌉ := RoundsUp.ceil_eq h.choose
      rw [hceil, h.choose_spec]
    · exact (Scalar.ceil_rat _).trans (Int.ceil_intCast _)

theorem homogeneous : Trig.Homogeneous RealScalar where
  hypot_mul := by
    intro (x : ℝ) (y : ℝ) n hn
    have hpos : (0 : ℝ) ≤ n := by exact_mod_cast (by omega : 0 ≤ n)
    change Real.sqrt ((x * n) ^ 2 + (y * n) ^ 2) = Real.sqrt (x ^ 2 + y ^ 2) * n
    have hfactor : (x * n) ^ 2 + (y * n) ^ 2 = (x ^ 2 + y ^ 2) * (n : ℝ) ^ 2 := by ring
    rw [hfactor, Real.sqrt_mul' _ (sq_nonneg _), Real.sqrt_sq hpos]
  atan2_mul := by
    intro (x : ℝ) (y : ℝ) n hn
    have hpos : (0 : ℝ) < n := by exact_mod_cast hn
    change Complex.arg ⟨x * n, y * n⟩ = Complex.arg ⟨x, y⟩
    have hfactor : (⟨x * n, y * n⟩ : ℂ) = ((n : ℝ) : ℂ) * ⟨x, y⟩ := by
      apply Complex.ext <;> simp [mul_comm]
    rw [hfactor, Complex.arg_real_mul _ hpos]

end RealScalar

end TextDiagram
