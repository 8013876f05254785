import Mathlib.Data.Rat.Floor
import Mathlib.Tactic.Linarith
import TextDiagram.Number.Scalar
/-!
# The next integer above a fraction

Main statement: `ceil_rat`, the least integer that is not below a fraction is read off its exact value.
-/

namespace TextDiagram.Scalar

/-- A quotient is rounded up by rounding its negative down. -/
theorem neg_natCast_ediv (n : Nat) {d : Nat} (hd : 0 < d) :
    -(n : Int) / d = -((n + d - 1) / d : Nat) := by
  have hdiv := Nat.div_add_mod (n + d - 1) d
  have hlt := Nat.mod_lt (n + d - 1) hd
  have hcast : (d : Int) * ((n + d - 1) / d : Nat) + ((n + d - 1) % d : Nat) = n + d - 1 := by
    rw [← Int.natCast_mul, ← Int.natCast_add, hdiv]
    omega
  refine (Int.ediv_emod_unique (Int.natCast_pos.2 hd)
    (r := d - 1 - ((n + d - 1) % d : Nat))).2 ⟨?_, ?_, ?_⟩ |>.1
  · rw [mul_neg]
    linarith
  · omega
  · omega

theorem ceil_rat (q : Rat) : Scalar.ceil q = ⌈q⌉ := by
  have hexact : Scalar.exact q = .finite (q.num < 0) q.num.natAbs q.den := rfl
  rw [Scalar.ceil, hexact, Rat.ceil_def', Exact.ceil]
  by_cases hneg : q.num < 0
  · rw [if_pos (decide_eq_true hneg), Int.natCast_ediv, Int.natCast_natAbs, abs_of_neg hneg]
  · obtain ⟨n, hn⟩ := Int.eq_ofNat_of_zero_le (not_lt.1 hneg)
    rw [if_neg (by simpa using hneg), hn, Int.natAbs_natCast, neg_natCast_ediv n q.den_pos, neg_neg]

end TextDiagram.Scalar
