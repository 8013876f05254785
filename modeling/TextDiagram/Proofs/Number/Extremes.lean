import Mathlib.Algebra.Order.Ring.Unbundled.Rat
import Mathlib.Order.Bounds.Defs
import TextDiagram.Number.Scalar
/-!
# Extremes of fractions

On fractions the choices of `Scalar` are those of the linear order, so the extremes of a list are
known from the numbers below and above all of its entries.

Main statements: `le_minimum_iff`, `maximum_le_iff`, `minimum_mem`, `maximum_mem`, and for what is
read off the entries of a list `isLeast_minimum_map` and `isGreatest_maximum_map`.
-/

namespace TextDiagram.Scalar

/-- A minimum is the greatest lower bound. -/
theorem le_min_iff {k a b : Rat} : k ≤ Scalar.min a b ↔ k ≤ a ∧ k ≤ b := by
  rw [min_eq]
  split
  · next h => exact ⟨fun hb => ⟨hb.trans h.le, hb⟩, fun hab => hab.2⟩
  · next h => exact ⟨fun ha => ⟨ha, ha.trans (not_lt.1 h)⟩, fun hab => hab.1⟩

/-- A maximum is the least upper bound. -/
theorem max_le_iff {k a b : Rat} : Scalar.max a b ≤ k ↔ a ≤ k ∧ b ≤ k := by
  rw [max_eq]
  split
  · next h => exact ⟨fun hb => ⟨h.le.trans hb, hb⟩, fun hab => hab.2⟩
  · next h => exact ⟨fun ha => ⟨ha, (not_lt.1 h).trans ha⟩, fun hab => hab.1⟩

/-- Adding the same to both moves the minimum. -/
theorem min_add_add_right (a b c : Rat) : Scalar.min (a + c) (b + c) = Scalar.min a b + c := by
  rw [min_eq, min_eq, ite_add]
  simp only [add_lt_add_iff_right]

/-- Adding the same to both moves the maximum. -/
theorem max_add_add_right (a b c : Rat) : Scalar.max (a + c) (b + c) = Scalar.max a b + c := by
  rw [max_eq, max_eq, ite_add]
  simp only [add_lt_add_iff_right]

/-- The absolute value is the usual one. -/
theorem abs_eq (a : Rat) : Scalar.abs a = |a| := by
  unfold Scalar.abs
  split
  · next h => exact (abs_of_neg h).symm
  · next h => exact (abs_of_nonneg (not_lt.1 h)).symm

/-- A number is below the smallest of some numbers when it is below all of them. -/
theorem le_minimum_iff {k first : Rat} {others : List Rat} :
    k ≤ minimum first others ↔ ∀ a ∈ first :: others, k ≤ a := by
  induction others generalizing first with
  | nil => simp [minimum]
  | cons b rest ih =>
    have hstep : minimum first (b :: rest) = minimum (Scalar.min first b) rest := rfl
    rw [hstep, ih]
    simp only [List.forall_mem_cons, le_min_iff, and_assoc]

/-- What is picked out of some numbers, two at a time, is one of them. -/
theorem foldl_mem {pick : Rat → Rat → Rat} (hpick : ∀ a b, pick a b = a ∨ pick a b = b)
    (first : Rat) (others : List Rat) : others.foldl pick first ∈ first :: others := by
  induction others generalizing first with
  | nil => exact List.mem_singleton_self first
  | cons b rest ih =>
    rw [List.foldl_cons]
    rcases List.mem_cons.1 (ih (pick first b)) with heq | hrest
    · rw [heq]
      rcases hpick first b with hfirst | hb
      · rw [hfirst]
        exact List.mem_cons_self
      · rw [hb]
        exact List.mem_cons_of_mem _ List.mem_cons_self
    · exact List.mem_cons_of_mem _ (List.mem_cons_of_mem _ hrest)

/-- The smallest of some numbers is one of them. -/
theorem minimum_mem (first : Rat) (others : List Rat) : minimum first others ∈ first :: others :=
  foldl_mem (fun _ _ => (ite_eq_or_eq _ _ _).symm) first others

/-- The largest of some numbers is one of them. -/
theorem maximum_mem (first : Rat) (others : List Rat) : maximum first others ∈ first :: others :=
  foldl_mem (fun _ _ => (ite_eq_or_eq _ _ _).symm) first others

/-- A number is above the largest of some numbers when it is above all of them. -/
theorem maximum_le_iff {k first : Rat} {others : List Rat} :
    maximum first others ≤ k ↔ ∀ a ∈ first :: others, a ≤ k := by
  induction others generalizing first with
  | nil => simp [maximum]
  | cons b rest ih =>
    have hstep : maximum first (b :: rest) = maximum (Scalar.max first b) rest := rfl
    rw [hstep, ih]
    simp only [List.forall_mem_cons, max_le_iff, and_assoc]

section

variable {β : Type} {f : β → Rat} {k : Rat} {first : β} {others : List β}

/-- The minimum over a list is the greatest lower bound. -/
theorem le_minimum_map_iff :
    k ≤ minimum (f first) (others.map f) ↔ ∀ b ∈ first :: others, k ≤ f b := by
  rw [le_minimum_iff, ← List.map_cons, List.forall_mem_map]

/-- The minimum over a list is not above any of its values. -/
theorem minimum_map_le (f : β → Rat) {b : β} (h : b ∈ first :: others) :
    minimum (f first) (others.map f) ≤ f b :=
  le_minimum_map_iff.1 le_rfl b h

/-- The minimum over a list is the least of its values. -/
theorem isLeast_minimum_map (f : β → Rat) (first : β) (others : List β) :
    IsLeast {a | ∃ b ∈ first :: others, f b = a} (minimum (f first) (others.map f)) := by
  constructor
  · have hmem := minimum_mem (f first) (others.map f)
    rw [← List.map_cons] at hmem
    exact List.mem_map.1 hmem
  · rintro a ⟨b, hb, rfl⟩
    exact minimum_map_le f hb

/-- The minimum over a list is attained. -/
theorem exists_minimum_map_eq (f : β → Rat) (first : β) (others : List β) :
    ∃ b ∈ first :: others, f b = minimum (f first) (others.map f) :=
  (isLeast_minimum_map f first others).1

/-- The maximum over a list is the least upper bound. -/
theorem maximum_map_le_iff :
    maximum (f first) (others.map f) ≤ k ↔ ∀ b ∈ first :: others, f b ≤ k := by
  rw [maximum_le_iff, ← List.map_cons, List.forall_mem_map]

/-- The maximum over a list is not below any of its values. -/
theorem le_maximum_map (f : β → Rat) {b : β} (h : b ∈ first :: others) :
    f b ≤ maximum (f first) (others.map f) :=
  maximum_map_le_iff.1 le_rfl b h

/-- The maximum over a list is the greatest of its values. -/
theorem isGreatest_maximum_map (f : β → Rat) (first : β) (others : List β) :
    IsGreatest {a | ∃ b ∈ first :: others, f b = a} (maximum (f first) (others.map f)) := by
  constructor
  · have hmem := maximum_mem (f first) (others.map f)
    rw [← List.map_cons] at hmem
    exact List.mem_map.1 hmem
  · rintro a ⟨b, hb, rfl⟩
    exact le_maximum_map f hb

end

end TextDiagram.Scalar
