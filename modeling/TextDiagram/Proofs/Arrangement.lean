import TextDiagram.Proofs.Geometry.Canvas
import TextDiagram.Proofs.Grid
/-!
# Boxes arranged in a square

A grid has as many columns as the root of the number of its boxes, rounded up, so it never has more
rows than columns. The boxes of a row begin at one height and those of a column at one abscissa.
Different boxes stand in different rows or in different columns, which is why the spacing is free
between any two of them, and the canvas made for the frames leaves its padding free around all.

Main statements:

* `isLeast_columns`: the number of columns.
* `tabular_frames`: the rows and the columns of the frames.
* `frames_arranged`: frames for boxes of any sizes, rows, columns, gaps and canvas together.
-/

namespace TextDiagram.Grid

/-! ## The number of columns -/

/-- There are no more columns than a square with room for all boxes needs. -/
theorem isLeast_columns {count : Nat} (h : 0 < count) :
    IsLeast {k | count ≤ k * k} (columns count) := by
  unfold columns
  cases hfind : (List.range (count + 1)).find? fun k => 0 < k && count ≤ k * k with
  | none =>
    -- A row for each box would be a square that is large enough.
    have hcount := List.find?_eq_none.1 hfind count (List.mem_range.2 (Nat.lt_succ_self count))
    simp only [Bool.and_eq_true, decide_eq_true_eq, not_and] at hcount
    exact absurd (Nat.le_mul_of_pos_left count h) (hcount h)
  | some k =>
    rcases List.find?_range_eq_some.1 hfind with ⟨hk, -, hbefore⟩
    simp only [Bool.and_eq_true, decide_eq_true_eq] at hk
    refine ⟨hk.2, fun j hj => ?_⟩
    by_contra hlt
    have hnot := hbefore j (not_le.1 hlt)
    have hpos : 0 < j := Nat.pos_of_mul_pos_right (h.trans_le hj)
    simp only [Bool.not_eq_true', Bool.and_eq_false_iff, decide_eq_false_iff_not] at hnot
    rcases hnot with hnot | hnot
    · exact hnot hpos
    · exact hnot hj

/-! ## Rows and columns -/

/-- Frames on a square grid with rows of the given length. The number of a frame gives its row and
its column; the frames of a row have one top and those of a column one left side. Between different
rows and between different columns the gap is free. -/
structure Tabular (length : Nat) (gap : Rat) (frames : List (Rect Rat)) : Prop where
  row_lt : ∀ i < frames.length, i / length < length
  top_eq : ∀ {i j a b}, frames[i]? = some a → frames[j]? = some b → i / length = j / length →
    a.top = b.top
  left_eq : ∀ {i j a b}, frames[i]? = some a → frames[j]? = some b → i % length = j % length →
    a.left = b.left
  bottom_add_le_top : ∀ {i j a b}, frames[i]? = some a → frames[j]? = some b →
    i / length < j / length → a.bottom + gap ≤ b.top
  right_add_le_left : ∀ {i j a b}, frames[i]? = some a → frames[j]? = some b →
    i % length < j % length → a.right + gap ≤ b.left

/-- Frames with different numbers are in different rows or in different columns. -/
theorem Tabular.pairwise_apart {length : Nat} {gap : Rat} {frames : List (Rect Rat)}
    (h : Tabular length gap frames) : frames.Pairwise fun a b => a.Apart b ⟨gap, gap⟩ := by
  rw [List.pairwise_iff_getElem]
  intro i j hi hj hlt
  have ha := List.getElem?_eq_getElem hi
  have hb := List.getElem?_eq_getElem hj
  rcases Nat.lt_or_ge (i / length) (j / length) with hrow | hrow
  · exact ⟨.y, Or.inl (h.bottom_add_le_top ha hb hrow)⟩
  · -- The later number is in the same row, so it is in another column.
    have hsame : i / length = j / length := le_antisymm (Nat.div_le_div_right hlt.le) hrow
    have hcolumn : i % length < j % length := by
      have hi := Nat.div_add_mod i length
      have hj := Nat.div_add_mod j length
      rw [hsame] at hi
      omega
    exact ⟨.x, Or.inl (h.right_add_le_left ha hb hcolumn)⟩

theorem tabular_nil (gap : Rat) : Tabular 0 gap [] := by
  constructor <;> simp

/-- In exact arithmetic the frames have the sizes of the boxes, in order. -/
theorem extents_frames (padding spacing : Rat) (sizes : List (Size Rat)) :
    (frames padding spacing sizes).map (fun r => (⟨r.width, r.height⟩ : Size Rat)) = sizes := by
  refine List.ext_getElem? fun i => ?_
  rw [List.getElem?_map, getElem?_frames, Option.map_map]
  have hsize : ∀ size : Size Rat, ∀ x y : Rat,
      (⟨(Rect.ofSize x y size).width, (Rect.ofSize x y size).height⟩ : Size Rat) = size :=
    fun size x y => congrArg₂ Size.mk (add_sub_cancel_left _ _) (add_sub_cancel_left _ _)
  exact (Option.map_congr fun size _ => hsize size _ _).trans Option.map_id'

section

variable {padding spacing : Rat} {sizes : List (Size Rat)} (hspacing : 0 ≤ spacing)
  (hsizes : ∀ size ∈ sizes, 0 ≤ size.width ∧ 0 ≤ size.height)

include hspacing hsizes

theorem tabular_frames (hne : sizes ≠ []) :
    Tabular (columns sizes.length) spacing (frames padding spacing sizes) where
  row_lt i hi := by
    rw [length_frames] at hi
    have hsquare := (isLeast_columns (List.length_pos_iff.2 hne)).1
    exact Nat.div_lt_of_lt_mul (hi.trans_le hsquare)
  top_eq ha hb := top_eq_of_row_eq ha hb
  left_eq ha hb := left_eq_of_column_eq ha hb
  bottom_add_le_top ha hb :=
    bottom_add_spacing_le_top hspacing (fun size hsize => (hsizes size hsize).2) ha hb
  right_add_le_left ha hb :=
    right_add_spacing_le_left hspacing (fun size hsize => (hsizes size hsize).1) ha hb

/-- No frame starts before the padding ends. -/
theorem padding_le_low_of_mem_frames {frame : Rect Rat} (h : frame ∈ frames padding spacing sizes)
    (axis : Axis) : padding ≤ axis.low frame := by
  rcases List.mem_iff_getElem?.1 h with ⟨i, hi⟩
  rcases exists_size_of_getElem?_frames hi with ⟨size, hsize, rfl⟩
  have hmem := List.mem_of_getElem? hsize
  cases axis with
  | x =>
    have hstep : 0 ≤ widest sizes + spacing :=
      add_nonneg ((hsizes size hmem).1.trans (width_le_widest hmem)) hspacing
    exact le_add_of_nonneg_right (mul_nonneg (Nat.cast_nonneg _) hstep)
  | y =>
    have hfirst : rowTop spacing padding (rows (columns sizes.length) sizes) 0 = padding := by
      cases rows (columns sizes.length) sizes <;> rfl
    have hmono := rowTop_mono hspacing (fun size hsize => (hsizes size hsize).2)
      (columns sizes.length) padding (Nat.zero_le (i / columns sizes.length))
    rw [hfirst] at hmono
    exact hmono

/-- Every box has a frame of its size, in the order of the boxes. The frames stand on a square grid
with as few columns as there can be, the spacing is free between any two of them, and they lie in
the inner part of the canvas that is made for them. -/
theorem frames_arranged :
    (frames padding spacing sizes).map (fun r => (⟨r.width, r.height⟩ : Size Rat)) = sizes ∧
      (∃ cols, IsLeast {k | sizes.length ≤ k * k} cols ∧
        Tabular cols spacing (frames padding spacing sizes)) ∧
      (frames padding spacing sizes).Pairwise (fun a b => a.Apart b ⟨spacing, spacing⟩) ∧
      ∀ frame ∈ frames padding spacing sizes,
        ((canvasSize (frames padding spacing sizes) padding).inner padding).Contains frame := by
  have htable : ∃ cols, IsLeast {k | sizes.length ≤ k * k} cols ∧
      Tabular cols spacing (frames padding spacing sizes) := by
    by_cases hne : sizes = []
    · -- Without boxes no column is needed.
      subst hne
      exact ⟨0, ⟨Nat.le_refl 0, fun k _ => Nat.zero_le k⟩, tabular_nil spacing⟩
    · exact ⟨_, isLeast_columns (List.length_pos_iff.2 hne), tabular_frames hspacing hsizes hne⟩
  rcases htable with ⟨cols, hcols, htabular⟩
  refine ⟨extents_frames padding spacing sizes, ⟨cols, hcols, htabular⟩, htabular.pairwise_apart,
    fun frame hframe => ?_⟩
  exact contains_of_mem_frames hframe (padding_le_low_of_mem_frames hspacing hsizes hframe)

end

/-- Three boxes, the tallest of the first row on the right and one box in the second row. -/
theorem frames_arranged_in_two_rows :
    (0 : Rat) ≤ 10 ∧
      (∀ size ∈ [⟨30, 10⟩, ⟨20, 50⟩, (⟨40, 20⟩ : Size Rat)], 0 ≤ size.width ∧ 0 ≤ size.height) ∧
      frames 40 10 [⟨30, 10⟩, ⟨20, 50⟩, (⟨40, 20⟩ : Size Rat)] =
        [⟨40, 40, 70, 50⟩, ⟨90, 40, 110, 90⟩, ⟨40, 100, 80, 120⟩] ∧
      (∃ cols, IsLeast {k | 3 ≤ k * k} cols ∧
        Tabular cols 10 [⟨40, 40, 70, 50⟩, ⟨90, 40, 110, 90⟩, ⟨40, 100, 80, 120⟩]) ∧
      [⟨40, 40, 70, 50⟩, ⟨90, 40, 110, 90⟩, ⟨40, 100, 80, 120⟩].Pairwise
        (fun a b : Rect Rat => a.Apart b ⟨10, 10⟩) ∧
      ∀ frame ∈ [⟨40, 40, 70, 50⟩, ⟨90, 40, 110, 90⟩, (⟨40, 100, 80, 120⟩ : Rect Rat)],
        ((⟨150, 160⟩ : Size Rat).inner 40).Contains frame := by
  have hspacing : (0 : Rat) ≤ 10 := by decide
  have hsizes : ∀ size ∈ [⟨30, 10⟩, ⟨20, 50⟩, (⟨40, 20⟩ : Size Rat)],
      0 ≤ size.width ∧ 0 ≤ size.height := by decide
  have hframes : frames 40 10 [⟨30, 10⟩, ⟨20, 50⟩, (⟨40, 20⟩ : Size Rat)] =
      [⟨40, 40, 70, 50⟩, ⟨90, 40, 110, 90⟩, ⟨40, 100, 80, 120⟩] := by decide +kernel
  have hcanvas : canvasSize [⟨40, 40, 70, 50⟩, ⟨90, 40, 110, 90⟩,
      (⟨40, 100, 80, 120⟩ : Rect Rat)] 40 = ⟨150, 160⟩ := by decide +kernel
  have harranged := @frames_arranged 40 10 _ hspacing hsizes
  rw [hframes, hcanvas] at harranged
  exact ⟨hspacing, hsizes, hframes, harranged.2⟩

end TextDiagram.Grid
