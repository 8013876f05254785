import Mathlib.Data.Rat.Cast.Order
import TextDiagram.Grid
import TextDiagram.Proofs.Geometry.Boundary
import TextDiagram.Proofs.Number.Extremes
import TextDiagram.Proofs.Traversal
/-!
# Grids lose no box

Cutting boxes into rows and placing the rows one below the other gives every box one frame of its
own size, in the order of the boxes. The number of a box tells its row and its column, and the
spacing is free between different rows and between different columns.

Main statements:

* `flatten_rows`: the rows put together are the list that was cut.
* `forall₂_frames`, `length_frames`: the frames are those of the boxes, one each, in order.
* `valid_of_mem_frames`: in exact arithmetic the sides of frames are in order.
* `getElem?_frames`: the frame of a box, by its row and its column.
* `bottom_add_spacing_le_top`, `right_add_spacing_le_left`: the room between rows and columns.
-/

namespace TextDiagram.Grid

/-! ## Cutting -/

/-- There is at least one column. -/
theorem columns_pos (count : Nat) : 0 < columns count := by
  unfold columns
  -- A count that is found is positive by the test, and the default is one.
  cases hfind : (List.range (count + 1)).find? fun k => 0 < k && count ≤ k * k with
  | none => exact Nat.one_pos
  | some k =>
    have hk := List.find?_some hfind
    simp only [Bool.and_eq_true, decide_eq_true_eq] at hk
    exact hk.1

section

variable {β : Type}

/-- Some rows in a row are the beginning of the list. -/
theorem flatten_map_range (length : Nat) (items : List β) (count : Nat) :
    ((List.range count).map fun row => (items.drop (row * length)).take length).flatten =
      items.take (count * length) := by
  induction count with
  | zero => simp
  | succ count ih =>
    rw [List.range_succ, List.map_append, List.flatten_append, ih, Nat.succ_mul, List.take_add]
    simp

/-- The rows hold all items in their order. -/
theorem flatten_rows {length : Nat} (h : 0 < length) (items : List β) :
    (rows length items).flatten = items := by
  rw [rows, flatten_map_range]
  refine List.take_of_length_le ?_
  -- Rounding the number of rows up leaves room for all items.
  have hdiv := Nat.div_add_mod (items.length + length - 1) length
  have hmod := Nat.mod_lt (items.length + length - 1) h
  rw [Nat.mul_comm] at hdiv
  omega

end

/-! ## Placing -/

variable {α : Type} [Scalar α]

/-- A frame fits a box when it has the size of the box, wherever it stands. -/
def Fits (size : Size α) (frame : Rect α) : Prop := ∃ x y, frame = Rect.ofSize x y size

/-- Frames have the sizes that were asked for. -/
theorem forall₂_placeRows (left step spacing top : α) (sizes : List (List (Size α))) :
    List.Forall₂ Fits sizes.flatten (placeRows left step spacing top sizes) := by
  induction sizes generalizing top with
  | nil => exact .nil
  | cons row more ih =>
    rw [List.flatten_cons, placeRows]
    exact List.rel_append (forall₂_mapIdx (fun _ _ => ⟨_, _, rfl⟩) row) (ih _)

/-- Every box has a frame that fits it, in the order of the boxes. -/
theorem forall₂_frames (padding spacing : α) (sizes : List (Size α)) :
    List.Forall₂ Fits sizes (frames padding spacing sizes) := by
  have h := forall₂_placeRows padding (widest sizes + spacing) spacing padding
    (rows (columns sizes.length) sizes)
  rwa [flatten_rows (columns_pos sizes.length)] at h

/-- There is one frame for each size. -/
theorem length_frames (padding spacing : α) (sizes : List (Size α)) :
    (frames padding spacing sizes).length = sizes.length :=
  (forall₂_frames padding spacing sizes).length_eq.symm

/-- In exact arithmetic the sides of the frames are in order if no box has a negative size. -/
theorem valid_of_mem_frames {padding spacing : Rat} {sizes : List (Size Rat)}
    (hsizes : ∀ size ∈ sizes, 0 ≤ size.width ∧ 0 ≤ size.height) {frame : Rect Rat}
    (h : frame ∈ frames padding spacing sizes) : frame.Valid := by
  rcases exists_of_forall₂ (forall₂_frames padding spacing sizes) h with ⟨size, hsize, x, y, rfl⟩
  exact Rect.valid_ofSize x y (hsizes size hsize).1 (hsizes size hsize).2

/-! ## Rows and columns -/

section

variable {β : Type} {length : Nat}

/-- No items need no rows. -/
theorem rows_nil (h : 0 < length) : rows length ([] : List β) = [] := by
  have hcount : (length - 1) / length = 0 := Nat.div_eq_of_lt (by omega)
  simp [rows, hcount]

/-- Cutting takes the first row off and goes on with the rest. -/
theorem rows_eq_cons (h : 0 < length) {items : List β} (hne : items ≠ []) :
    rows length items = items.take length :: rows length (items.drop length) := by
  have hpos := List.length_pos_iff.2 hne
  have hcount : (items.length + length - 1) / length =
      (items.length - length + length - 1) / length + 1 := by
    have hround : items.length + length - 1 = items.length - 1 + length := by omega
    rw [hround, Nat.add_div_right _ h]
    rcases Nat.lt_or_ge items.length length with hlt | hle
    · rw [Nat.div_eq_of_lt (by omega), Nat.div_eq_of_lt (by omega)]
    · rw [Nat.sub_add_cancel hle]
  simp only [rows, hcount, List.length_drop]
  rw [List.range_succ_eq_map, List.map_cons, List.map_map]
  simp only [Nat.zero_mul, List.drop_zero, List.cons.injEq, true_and]
  refine List.map_congr_left fun row _ => ?_
  simp only [Function.comp_apply, List.drop_drop, Nat.succ_mul, Nat.add_comm]

/-- The rows hold nothing but the items. -/
theorem mem_of_mem_rows {row items : List β} {item : β} (h : row ∈ rows length items)
    (hitem : item ∈ row) : item ∈ items := by
  rcases List.mem_map.1 h with ⟨n, -, rfl⟩
  exact List.mem_of_mem_drop (List.mem_of_mem_take hitem)

/-- An entry stands in the row of its number. -/
theorem mem_getElem?_rows (h : 0 < length) {items : List β} {i : Nat} {item : β}
    (hi : items[i]? = some item) :
    ∃ row, (rows length items)[i / length]? = some row ∧ item ∈ row := by
  rcases List.getElem?_eq_some_iff.1 hi with ⟨hlt, -⟩
  have hcount : i / length < (items.length + length - 1) / length := by
    rw [← Nat.succ_le_iff, Nat.le_div_iff_mul_le h, Nat.succ_mul]
    have := Nat.div_mul_le_self i length
    omega
  refine ⟨(items.drop (i / length * length)).take length, by simp [rows, hcount], ?_⟩
  refine List.mem_of_getElem? (i := i % length) ?_
  rw [List.getElem?_take_of_lt (Nat.mod_lt i h), List.getElem?_drop, Nat.div_add_mod', hi]

end

/-- The height at which a row begins, if the first one begins at the given height. -/
def rowTop (spacing : α) : α → List (List (Size α)) → Nat → α
  | top, row :: more, n + 1 => rowTop spacing (top + (tallest row + spacing)) more n
  | top, _, _ => top

/-- A box has its corner where its row and its column begin. -/
theorem getElem?_placeRows {length : Nat} (h : 0 < length) (left step spacing top : α)
    (sizes : List (Size α)) (i : Nat) :
    (placeRows left step spacing top (rows length sizes))[i]? = sizes[i]?.map fun size =>
      Rect.ofSize (left + ((i % length : Nat) : α) * step)
        (rowTop spacing top (rows length sizes) (i / length)) size := by
  by_cases hne : sizes = []
  · simp [hne, rows_nil h, placeRows]
  · have hpos := List.length_pos_iff.2 hne
    rw [rows_eq_cons h hne, placeRows, List.getElem?_append, List.length_mapIdx, List.length_take]
    -- The frame is in the first row, or in one of those that are placed below it.
    split
    · next hi =>
      have hlt : i < length := by omega
      simp [Nat.mod_eq_of_lt hlt, Nat.div_eq_of_lt hlt, rowTop, hlt]
    · next hi =>
      by_cases hshort : sizes.length ≤ i
      · -- Nothing is left for the rows that follow.
        have hrest : (sizes.drop length)[i - min length sizes.length]? = none := by
          refine List.getElem?_eq_none ?_
          rw [List.length_drop]
          omega
        rw [getElem?_placeRows h, hrest, List.getElem?_eq_none hshort]
        rfl
      · -- All rows but the last are full, so the first row takes up `length` places.
        have hle : length ≤ i := by omega
        have hmin : min length sizes.length = length := by omega
        rw [hmin, getElem?_placeRows h, List.getElem?_drop, Nat.add_sub_cancel' hle,
          Nat.mod_eq_sub_mod hle, Nat.div_eq_sub_div h hle]
        rfl
termination_by sizes.length
decreasing_by all_goals exact List.length_drop ▸ Nat.sub_lt hpos h

/-- Where each frame is, from the number of its row and column. -/
theorem getElem?_frames (padding spacing : α) (sizes : List (Size α)) (i : Nat) :
    (frames padding spacing sizes)[i]? = sizes[i]?.map fun size =>
      Rect.ofSize
        (padding + ((i % columns sizes.length : Nat) : α) * (widest sizes + spacing))
        (rowTop spacing padding (rows (columns sizes.length) sizes) (i / columns sizes.length))
        size :=
  getElem?_placeRows (columns_pos sizes.length) _ _ _ _ _ _

/-- Every frame is made for a size and stands in its row and column. -/
theorem exists_size_of_getElem?_frames {padding spacing : α} {sizes : List (Size α)} {i : Nat}
    {frame : Rect α} (h : (frames padding spacing sizes)[i]? = some frame) :
    ∃ size, sizes[i]? = some size ∧ frame =
      Rect.ofSize
        (padding + ((i % columns sizes.length : Nat) : α) * (widest sizes + spacing))
        (rowTop spacing padding (rows (columns sizes.length) sizes) (i / columns sizes.length))
        size := by
  rw [getElem?_frames, Option.map_eq_some_iff] at h
  rcases h with ⟨size, hsize, rfl⟩
  exact ⟨size, hsize, rfl⟩

section

variable {padding spacing : α} {sizes : List (Size α)} {i j : Nat} {a b : Rect α}
  (ha : (frames padding spacing sizes)[i]? = some a)
  (hb : (frames padding spacing sizes)[j]? = some b)

include ha hb

/-- Boxes of one row begin at one height. -/
theorem top_eq_of_row_eq (h : i / columns sizes.length = j / columns sizes.length) :
    a.top = b.top := by
  rcases exists_size_of_getElem?_frames ha with ⟨_, -, rfl⟩
  rcases exists_size_of_getElem?_frames hb with ⟨_, -, rfl⟩
  rw [h]
  rfl

/-- Boxes of one column begin at one abscissa. -/
theorem left_eq_of_column_eq (h : i % columns sizes.length = j % columns sizes.length) :
    a.left = b.left := by
  rcases exists_size_of_getElem?_frames ha with ⟨_, -, rfl⟩
  rcases exists_size_of_getElem?_frames hb with ⟨_, -, rfl⟩
  rw [h]
  rfl

end

/-- In exact arithmetic a frame has the extents of its box. -/
theorem extents_of_getElem?_frames {padding spacing : Rat} {sizes : List (Size Rat)} {i : Nat}
    {frame : Rect Rat} (h : (frames padding spacing sizes)[i]? = some frame) :
    ∃ size ∈ sizes, frame.width = size.width ∧ frame.height = size.height := by
  rcases exists_size_of_getElem?_frames h with ⟨size, hsize, rfl⟩
  exact ⟨size, List.mem_of_getElem? hsize, add_sub_cancel_left _ _, add_sub_cancel_left _ _⟩

/-! ## Room between rows and columns -/

/-- Nothing in a row is higher than the tallest. -/
theorem height_le_tallest {row : List (Size Rat)} {size : Size Rat} (h : size ∈ row) :
    size.height ≤ tallest row := by
  cases row with
  | nil => simp at h
  | cons first others => exact Scalar.le_maximum_map Size.height h

/-- Nothing is wider than the widest. -/
theorem width_le_widest {sizes : List (Size Rat)} {size : Size Rat} (h : size ∈ sizes) :
    size.width ≤ widest sizes := by
  cases sizes with
  | nil => simp at h
  | cons first others => exact Scalar.le_maximum_map Size.width h

/-- A row without negative heights has none itself. -/
theorem tallest_nonneg {row : List (Size Rat)} (h : ∀ size ∈ row, 0 ≤ size.height) :
    0 ≤ tallest row := by
  cases row with
  | nil => exact le_rfl
  | cons first others =>
    exact (h first List.mem_cons_self).trans (height_le_tallest List.mem_cons_self)

/-- The next row begins below the tallest box of a row, unless there is no such row. -/
theorem rowTop_succ (spacing top : Rat) (cells : List (List (Size Rat))) (n : Nat) :
    rowTop spacing top cells (n + 1) =
      rowTop spacing top cells n + cells[n]?.elim 0 fun row => tallest row + spacing := by
  induction cells generalizing top n with
  | nil => cases n <;> exact (add_zero top).symm
  | cons first more ih =>
    cases n with
    | zero => cases more <;> rfl
    | succ n => exact ih (top + (tallest first + spacing)) n

section

variable {padding spacing : Rat} {sizes : List (Size Rat)} (hspacing : 0 ≤ spacing)
  (hheight : ∀ size ∈ sizes, 0 ≤ size.height)

include hspacing hheight

/-- Later rows are not further up. -/
theorem rowTop_mono (length : Nat) (top : Rat) {n m : Nat} (h : n ≤ m) :
    rowTop spacing top (rows length sizes) n ≤ rowTop spacing top (rows length sizes) m := by
  induction m, h using Nat.le_induction with
  | base => exact le_rfl
  | succ m _ ih =>
    rw [rowTop_succ]
    cases hrow : (rows length sizes)[m]? with
    | none => exact ih.trans_eq (add_zero _).symm
    | some row =>
      have hmem := List.mem_of_getElem? hrow
      have htallest := tallest_nonneg fun size hsize => hheight size (mem_of_mem_rows hmem hsize)
      show _ ≤ _ + (tallest row + spacing)
      linarith

variable {i j : Nat} {a b : Rect Rat} (ha : (frames padding spacing sizes)[i]? = some a)
  (hb : (frames padding spacing sizes)[j]? = some b)

include ha hb

/-- A box in an earlier row leaves the spacing free above one in a later row. -/
theorem bottom_add_spacing_le_top (h : i / columns sizes.length < j / columns sizes.length) :
    a.bottom + spacing ≤ b.top := by
  rcases exists_size_of_getElem?_frames ha with ⟨size, hsize, rfl⟩
  rcases exists_size_of_getElem?_frames hb with ⟨_, -, rfl⟩
  rcases mem_getElem?_rows (columns_pos sizes.length) hsize with ⟨row, hrow, hmem⟩
  have hnext := rowTop_mono hspacing hheight (columns sizes.length) padding (Nat.succ_le_of_lt h)
  rw [Nat.succ_eq_add_one, rowTop_succ, hrow] at hnext
  have htallest := height_le_tallest hmem
  simp only [Rect.ofSize, Option.elim_some] at hnext ⊢
  linarith

end

/-- A box in an earlier column leaves the spacing free on the left of one in a later column. -/
theorem right_add_spacing_le_left {padding spacing : Rat} {sizes : List (Size Rat)}
    (hspacing : 0 ≤ spacing) (hwidth : ∀ size ∈ sizes, 0 ≤ size.width) {i j : Nat} {a b : Rect Rat}
    (ha : (frames padding spacing sizes)[i]? = some a)
    (hb : (frames padding spacing sizes)[j]? = some b)
    (h : i % columns sizes.length < j % columns sizes.length) : a.right + spacing ≤ b.left := by
  rcases exists_size_of_getElem?_frames ha with ⟨size, hsize, rfl⟩
  rcases exists_size_of_getElem?_frames hb with ⟨_, -, rfl⟩
  have hmem := List.mem_of_getElem? hsize
  have hwidest := width_le_widest hmem
  have hle : ((i % columns sizes.length : Nat) : Rat) + 1 ≤ (j % columns sizes.length : Nat) := by
    exact_mod_cast h
  have hstep : 0 ≤ widest sizes + spacing := by linarith [hwidth size hmem]
  have hmul := mul_le_mul_of_nonneg_right hle hstep
  simp only [Rect.ofSize]
  linarith

section

variable {padding spacing : Rat} {sizes : List (Size Rat)} {i j : Nat} {a b : Rect Rat}
  (hspacing : 0 ≤ spacing) (ha : (frames padding spacing sizes)[i]? = some a)
  (hb : (frames padding spacing sizes)[j]? = some b)

include hspacing ha hb

/-- Boxes begin at one height, or the spacing is free between their rows. -/
theorem row_eq_or (hheight : ∀ size ∈ sizes, 0 ≤ size.height) :
    (i / columns sizes.length = j / columns sizes.length ∧ a.top = b.top) ∨
      a.bottom + spacing ≤ b.top ∨ b.bottom + spacing ≤ a.top := by
  rcases Nat.lt_trichotomy (i / columns sizes.length) (j / columns sizes.length) with h | h | h
  · exact Or.inr (Or.inl (bottom_add_spacing_le_top hspacing hheight ha hb h))
  · exact Or.inl ⟨h, top_eq_of_row_eq ha hb h⟩
  · exact Or.inr (Or.inr (bottom_add_spacing_le_top hspacing hheight hb ha h))

/-- Boxes begin at one abscissa, or the spacing is free between their columns. -/
theorem column_eq_or (hwidth : ∀ size ∈ sizes, 0 ≤ size.width) :
    (i % columns sizes.length = j % columns sizes.length ∧ a.left = b.left) ∨
      a.right + spacing ≤ b.left ∨ b.right + spacing ≤ a.left := by
  rcases Nat.lt_trichotomy (i % columns sizes.length) (j % columns sizes.length) with h | h | h
  · exact Or.inr (Or.inl (right_add_spacing_le_left hspacing hwidth ha hb h))
  · exact Or.inl ⟨h, left_eq_of_column_eq ha hb h⟩
  · exact Or.inr (Or.inr (right_add_spacing_le_left hspacing hwidth hb ha h))

end

end TextDiagram.Grid
