import Mathlib.Algebra.Field.Rat
import Mathlib.Data.List.Basic
import Mathlib.Data.List.Induction
import Mathlib.Data.List.TakeWhile
import Mathlib.Data.Nat.Digits.Defs
import TextDiagram.Number.Decimal
/-!
# What a decimal number is worth

A text of digits and points is a number if it has a digit and not more than one point. Its value is
that of all its digits together, read in base ten, divided by ten for every digit behind the point.

Main statements:

* `ofText?_eq_some_iff`: the texts that are read as numbers, and as which.
* `toRat_ofNumeral`: what these numbers are worth.
-/

namespace TextDiagram.Decimal

/-- A text of digits and at most one point, with at least one digit. -/
structure IsNumeral (t : List Char) : Prop where
  chars : ∀ c ∈ t, c.isDigit = true ∨ c = '.'
  digit : ∃ c ∈ t, c.isDigit = true
  point : t.count '.' ≤ 1

/-- The digits behind the point. -/
def decimals (t : List Char) : List Char := (t.dropWhile (· ≠ '.')).tail

/-- The number that a text of digits stands for, wherever there is a point. -/
def ofNumeral (t : List Char) : Decimal :=
  ⟨digitsValue (t.filter Char.isDigit), -(decimals t).length⟩

/-- The value of a text of digits, wherever there is a point. -/
def valueOf (t : List Char) : Rat :=
  (Nat.ofDigits 10 ((t.filter Char.isDigit).reverse.map fun c => c.toNat - '0'.toNat) : Nat) /
    (10 : Rat) ^ (decimals t).length

theorem digitsValue_concat (ds : List Char) (c : Char) :
    digitsValue (ds ++ [c]) = 10 * digitsValue ds + (c.toNat - 48) := by
  rw [digitsValue, List.foldl_concat, ← digitsValue]

/-- Digits are read from the one of the highest value on. -/
theorem digitsValue_eq (ds : List Char) :
    digitsValue ds = Nat.ofDigits 10 (ds.reverse.map fun c => c.toNat - '0'.toNat) := by
  induction ds using List.reverseRecOn with
  | nil => rfl
  | append_singleton ds c ih =>
    rw [digitsValue_concat, ih, List.reverse_concat, List.map_cons, Nat.ofDigits_cons]
    exact Nat.add_comm _ _

/-- A numeral is read as the number it writes. -/
theorem toRat_ofNumeral (t : List Char) : (ofNumeral t).toRat = valueOf t := by
  rw [toRat, ofNumeral, valueOf, digitsValue_eq, zpow_neg, zpow_natCast, div_eq_mul_inv]

/-! ## Numbers with and without a point -/

variable {whole fraction t : List Char}

theorem filter_of_digits (h : ∀ c ∈ t, c.isDigit = true) : t.filter Char.isDigit = t :=
  List.filter_eq_self.2 h

theorem ne_point_of_isDigit {c : Char} (h : c.isDigit = true) : c ≠ '.' := by
  rintro rfl
  exact absurd h (by decide)

theorem not_point_of_digits (h : ∀ c ∈ t, c.isDigit = true) : '.' ∉ t :=
  fun hpoint => ne_point_of_isDigit (h '.' hpoint) rfl

theorem decimals_of_digits (h : ∀ c ∈ t, c.isDigit = true) : decimals t = [] := by
  have hdrop : t.dropWhile (· ≠ '.') = [] :=
    List.dropWhile_eq_nil_iff.2 fun c hc => decide_eq_true (ne_point_of_isDigit (h c hc))
  rw [decimals, hdrop, List.tail_nil]

theorem decimals_append (h : ∀ c ∈ whole, c.isDigit = true) (fraction : List Char) :
    decimals (whole ++ '.' :: fraction) = fraction := by
  have hdrop : ∀ c ∈ whole, decide (c ≠ '.') = true :=
    fun c hc => decide_eq_true (ne_point_of_isDigit (h c hc))
  rw [decimals, List.dropWhile_append_of_pos hdrop, List.dropWhile_cons_of_neg (by decide),
    List.tail_cons]

/-- Digits without a point are read. -/
theorem ofText?_of_digits (h : ∀ c ∈ t, c.isDigit = true) (hne : t ≠ []) :
    ofText? t = some (ofNumeral t) := by
  have hwhole : t.takeWhile Char.isDigit = t := List.takeWhile_eq_self_iff.2 h
  have hrest : t.dropWhile Char.isDigit = [] := List.dropWhile_eq_nil_iff.2 h
  rw [ofText?, hwhole, hrest, ofNumeral, filter_of_digits h, decimals_of_digits h]
  exact if_neg (by simpa using hne)

/-- Digits around a point are read, on one side at least. -/
theorem ofText?_append (hwhole : ∀ c ∈ whole, c.isDigit = true)
    (hfraction : ∀ c ∈ fraction, c.isDigit = true) (hne : ¬(whole = [] ∧ fraction = [])) :
    ofText? (whole ++ '.' :: fraction) = some (ofNumeral (whole ++ '.' :: fraction)) := by
  have htake : (whole ++ '.' :: fraction).takeWhile Char.isDigit = whole := by
    rw [List.takeWhile_append_of_pos hwhole, List.takeWhile_cons_of_neg (by decide),
      List.append_nil]
  have hdrop : (whole ++ '.' :: fraction).dropWhile Char.isDigit = '.' :: fraction := by
    rw [List.dropWhile_append_of_pos hwhole, List.dropWhile_cons_of_neg (by decide)]
  have hfilter : (whole ++ '.' :: fraction).filter Char.isDigit = whole ++ fraction := by
    rw [List.filter_append, List.filter_cons_of_neg (by decide), filter_of_digits hwhole,
      filter_of_digits hfraction]
  have hall : '.' = '.' ∧ fraction.all Char.isDigit = true ∧
      ¬(whole.isEmpty = true ∧ fraction.isEmpty = true) :=
    ⟨rfl, List.all_eq_true.2 hfraction, by simpa only [List.isEmpty_iff] using hne⟩
  rw [ofText?, htake, hdrop, ofNumeral, hfilter, decimals_append hwhole]
  exact if_pos hall

/-- A numeral has digits only, or it has a point with digits before or behind it. -/
theorem IsNumeral.cases (h : IsNumeral t) : (t ≠ [] ∧ ∀ c ∈ t, c.isDigit = true) ∨
    ∃ whole fraction, t = whole ++ '.' :: fraction ∧ (∀ c ∈ whole, c.isDigit = true) ∧
      (∀ c ∈ fraction, c.isDigit = true) ∧ ¬(whole = [] ∧ fraction = []) := by
  obtain ⟨hchars, ⟨d, hd, hdigit⟩, hpoint⟩ := h
  by_cases hmem : '.' ∈ t
  · obtain ⟨whole, fraction, rfl⟩ := List.append_of_mem hmem
    -- There is one point, so it is neither before nor behind this one.
    rw [List.count_append, List.count_cons_self] at hpoint
    have hwhole : '.' ∉ whole := List.count_eq_zero.1 (by omega)
    have hfraction : '.' ∉ fraction := List.count_eq_zero.1 (by omega)
    refine .inr ⟨whole, fraction, rfl, fun c hc => ?_, fun c hc => ?_, ?_⟩
    · refine (hchars c (List.mem_append_left _ hc)).resolve_right ?_
      rintro rfl
      exact hwhole hc
    · refine (hchars c (List.mem_append_right _ (List.mem_cons_of_mem _ hc))).resolve_right ?_
      rintro rfl
      exact hfraction hc
    · rintro ⟨rfl, rfl⟩
      obtain rfl := List.mem_singleton.1 hd
      exact absurd hdigit (by decide)
  · refine .inl ⟨List.ne_nil_of_mem hd, fun c hc => (hchars c hc).resolve_right ?_⟩
    rintro rfl
    exact hmem hc

/-- Digits without a point are a numeral. -/
theorem isNumeral_of_digits (h : ∀ c ∈ t, c.isDigit = true) (hne : t ≠ []) : IsNumeral t := by
  obtain ⟨c, hc⟩ := List.exists_mem_of_ne_nil t hne
  refine ⟨fun c hc => .inl (h c hc), ⟨c, hc, h c hc⟩, ?_⟩
  rw [List.count_eq_zero.2 (not_point_of_digits h)]
  exact Nat.zero_le 1

/-- Digits around a point are a numeral, on one side at least. -/
theorem isNumeral_append (hwhole : ∀ c ∈ whole, c.isDigit = true)
    (hfraction : ∀ c ∈ fraction, c.isDigit = true) (hne : ¬(whole = [] ∧ fraction = [])) :
    IsNumeral (whole ++ '.' :: fraction) := by
  refine ⟨fun c hc => ?_, ?_, ?_⟩
  · obtain hc | hc := List.mem_append.1 hc
    · exact .inl (hwhole c hc)
    · obtain rfl | hc := List.mem_cons.1 hc
      · exact .inr rfl
      · exact .inl (hfraction c hc)
  · -- The digit that there must be is before the point or behind it.
    by_cases hempty : whole = []
    · obtain ⟨c, hc⟩ := List.exists_mem_of_ne_nil fraction fun h => hne ⟨hempty, h⟩
      exact ⟨c, List.mem_append_right _ (List.mem_cons_of_mem _ hc), hfraction c hc⟩
    · obtain ⟨c, hc⟩ := List.exists_mem_of_ne_nil whole hempty
      exact ⟨c, List.mem_append_left _ hc, hwhole c hc⟩
  · rw [List.count_append, List.count_cons_self,
      List.count_eq_zero.2 (not_point_of_digits hwhole),
      List.count_eq_zero.2 (not_point_of_digits hfraction)]

/-- Exactly the numerals are read as numbers. -/
theorem ofText?_eq_some_iff {d : Decimal} :
    ofText? t = some d ↔ IsNumeral t ∧ d = ofNumeral t := by
  constructor
  · intro h
    have hwhole : ∀ c ∈ t.takeWhile Char.isDigit, c.isDigit = true :=
      fun c hc => List.mem_takeWhile_imp hc
    have hsplit : t.takeWhile Char.isDigit ++ t.dropWhile Char.isDigit = t :=
      List.takeWhile_append_dropWhile
    have hread := h
    unfold ofText? at h
    -- Behind the leading digits stands nothing, or a point with digits.
    cases hrest : t.dropWhile Char.isDigit with
    | nil =>
      rw [hrest, List.append_nil] at hsplit
      rw [hsplit] at hwhole
      have hne : t ≠ [] := by
        rintro rfl
        cases h
      rw [ofText?_of_digits hwhole hne] at hread
      exact ⟨isNumeral_of_digits hwhole hne, (Option.some.inj hread).symm⟩
    | cons c fraction =>
      rw [hrest] at h hsplit
      simp only at h
      split at h
      · next hgood =>
        obtain ⟨rfl, hfraction, hne⟩ := hgood
        rw [List.all_eq_true] at hfraction
        simp only [List.isEmpty_iff] at hne
        rw [← hsplit, ofText?_append hwhole hfraction hne] at hread
        rw [← hsplit]
        exact ⟨isNumeral_append hwhole hfraction hne, (Option.some.inj hread).symm⟩
      · cases h
  · rintro ⟨h, rfl⟩
    obtain ⟨hne, hdigits⟩ | ⟨whole, fraction, rfl, hwhole, hfraction, hne⟩ := h.cases
    · exact ofText?_of_digits hdigits hne
    · exact ofText?_append hwhole hfraction hne

end TextDiagram.Decimal
