/-!
# Sorted lists

Sorting by insertion: each entry goes before the first one that it does not exceed, so entries that
do not exceed each other keep their order.

Main statements:

* `perm_sortBy`: sorting keeps the entries.
* `pairwise_sortBy`: the result is in order, if the comparison is total and transitive.
* `pairwise_lt_sortBy`: entries with different keys end up in strict order of their keys.
-/

namespace TextDiagram

variable {β : Type}

/-- Puts an entry before the first one that it does not exceed. -/
def insertBy (le : β → β → Bool) (x : β) : List β → List β
  | [] => [x]
  | y :: rest => if le x y then x :: y :: rest else y :: insertBy le x rest

/-- A list in increasing order. -/
def sortBy (le : β → β → Bool) (entries : List β) : List β := entries.foldr (insertBy le) []

/-- Names in increasing order by code point. -/
def sortedNames (names : List String) : List String := sortBy (fun a b => a ≤ b) names

/-! ## Elementary facts -/

theorem perm_insertBy (le : β → β → Bool) (x : β) (entries : List β) :
    (insertBy le x entries).Perm (x :: entries) := by
  induction entries with
  | nil => exact .refl _
  | cons y rest ih =>
    simp only [insertBy]
    split
    · exact .refl _
    · exact (ih.cons y).trans (.swap x y rest)

theorem perm_sortBy (le : β → β → Bool) (entries : List β) :
    (sortBy le entries).Perm entries := by
  induction entries with
  | nil => exact .refl _
  | cons x rest ih => exact (perm_insertBy le x _).trans (ih.cons x)

theorem pairwise_insertBy {le : β → β → Bool} (total : ∀ a b, le a b = true ∨ le b a = true)
    (trans : ∀ {a b c}, le a b = true → le b c = true → le a c = true) (x : β) {entries : List β}
    (h : entries.Pairwise fun a b => le a b = true) :
    (insertBy le x entries).Pairwise fun a b => le a b = true := by
  induction entries with
  | nil => simp [insertBy]
  | cons y rest ih =>
    have hy := List.pairwise_cons.1 h
    simp only [insertBy]
    split
    · next hxy =>
      refine List.pairwise_cons.2 ⟨fun z hz => ?_, h⟩
      rcases List.mem_cons.1 hz with rfl | hz
      · exact hxy
      · exact trans hxy (hy.1 z hz)
    · next hxy =>
      refine List.pairwise_cons.2 ⟨fun z hz => ?_, ih hy.2⟩
      rcases List.mem_cons.1 ((perm_insertBy le x rest).mem_iff.1 hz) with rfl | hz
      · exact (total z y).resolve_left hxy
      · exact hy.1 z hz

theorem pairwise_sortBy {le : β → β → Bool} (total : ∀ a b, le a b = true ∨ le b a = true)
    (trans : ∀ {a b c}, le a b = true → le b c = true → le a c = true) (entries : List β) :
    (sortBy le entries).Pairwise fun a b => le a b = true := by
  induction entries with
  | nil => exact .nil
  | cons x rest ih => exact pairwise_insertBy total trans x ih

theorem mem_sortBy {le : β → β → Bool} {x : β} {entries : List β} :
    x ∈ sortBy le entries ↔ x ∈ entries := (perm_sortBy le entries).mem_iff

/-! ## Keys compared by code point -/

theorem pairwise_le_sortBy (key : β → String) (entries : List β) :
    (sortBy (fun a b => key a ≤ key b) entries).Pairwise fun a b => key a ≤ key b := by
  have total : ∀ a b : β, decide (key a ≤ key b) = true ∨ decide (key b ≤ key a) = true := by
    intro a b
    simpa using String.le_total (key a) (key b)
  have trans : ∀ {a b c : β}, decide (key a ≤ key b) = true → decide (key b ≤ key c) = true →
      decide (key a ≤ key c) = true := by
    intro a b c hab hbc
    exact decide_eq_true (String.le_trans (of_decide_eq_true hab) (of_decide_eq_true hbc))
  exact (pairwise_sortBy total trans entries).imp of_decide_eq_true

theorem pairwise_lt_sortBy (key : β → String) {entries : List β} (h : (entries.map key).Nodup) :
    (sortBy (fun a b => key a ≤ key b) entries).Pairwise fun a b => key a < key b := by
  have hnodup : (sortBy (fun a b => key a ≤ key b) entries).Pairwise fun a b => key a ≠ key b := by
    have hkeys := ((perm_sortBy (fun a b => key a ≤ key b) entries).map key).nodup_iff.2 h
    exact List.pairwise_map.1 hkeys
  refine ((pairwise_le_sortBy key entries).and hnodup).imp ?_
  rintro a b ⟨hle, hne⟩
  exact Decidable.byContradiction fun hlt => hne (String.le_antisymm hle hlt)

theorem mem_sortedNames {name : String} {names : List String} :
    name ∈ sortedNames names ↔ name ∈ names := mem_sortBy

theorem perm_sortedNames (names : List String) : (sortedNames names).Perm names :=
  perm_sortBy _ names

theorem pairwise_lt_sortedNames {names : List String} (h : names.Nodup) :
    (sortedNames names).Pairwise (· < ·) :=
  pairwise_lt_sortBy (fun name => name) (by simpa using h)

end TextDiagram
