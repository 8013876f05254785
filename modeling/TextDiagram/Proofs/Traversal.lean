import Mathlib.Data.List.Forall2
/-!
# Lists worked through entry by entry

Layouts place the entries of a list one after the other. Placing keeps the entry beside its place,
so the entries can be read off the result; it succeeds when it succeeds on every entry.

Main statements:

* `map_mapIdx_eq_self`: what is kept of every entry makes up the list again.
* `bind_eq_ok_iff`: two steps that succeed one after the other.
* `exists_mapM_eq_ok`: a step that succeeds on every entry succeeds on the list.
* `map_of_mapM_eq_ok`, `of_mem_mapM_eq_ok`: the results stand for the entries, in order.
-/

namespace TextDiagram

variable {β γ ε : Type}

/-- In a list without repetition an entry does not stand before its place. -/
theorem notMem_before {before after : List β} {a : β} (h : (before ++ a :: after).Nodup) :
    a ∉ before := fun hmem =>
  (List.nodup_append.1 h).2.2 a hmem a List.mem_cons_self rfl

theorem map_mapIdx {δ : Type} (f : Nat → β → γ) (g : γ → δ) (entries : List β) :
    (entries.mapIdx f).map g = entries.mapIdx fun i a => g (f i a) :=
  List.ext_getElem (by simp) fun i _ _ => by simp

/-- What is kept of every entry whatever its index. -/
theorem map_mapIdx_eq_map {δ : Type} {f : Nat → β → γ} {g : γ → δ} {part : β → δ}
    (h : ∀ i a, g (f i a) = part a) (entries : List β) :
    (entries.mapIdx f).map g = entries.map part := by
  rw [map_mapIdx]
  refine List.ext_getElem (by simp) fun i _ _ => ?_
  rw [List.getElem_mapIdx, List.getElem_map, h]

theorem map_mapIdx_eq_self {f : Nat → β → γ} {g : γ → β} (h : ∀ i a, g (f i a) = a)
    (entries : List β) : (entries.mapIdx f).map g = entries :=
  (map_mapIdx_eq_map h entries).trans (List.map_id' entries)

theorem flatten_mapIdx_eq_flatMap (f : Nat → β → List γ) (entries : List β) :
    (entries.mapIdx f).flatten = entries.zipIdx.flatMap fun (a, i) => f i a := by
  rw [List.mapIdx_eq_zipIdx_map, ← List.flatMap_def]

/-- What holds of the results of an earlier and a later entry, by their indices. -/
theorem pairwise_mapIdx {R : γ → γ → Prop} {f : Nat → β → γ}
    (h : ∀ i j a b, i < j → R (f i a) (f j b)) (entries : List β) :
    (entries.mapIdx f).Pairwise R := by
  rw [List.pairwise_iff_getElem]
  intro i j hi hj hlt
  rw [List.getElem_mapIdx, List.getElem_mapIdx]
  exact h i j _ _ hlt

theorem forall₂_mapIdx {R : β → γ → Prop} {f : Nat → β → γ} (h : ∀ i a, R a (f i a))
    (entries : List β) : List.Forall₂ R entries (entries.mapIdx f) := by
  induction entries generalizing f with
  | nil => exact .nil
  | cons a rest ih =>
    rw [List.mapIdx_cons]
    exact .cons (h 0 a) (ih fun i b => h (i + 1) b)

theorem exists_of_forall₂ {R : β → γ → Prop} {entries : List β} {results : List γ}
    (h : List.Forall₂ R entries results) {b : γ} (hb : b ∈ results) : ∃ a ∈ entries, R a b := by
  induction h with
  | nil => simp at hb
  | @cons a b' _ _ hab _ ih =>
    rcases List.mem_cons.1 hb with rfl | hrest
    · exact ⟨a, List.mem_cons_self, hab⟩
    · rcases ih hrest with ⟨a', ha', hab'⟩
      exact ⟨a', List.mem_cons_of_mem a ha', hab'⟩

/-- What is kept of the entries of the first list makes up that list again. -/
theorem map_zipWith_eq_self {δ : Type} {f : β → γ → δ} {g : δ → β} (h : ∀ a b, g (f a b) = a)
    {entries : List β} {others : List γ} (hlength : entries.length ≤ others.length) :
    (entries.zipWith f others).map g = entries := by
  rw [← List.map_uncurry_zip_eq_zipWith, List.map_map]
  have hfst : g ∘ Function.uncurry f = Prod.fst := funext fun pair => h pair.1 pair.2
  rw [hfst, List.map_fst_zip hlength]

/-- What is kept of two lists worked through together. -/
theorem map_zipWith_eq_map_zip {δ ζ η : Type} {f : β → γ → δ} {kept : δ → ζ} {part : β → η}
    {g : η × γ → ζ} (h : ∀ a b, kept (f a b) = g (part a, b)) (entries : List β)
    (others : List γ) : (entries.zipWith f others).map kept =
      ((entries.map part).zip others).map g := by
  rw [List.zip_map_left, List.map_map, List.map_zipWith, ← List.map_uncurry_zip_eq_zipWith]
  exact List.map_congr_left fun pair _ => h pair.1 pair.2

/-- What is made of two lists together is made of entries that stand side by side. -/
theorem exists_of_mem_zipWith {δ : Type} {R : β → γ → Prop} {f : β → γ → δ} {entries : List β}
    {others : List γ} (h : List.Forall₂ R entries others) {c : δ}
    (hc : c ∈ entries.zipWith f others) : ∃ a b, R a b ∧ f a b = c := by
  induction h with
  | nil => cases hc
  | @cons a b _ _ hab _ ih =>
    rcases List.mem_cons.1 hc with rfl | hrest
    · exact ⟨a, b, hab, rfl⟩
    · exact ih hrest

/-- Where a step keeps the entry in its result, those entries are left, in order, for which there is a
result. -/
theorem sublist_map_filterMap {f : β → Option γ} {g : γ → β} (h : ∀ a b, f a = some b → g b = a)
    (entries : List β) : ((entries.filterMap f).map g).Sublist entries := by
  induction entries with
  | nil => exact .slnil
  | cons a rest ih =>
    rw [List.filterMap_cons]
    cases ha : f a with
    | none => exact ih.cons a
    | some b =>
      rw [List.map_cons, h a b ha]
      exact ih.cons_cons a

/-- Two steps succeed one after the other if the first one does and the second one does on its
result. -/
theorem bind_eq_ok_iff {first : Except ε β} {rest : β → Except ε γ} {result : γ} :
    (first >>= rest) = .ok result ↔ ∃ a, first = .ok a ∧ rest a = .ok result := by
  cases first with
  | error e => simp [bind, Except.bind]
  | ok a => simp [bind, Except.bind]

theorem pure_eq_ok_iff {a b : β} : (pure a : Except ε β) = .ok b ↔ a = b :=
  Iff.of_eq (Except.ok.injEq a b)

variable {f : β → Except ε γ} {entries : List β} {results : List γ}

/-- Working through a list succeeds with results that stand for the entries one by one. -/
theorem mapM_eq_ok_iff :
    entries.mapM f = .ok results ↔ List.Forall₂ (fun a b => f a = .ok b) entries results := by
  induction entries generalizing results with
  | nil =>
    rw [List.mapM_nil, List.forall₂_nil_left_iff]
    exact ⟨fun h => (Except.ok.inj h).symm, fun h => h ▸ rfl⟩
  | cons a rest ih =>
    simp only [List.mapM_cons, List.forall₂_cons_left_iff, bind_eq_ok_iff, pure_eq_ok_iff, ih]
    constructor
    · rintro ⟨b, hb, bs, hbs, rfl⟩
      exact ⟨b, bs, hb, hbs, rfl⟩
    · rintro ⟨b, bs, hb, hbs, rfl⟩
      exact ⟨b, hb, bs, hbs, rfl⟩

theorem exists_mapM_eq_ok (h : ∀ a ∈ entries, ∃ b, f a = .ok b) :
    ∃ results, entries.mapM f = .ok results := by
  induction entries with
  | nil => exact ⟨[], rfl⟩
  | cons a rest ih =>
    rcases h a List.mem_cons_self with ⟨b, hb⟩
    rcases ih fun c hc => h c (List.mem_cons_of_mem a hc) with ⟨bs, hbs⟩
    exact ⟨b :: bs, mapM_eq_ok_iff.2 (.cons hb (mapM_eq_ok_iff.1 hbs))⟩

/-- What is kept of the entries makes up the same list in the results. -/
theorem map_of_mapM_eq_ok {δ : Type} {part : β → δ} {kept : γ → δ}
    (hkept : ∀ a b, f a = .ok b → kept b = part a) (h : entries.mapM f = .ok results) :
    results.map kept = entries.map part := by
  have hall := mapM_eq_ok_iff.1 h
  clear h
  induction hall with
  | nil => rfl
  | cons hab _ ih => rw [List.map_cons, List.map_cons, hkept _ _ hab, ih]

/-- Every entry has its result. -/
theorem exists_of_mem_entries (h : entries.mapM f = .ok results) {a : β} (ha : a ∈ entries) :
    ∃ b ∈ results, f a = .ok b := exists_of_forall₂ (mapM_eq_ok_iff.1 h).flip ha

/-- Every result was made of an entry. -/
theorem of_mem_mapM_eq_ok (h : entries.mapM f = .ok results) {b : γ} (hb : b ∈ results) :
    ∃ a ∈ entries, f a = .ok b := exists_of_forall₂ (mapM_eq_ok_iff.1 h) hb

end TextDiagram
