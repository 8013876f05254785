import TextDiagram.Sorted
/-!
# Keyed lists

Diagrams keep their entities in lists in which every key occurs once. A list is filled by `put`,
which replaces an entry where it stands or adds it at the end, so the order is that of first
mention.

Main statements:

* `keys_put`: `put` keeps the keys and adds at most one at the end.
* `find?_put_self`, `find?_put_of_ne`: what is read back after `put`.
* `nodup_keys_put`, `nodup_keys_ensure`: keys stay distinct.
* `pairwise_lt_keys_sorted`: distinct keys are strictly increasing once they are sorted.
* `value?_eq_some_iff`: with distinct keys, what is read under a key is what stands beside it.
-/

namespace TextDiagram

/-- Entries that carry their own key. -/
class Keyed (β : Type) where
  /-- The key of an entry. -/
  key : β → String

instance {β : Type} : Keyed (String × β) where
  key entry := entry.1

namespace Keyed

variable {β : Type} [Keyed β]

/-- The keys of a list, in order. -/
def keys (entries : List β) : List String := entries.map key

/-- The first entry with the given key. -/
def find? (entries : List β) (k : String) : Option β := entries.find? (key · == k)

/-- Whether a key occurs. -/
def has (entries : List β) (k : String) : Bool := entries.any (key · == k)

/-- Replaces the entry with the key of the new one where it stands, or adds the new one last. -/
def put (entry : β) : List β → List β
  | [] => [entry]
  | e :: rest => if key e = key entry then entry :: rest else e :: put entry rest

/-- Adds an entry last unless its key occurs already. -/
def ensure (entry : β) (entries : List β) : List β :=
  if has entries (key entry) then entries else entries ++ [entry]

/-- Changes the entries with the given key. -/
def modify (k : String) (f : β → β) (entries : List β) : List β :=
  entries.map fun e => if key e = k then f e else e

/-- A list with only the last entry of each key, at the place where the key came first. -/
def ofList (entries : List β) : List β := entries.foldl (fun kept e => put e kept) []

/-- The value that a list of pairs holds under a key. -/
def value? {γ : Type} (entries : List (String × γ)) (k : String) : Option γ :=
  (find? entries k).map (·.2)

/-- The entries in increasing order of their keys by code point. -/
def sorted (entries : List β) : List β := sortBy (fun a b => key a ≤ key b) entries

/-! ## Elementary facts -/

@[simp] theorem keys_nil : keys ([] : List β) = [] := rfl

@[simp] theorem keys_cons (e : β) (rest : List β) : keys (e :: rest) = key e :: keys rest := rfl

theorem keys_put (entry : β) (entries : List β) :
    keys (put entry entries) =
      if key entry ∈ keys entries then keys entries else keys entries ++ [key entry] := by
  induction entries with
  | nil => simp [put]
  | cons e rest ih =>
    simp only [put]
    split
    · next h => simp [h]
    · next h =>
      have hne : ¬key entry = key e := fun he => h he.symm
      simp only [keys_cons, List.mem_cons, hne, false_or, ih]
      split <;> simp

theorem put_eq_append {entry : β} {entries : List β} (h : key entry ∉ keys entries) :
    put entry entries = entries ++ [entry] := by
  induction entries with
  | nil => rfl
  | cons e rest ih =>
    rw [keys_cons, List.mem_cons, not_or] at h
    rw [put, if_neg fun he => h.1 he.symm, ih h.2, List.cons_append]

theorem mem_keys_put {entry : β} {entries : List β} {k : String} :
    k ∈ keys (put entry entries) ↔ k = key entry ∨ k ∈ keys entries := by
  rw [keys_put]
  split
  · next h => exact ⟨Or.inr, fun hk => hk.elim (fun he => he ▸ h) id⟩
  · simp [or_comm]

theorem nodup_keys_append {entry : β} {entries : List β} (h : (keys entries).Nodup)
    (hn : key entry ∉ keys entries) : (keys entries ++ [key entry]).Nodup := by
  rw [List.nodup_append]
  refine ⟨h, by simp, ?_⟩
  intro a ha b hb hab
  simp only [List.mem_singleton] at hb
  exact hn (hb ▸ hab ▸ ha)

theorem nodup_keys_put {entry : β} {entries : List β} (h : (keys entries).Nodup) :
    (keys (put entry entries)).Nodup := by
  rw [keys_put]
  split
  · exact h
  · next hn => exact nodup_keys_append h hn

theorem find?_put_self (entry : β) (entries : List β) :
    find? (put entry entries) (key entry) = some entry := by
  induction entries with
  | nil => simp [put, find?]
  | cons e rest ih =>
    simp only [put]
    split
    · simp [find?]
    · next h =>
      have hb : (key e == key entry) = false := by simpa using h
      simp only [find?, List.find?_cons, hb] at ih ⊢
      exact ih

theorem find?_put_of_ne {entry : β} {k : String} (h : k ≠ key entry) (entries : List β) :
    find? (put entry entries) k = find? entries k := by
  induction entries with
  | nil => simpa [put, find?] using fun he => h he.symm
  | cons e rest ih =>
    simp only [put]
    split
    · next he =>
      have hb : (key entry == k) = false := by simpa using fun hk => h hk.symm
      have hb' : (key e == k) = false := by rw [he]; exact hb
      simp [find?, hb, hb']
    · simp only [find?, List.find?_cons] at ih ⊢
      split
      · rfl
      · exact ih

theorem has_iff_mem_keys (entries : List β) (k : String) :
    has entries k = true ↔ k ∈ keys entries := by
  simp [has, keys]

theorem key_eq_of_find? {entries : List β} {k : String} {e : β} (h : find? entries k = some e) :
    key e = k := by
  simpa using List.find?_some h

theorem mem_of_find? {entries : List β} {k : String} {e : β} (h : find? entries k = some e) :
    e ∈ entries := List.mem_of_find?_eq_some h

theorem keys_ensure (entry : β) (entries : List β) :
    keys (ensure entry entries) =
      if key entry ∈ keys entries then keys entries else keys entries ++ [key entry] := by
  simp only [ensure, has_iff_mem_keys]
  split
  · rfl
  · simp [keys]

theorem mem_keys_ensure {entry : β} {entries : List β} {k : String} :
    k ∈ keys (ensure entry entries) ↔ k = key entry ∨ k ∈ keys entries := by
  rw [keys_ensure]
  split
  · next h => exact ⟨Or.inr, fun hk => hk.elim (fun he => he ▸ h) id⟩
  · simp [or_comm]

theorem nodup_keys_ensure {entry : β} {entries : List β} (h : (keys entries).Nodup) :
    (keys (ensure entry entries)).Nodup := by
  rw [keys_ensure]
  split
  · exact h
  · next hn => exact nodup_keys_append h hn

theorem keys_modify {f : β → β} (hf : ∀ e, key (f e) = key e) (k : String) (entries : List β) :
    keys (modify k f entries) = keys entries := by
  simp only [keys, modify, List.map_map]
  refine List.map_congr_left fun e _ => ?_
  simp only [Function.comp_apply]
  split
  · exact hf e
  · rfl

theorem perm_sorted (entries : List β) : (sorted entries).Perm entries := perm_sortBy _ entries

theorem mem_keys_sorted {entries : List β} {k : String} :
    k ∈ keys (sorted entries) ↔ k ∈ keys entries :=
  ((perm_sorted entries).map key).mem_iff

theorem pairwise_lt_keys_sorted {entries : List β} (h : (keys entries).Nodup) :
    (keys (sorted entries)).Pairwise (· < ·) :=
  List.pairwise_map.2 (pairwise_lt_sortBy key h)

/-! ## Values of pairs -/

variable {γ : Type}

theorem mem_of_value? {entries : List (String × γ)} {k : String} {v : γ}
    (h : value? entries k = some v) : (k, v) ∈ entries := by
  rcases Option.map_eq_some_iff.1 h with ⟨⟨k', v'⟩, hfind, rfl⟩
  obtain rfl : k' = k := key_eq_of_find? hfind
  exact mem_of_find? hfind

theorem value?_eq_some_iff {entries : List (String × γ)} (h : (keys entries).Nodup) {k : String}
    {v : γ} : value? entries k = some v ↔ (k, v) ∈ entries := by
  refine ⟨mem_of_value?, fun hmem => ?_⟩
  induction entries with
  | nil => simp at hmem
  | cons e rest ih =>
    rw [keys_cons, List.nodup_cons] at h
    rcases List.mem_cons.1 hmem with rfl | hrest
    · simp [value?, find?, key]
    · have hne : ¬key e = k := fun he => h.1 (he ▸ List.mem_map_of_mem (f := key) hrest)
      have hrec := ih h.2 hrest
      simp only [value?, find?, List.find?_cons, beq_eq_false_iff_ne.2 hne] at hrec ⊢
      exact hrec

theorem exists_value?_iff {entries : List (String × γ)} {k : String} :
    (∃ v, value? entries k = some v) ↔ k ∈ keys entries := by
  constructor
  · rintro ⟨v, hv⟩
    exact List.mem_map_of_mem (f := key) (mem_of_value? hv)
  · intro hk
    rcases List.mem_map.1 hk with ⟨e, he, rfl⟩
    cases hfind : find? entries (key e) with
    | none => exact absurd (List.find?_eq_none.1 hfind e he) (by simp)
    | some e' => exact ⟨e'.2, by simp [value?, hfind]⟩

theorem value?_map {δ : Type} (f : γ → δ) (entries : List (String × γ)) (k : String) :
    value? (entries.map fun entry => (entry.1, f entry.2)) k = (value? entries k).map f := by
  simp only [value?, find?, List.find?_map, Option.map_map]
  rfl

theorem value?_put_self (k : String) (v : γ) (entries : List (String × γ)) :
    value? (put (k, v) entries) k = some v := by
  have h : find? (put (k, v) entries) k = some (k, v) := find?_put_self (k, v) entries
  simp [value?, h]

theorem value?_put_of_ne {k k' : String} (h : k' ≠ k) (v : γ) (entries : List (String × γ)) :
    value? (put (k, v) entries) k' = value? entries k' := by
  have hf : find? (put (k, v) entries) k' = find? entries k' := find?_put_of_ne h entries
  rw [value?, value?, hf]

end Keyed

end TextDiagram
