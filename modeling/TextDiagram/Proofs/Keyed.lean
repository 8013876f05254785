import Mathlib.Data.List.Basic
import Mathlib.Data.List.Induction
import TextDiagram.Keyed
/-!
# What keyed lists hold

A list is read under a key by `find?`. What is put under a key last is what is read there, and it does
not matter to one key what is put, added or changed under another.

Main statements:

* `find?_sorted`, `find?_ensure`, `find?_modify_self`, `find?_modify_of_ne`: what is read back.
* `value?_ofList`: what pairs leave behind under a key is the last value given to it.
* `put_of_find?`: an entry that is there already is put for nothing.
-/

namespace TextDiagram.Keyed

variable {β γ : Type} [Keyed β]

/-! ## Reading -/

/-- The first entry is looked at first. -/
theorem find?_cons (e : β) (rest : List β) (k : String) :
    find? (e :: rest) k = if key e = k then some e else find? rest k := by
  rw [find?, List.find?_cons]
  by_cases h : key e = k
  · rw [if_pos h, beq_iff_eq.2 h]
  · rw [if_neg h, beq_eq_false_iff_ne.2 h]
    rfl

/-- With distinct keys, the entry that is read under a key is any one that has the key. -/
theorem find?_eq_some_iff {entries : List β} (hnodup : (keys entries).Nodup) {k : String} {e : β} :
    find? entries k = some e ↔ e ∈ entries ∧ key e = k := by
  refine ⟨fun h => ⟨mem_of_find? h, key_eq_of_find? h⟩, ?_⟩
  rintro ⟨hmem, rfl⟩
  induction entries with
  | nil => cases hmem
  | cons first rest ih =>
    rw [keys_cons, List.nodup_cons] at hnodup
    rw [find?_cons]
    obtain rfl | hrest := List.mem_cons.1 hmem
    · exact if_pos rfl
    · have hne : key first ≠ key e := fun heq => hnodup.1 (heq ▸ List.mem_map_of_mem hrest)
      rw [if_neg hne, ih hnodup.2 hrest]

/-- Sorting entries with distinct keys changes no look-up. -/
theorem find?_sorted {entries : List β} (hnodup : (keys entries).Nodup) (k : String) :
    find? (sorted entries) k = find? entries k := by
  have hsorted : (keys (sorted entries)).Nodup :=
    ((perm_sorted entries).map key).nodup_iff.2 hnodup
  -- With distinct keys what is found for a key does not depend on the order.
  refine Option.ext fun e => ?_
  rw [find?_eq_some_iff hsorted, find?_eq_some_iff hnodup, (perm_sorted entries).mem_iff]

/-- An entry is found exactly for the keys of the list. -/
theorem exists_find?_iff {entries : List β} {k : String} :
    (∃ e, find? entries k = some e) ↔ k ∈ keys entries := by
  constructor
  · rintro ⟨e, he⟩
    exact key_eq_of_find? he ▸ List.mem_map_of_mem (mem_of_find? he)
  · intro hk
    obtain ⟨e, he, rfl⟩ := List.mem_map.1 hk
    exact Option.isSome_iff_exists.1 (List.find?_isSome.2 ⟨e, he, beq_self_eq_true (key e)⟩)

/-! ## Adding and changing -/

/-- An entry that is added does not hide one that is there. -/
theorem find?_ensure {entries : List β} {k : String} {e : β} (h : find? entries k = some e)
    (entry : β) : find? (ensure entry entries) k = some e := by
  rw [ensure]
  split
  · exact h
  · rw [find?, List.find?_append, ← find?, h]
    rfl

section

variable {f : β → β}

/-- Modifying by a function that changes nothing changes nothing. -/
theorem modify_of_forall (h : ∀ e, f e = e) (k : String) (entries : List β) :
    modify k f entries = entries := by
  have hsame : (fun e : β => if key e = k then f e else e) = id := by
    funext e
    rw [h, ite_self, id]
  rw [modify, hsame, List.map_id]

/-- Two modifications of one entry are one. -/
theorem modify_modify (hkey : ∀ e, key (f e) = key e) (g : β → β) (k : String) (entries : List β) :
    modify k g (modify k f entries) = modify k (fun e => g (f e)) entries := by
  rw [modify, modify, List.map_map]
  refine List.map_congr_left fun e _ => ?_
  simp only [Function.comp_apply]
  by_cases he : key e = k
  · rw [if_pos he, if_pos he, hkey, if_pos he]
  · rw [if_neg he, if_neg he, if_neg he]

/-- The modified entry is found. -/
theorem find?_modify_self (hkey : ∀ e, key (f e) = key e) (k : String) (entries : List β) :
    find? (modify k f entries) k = (find? entries k).map f := by
  induction entries with
  | nil => rfl
  | cons e rest ih =>
    rw [modify, List.map_cons, ← modify, find?_cons, find?_cons, ih]
    -- The entry keeps its key, so it is found in the same place.
    by_cases h : key e = k
    · rw [if_pos h, hkey, if_pos h, if_pos h]
      rfl
    · rw [if_neg h, if_neg h, if_neg h]

/-- Other entries are found as before. -/
theorem find?_modify_of_ne (hkey : ∀ e, key (f e) = key e) {k k' : String} (h : k' ≠ k)
    (entries : List β) : find? (modify k f entries) k' = find? entries k' := by
  induction entries with
  | nil => rfl
  | cons e rest ih =>
    rw [modify, List.map_cons, ← modify, find?_cons, find?_cons, ih]
    by_cases hk : key e = k
    · rw [if_pos hk, hkey, hk, if_neg h.symm, if_neg h.symm]
    · rw [if_neg hk]

/-- What a change does to an entry has been done to the entry that is read, or it has not changed. -/
theorem exists_find?_modify {r : β → β → Prop} (hrefl : ∀ e, r e e) (hchange : ∀ e, r e (f e))
    (hkey : ∀ e, key (f e) = key e) {entries : List β} {k : String} {e : β}
    (h : find? entries k = some e) (k' : String) :
    ∃ e', find? (modify k' f entries) k = some e' ∧ r e e' := by
  by_cases hk : k = k'
  · subst hk
    exact ⟨f e, by rw [find?_modify_self hkey, h]; rfl, hchange e⟩
  · exact ⟨e, by rw [find?_modify_of_ne hkey hk, h], hrefl e⟩

end

/-! ## Putting -/

/-- Putting an entry that is there already changes nothing. -/
theorem put_of_find? {entry : β} {entries : List β} (h : find? entries (key entry) = some entry) :
    put entry entries = entries := by
  induction entries with
  | nil => cases h
  | cons e rest ih =>
    rw [find?_cons] at h
    rw [put]
    by_cases he : key e = key entry
    · rw [if_pos he] at h
      rw [if_pos he, Option.some.inj h]
    · rw [if_neg he] at h
      rw [if_neg he, ih h]

/-- So are any entries that are there already. -/
theorem foldl_put_of_find? {entries added : List β}
    (h : ∀ e ∈ added, find? entries (key e) = some e) :
    added.foldl (fun kept e => put e kept) entries = entries := by
  induction added with
  | nil => rfl
  | cons e added ih =>
    rw [List.forall_mem_cons] at h
    rw [List.foldl_cons, put_of_find? h.1, ih h.2]

/-- Putting an entry twice is putting it once. -/
theorem put_put_self (entry : β) (entries : List β) :
    put entry (put entry entries) = put entry entries :=
  put_of_find? (find?_put_self entry entries)

/-- A value is found with its key. -/
theorem find?_of_value? {entries : List (String × γ)} {k : String} {v : γ}
    (h : value? entries k = some v) : find? entries k = some (k, v) := by
  obtain ⟨⟨k', v'⟩, hfind, rfl⟩ := Option.map_eq_some_iff.1 h
  obtain rfl : k' = k := key_eq_of_find? hfind
  exact hfind

/-- The value that was given to a key last. -/
def last? (bindings : List (String × γ)) (k : String) : Option γ :=
  (bindings.reverse.find? (·.1 == k)).map (·.2)

/-- The last binding of a key, one binding further. -/
theorem last?_concat (bindings : List (String × γ)) (binding : String × γ) (k : String) :
    last? (bindings ++ [binding]) k =
      if binding.1 = k then some binding.2 else last? bindings k := by
  rw [last?, List.reverse_concat, List.find?_cons]
  by_cases h : binding.1 = k
  · rw [if_pos h, beq_iff_eq.2 h]
    rfl
  · rw [if_neg h, beq_eq_false_iff_ne.2 h]
    rfl

/-- The value of a key after another binding has been put. -/
theorem value?_put (binding : String × γ) (entries : List (String × γ)) (k : String) :
    value? (put binding entries) k =
      if binding.1 = k then some binding.2 else value? entries k := by
  obtain ⟨k', v⟩ := binding
  -- The entry stands at its key, wherever that is in the list.
  split
  · next h =>
    obtain rfl : k' = k := h
    exact value?_put_self k' v entries
  · next h => exact value?_put_of_ne (Ne.symm h) v entries

/-- Of all that is given to a key the last counts, or what was there if nothing is given to it. -/
theorem value?_foldl_put (bindings entries : List (String × γ)) (k : String) :
    value? (bindings.foldl (fun kept binding => put binding kept) entries) k =
      (last? bindings k).or (value? entries k) := by
  induction bindings using List.reverseRecOn with
  | nil => rfl
  | append_singleton bindings binding ih =>
    rw [List.foldl_concat, value?_put, last?_concat, ih]
    split <;> rfl

/-- Of several bindings of a key the last one counts. -/
theorem value?_ofList (bindings : List (String × γ)) (k : String) :
    value? (ofList bindings) k = last? bindings k := by
  rw [ofList, value?_foldl_put]
  exact Option.or_none

/-- If all keys are bound to one value, each has it. -/
theorem last?_map_of_mem {ks : List String} {k : String} (hk : k ∈ ks) (v : γ) :
    last? (ks.map (·, v)) k = some v := by
  induction ks using List.reverseRecOn with
  | nil => cases hk
  | append_singleton ks last ih =>
    rw [List.map_append, List.map_singleton, last?_concat]
    split
    · rfl
    · next hne =>
      obtain hk | hk := List.mem_append.1 hk
      · exact ih hk
      · exact absurd (List.mem_singleton.1 hk).symm hne

/-- One value that is given to some keys is given to them a second time for nothing. -/
theorem foldl_put_foldl_put (ks : List String) (v : γ) (entries : List (String × γ)) :
    (ks.map (·, v)).foldl (fun kept binding => put binding kept)
        ((ks.map (·, v)).foldl (fun kept binding => put binding kept) entries) =
      (ks.map (·, v)).foldl (fun kept binding => put binding kept) entries := by
  refine foldl_put_of_find? fun binding hbinding => find?_of_value? ?_
  obtain ⟨k, hk, rfl⟩ := List.mem_map.1 hbinding
  have hvalue := value?_foldl_put (ks.map (·, v)) entries k
  rw [last?_map_of_mem hk] at hvalue
  exact hvalue

end TextDiagram.Keyed
