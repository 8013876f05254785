import Mathlib.Data.List.Lattice
import Mathlib.Logic.Basic
import TextDiagram.Text.Cut
/-!
# Where a text can be cut

Main statements:

* `cut_isSome_iff`: a text is cut at every pattern that occurs in it.
* `cut_singleton_eq_none_iff`, `cut_singleton_eq_some_iff`: and at every character, where it occurs first.
* `cut_append`: a cut behind a text in which the pattern does not start.
* `infix_append_iff_of_disjoint`: a pattern stands on one side of a text without its characters.
* `cutLast_singleton_eq_none_iff`, `cutLast_singleton_append`: the last place where it occurs.
* `pieces_of_not_mem`, `pieces_append`: the pieces of a text, one by one.
* `findToken_isSome_iff`: some token of a table is found if one of them occurs.
* `findToken_eq_some`: which one is found.
-/

namespace TextDiagram.Text

variable {p t : List Char}

/-- A text begins with what it was put behind. -/
theorem isPrefixOf?_append (p rest : List Char) : p.isPrefixOf? (p ++ rest) = some rest := by
  induction p with
  | nil => rfl
  | cons c p ih =>
    have hstep : (c :: p).isPrefixOf? (c :: (p ++ rest)) =
        if c == c then p.isPrefixOf? (p ++ rest) else none := rfl
    rw [List.cons_append, hstep, ih]
    simp

/-- When a text does not begin with a given one. -/
theorem isPrefixOf?_eq_none_iff : p.isPrefixOf? t = none ↔ ¬p <+: t := by
  constructor
  · rintro hnone ⟨rest, rfl⟩
    rw [isPrefixOf?_append] at hnone
    cases hnone
  · intro hprefix
    cases hparts : p.isPrefixOf? t with
    | none => rfl
    | some rest => exact absurd ⟨rest, (eq_append_of_isPrefixOf? hparts).symm⟩ hprefix

/-- A text ends with what was put behind it. -/
theorem isSuffixOf?_append (a p : List Char) : p.isSuffixOf? (a ++ p) = some a := by
  rw [List.isSuffixOf?, List.reverse_append, isPrefixOf?_append, Option.map_some,
    List.reverse_reverse]

/-- What stands between two texts is found there. -/
theorem between?_append (opening closing : String) (t : List Char) :
    between? opening closing (opening.toList ++ (t ++ closing.toList)) = some t := by
  rw [between?, isPrefixOf?_append, Option.bind_some, isSuffixOf?_append]

/-- A text is cut at a pattern exactly if the pattern occurs in it. -/
theorem cut_isSome_iff : (cut p t).isSome = true ↔ p <:+: t := by
  induction t with
  | nil =>
    rw [cut, List.infix_nil, ← List.isEmpty_iff]
    cases p.isEmpty <;> simp
  | cons c rest ih =>
    rw [cut, List.infix_cons_iff]
    cases hparts : p.isPrefixOf? (c :: rest) with
    | none =>
      have hprefix := isPrefixOf?_eq_none_iff.1 hparts
      simp only [Option.isSome_map, ih, hprefix, false_or]
    | some after =>
      have hprefix : p <+: c :: rest := ⟨after, (eq_append_of_isPrefixOf? hparts).symm⟩
      simp only [Option.isSome_some, hprefix, true_or]

/-- A text is not cut where the pattern does not occur. -/
theorem cut_eq_none_iff : cut p t = none ↔ ¬p <:+: t := by
  rw [← cut_isSome_iff, Bool.not_eq_true, Option.isSome_eq_false_iff, Option.isNone_iff_eq_none]

/-- A text is not cut at a character that it does not have. -/
theorem cut_singleton_eq_none_iff {c : Char} : cut [c] t = none ↔ c ∉ t := by
  rw [cut_eq_none_iff, not_iff_not]
  constructor
  · intro hinfix
    exact hinfix.subset (List.mem_singleton_self c)
  · intro hmem
    rcases List.append_of_mem hmem with ⟨before, after, rfl⟩
    exact ⟨before, after, by simp⟩

/-- A text in which no occurrence of a pattern starts can be put before the place of the cut. -/
theorem cut_append {a : List Char} (h : ∀ s, s <:+ a → s ≠ [] → ¬p <+: s ++ t) :
    cut p (a ++ t) = (cut p t).map fun parts => (a ++ parts.1, parts.2) := by
  induction a with
  | nil => cases hcut : cut p t <;> simp [hcut]
  | cons c rest ih =>
    have hhere : ¬p <+: c :: (rest ++ t) := h _ (List.suffix_refl _) (List.cons_ne_nil _ _)
    have hrest := ih fun s hs => h s (hs.trans (List.suffix_cons c rest))
    rw [List.cons_append, cut, isPrefixOf?_eq_none_iff.2 hhere]
    simp only [hrest, Option.map_map]
    rfl

/-- The cut is behind any text without the first character of the pattern. -/
theorem cut_append_of_not_mem {c : Char} {a : List Char} (h : c ∉ a) :
    cut (c :: p) (a ++ t) = (cut (c :: p) t).map fun parts => (a ++ parts.1, parts.2) := by
  refine cut_append fun s hs hne hprefix => ?_
  obtain ⟨d, rest, rfl⟩ := List.exists_cons_of_ne_nil hne
  obtain ⟨rfl, -⟩ := List.cons_prefix_cons.1 hprefix
  exact h (hs.subset List.mem_cons_self)

/-! ## Texts that share no character with a pattern -/

section

variable {m : List Char}

/-- What is part of a text that it has no character in common with is empty. -/
theorem eq_nil_of_subset_of_disjoint {s : List Char} (h : s ⊆ m) (hdisjoint : m.Disjoint s) :
    s = [] := by
  rw [List.eq_nil_iff_forall_not_mem]
  intro c hc
  exact hdisjoint (h hc) hc

/-- A pattern that starts in front of such a text ends in front of it. -/
theorem prefix_of_prefix_append {s r : List Char} (hne : m ≠ []) (hdisjoint : m.Disjoint p)
    (h : p <+: s ++ (m ++ r)) : p <+: s := by
  obtain hle | ⟨more, rfl⟩ := List.prefix_or_prefix_of_prefix h (List.prefix_append s (m ++ r))
  · exact hle
  · obtain ⟨c, m, rfl⟩ := List.exists_cons_of_ne_nil hne
    rw [List.prefix_append_right_inj, List.cons_append] at h
    cases more with
    | nil => simp
    | cons d more =>
      obtain ⟨rfl, -⟩ := List.cons_prefix_cons.1 h
      exact absurd (by simp) (hdisjoint (a := d) List.mem_cons_self)

/-- A pattern stands on one side of such a text. -/
theorem infix_append_iff_of_disjoint {a b : List Char} (hne : m ≠ []) (hdisjoint : m.Disjoint p) :
    p <:+: a ++ (m ++ b) ↔ p <:+: a ∨ p <:+: b := by
  constructor
  · intro h
    -- The occurrence lies in `a`, in the rest, or across the border between the two.
    rw [List.infix_append_iff] at h
    obtain h | h | ⟨s, r, rfl, hs, hr⟩ := h
    · exact .inl h
    · rw [List.infix_append_iff] at h
      obtain h | h | ⟨s, r, rfl, hs, hr⟩ := h
      · rw [eq_nil_of_subset_of_disjoint h.subset hdisjoint]
        exact .inl List.nil_infix
      · exact .inr h
      · rw [List.disjoint_append_right] at hdisjoint
        rw [eq_nil_of_subset_of_disjoint hs.subset hdisjoint.1, List.nil_append]
        exact .inr hr.isInfix
    · rw [List.disjoint_append_right] at hdisjoint
      -- Across the border it would begin in `a` and go on in the gap.
      have hempty : r <+: [] := prefix_of_prefix_append hne hdisjoint.2 hr
      rw [List.prefix_nil.1 hempty, List.append_nil]
      exact .inl hs.isInfix
  · rintro (h | h)
    · exact h.trans (List.prefix_append a _).isInfix
    · exact h.trans ((List.suffix_append m b).trans (List.suffix_append a _)).isInfix

/-- The cut is behind a text without the pattern and a gap that has no character of it. -/
theorem cut_append_of_disjoint {a : List Char} (hp : p ≠ []) (hne : m ≠ [])
    (hdisjoint : m.Disjoint p) (ha : ¬p <:+: a) :
    cut p (a ++ (m ++ t)) = (cut p t).map fun parts => (a ++ (m ++ parts.1), parts.2) := by
  -- An occurrence that begins in the gap would have a character of it.
  have hbehind : cut p (m ++ t) = (cut p t).map fun parts => (m ++ parts.1, parts.2) := by
    refine cut_append fun s hs hempty hprefix => ?_
    have hstart : p <+: [] ++ (s ++ t) := hprefix
    have hs : s.Disjoint p := fun c hc => hdisjoint (hs.subset hc)
    exact hp (List.prefix_nil.1 (prefix_of_prefix_append hempty hs hstart))
  -- One that begins in `a` would end there, as the gap has no character of the pattern.
  have hfront : cut p (a ++ (m ++ t)) =
      (cut p (m ++ t)).map fun parts => (a ++ parts.1, parts.2) :=
    cut_append fun s hs _ hprefix =>
      ha ((prefix_of_prefix_append hne hdisjoint hprefix).isInfix.trans hs.isInfix)
  rw [hfront, hbehind, Option.map_map]
  rfl

end

/-- A text that begins with the pattern is cut there. -/
theorem cut_append_pattern (p rest : List Char) : cut p (p ++ rest) = some ([], rest) := by
  cases p with
  | nil => cases rest <;> rfl
  | cons c p => rw [List.cons_append, cut, ← List.cons_append, isPrefixOf?_append]

/-- A text is cut at a pattern in it if the pattern does not start earlier. -/
theorem cut_append_self {c : Char} {a : List Char} (h : c ∉ a) (rest : List Char) :
    cut (c :: p) (a ++ (c :: p ++ rest)) = some (a, rest) := by
  rw [cut_append_of_not_mem h, cut_append_pattern, Option.map_some, List.append_nil]

/-- At a character a text is cut where it occurs first. -/
theorem cut_singleton_eq_some_iff {c : Char} {a b : List Char} :
    cut [c] t = some (a, b) ↔ t = a ++ c :: b ∧ c ∉ a := by
  constructor
  · intro h
    have hmem : c ∈ t := by
      rw [eq_of_cut h]
      simp
    obtain ⟨first, rest, rfl, hfirst⟩ := List.eq_append_cons_of_mem hmem
    have hcut : cut [c] (first ++ c :: rest) = some (first, rest) := cut_append_self hfirst rest
    rw [hcut] at h
    cases h
    exact ⟨rfl, hfirst⟩
  · rintro ⟨rfl, hnot⟩
    exact cut_append_self hnot b

/-- Some token of a table is found exactly if one of its tokens occurs. -/
theorem findToken_isSome_iff {β : Type} {table : List (List Char × β)} :
    (findToken table t).isSome = true ↔ ∃ entry ∈ table, entry.1 <:+: t := by
  rw [findToken, List.findSome?_isSome_iff]
  simp only [Option.isSome_map, cut_isSome_iff]

/-- No token is found if none occurs. -/
theorem findToken_eq_none {β : Type} {table : List (List Char × β)}
    (h : ∀ entry ∈ table, ¬entry.1 <:+: t) : findToken table t = none := by
  rw [← Option.isNone_iff_eq_none, ← Option.isSome_eq_false_iff, ← Bool.not_eq_true,
    findToken_isSome_iff]
  rintro ⟨entry, hmem, hinfix⟩
  exact h entry hmem hinfix

/-- What is said of the texts on the two sides of the token that is found. -/
theorem exists_findToken_iff {β : Type} {table : List (List Char × β)} {left right : List Char}
    {value : β} {q : List Char → List Char → Prop}
    (h : findToken table t = some (left, value, right)) :
    (∃ left value right, findToken table t = some (left, value, right) ∧ q left right) ↔
      q left right := by
  constructor
  · rintro ⟨left', value', right', h', hq⟩
    rw [h] at h'
    cases h'
    exact hq
  · intro hq
    exact ⟨left, value, right, h, hq⟩

/-- The entries of a table that are looked for before a token. -/
def earlier {β : Type} (table : List (List Char × β)) (token : List Char) :
    List (List Char × β) := table.takeWhile fun entry => entry.1 ≠ token

/-- Tokens that are tried before another one are tokens. -/
theorem mem_of_mem_earlier {β : Type} {table : List (List Char × β)} {token : List Char}
    {entry : List Char × β} (h : entry ∈ earlier table token) : entry ∈ table :=
  List.takeWhile_subset _ h

/-- A token is found if none occurs that is looked for earlier. -/
theorem findToken_eq_some {β : Type} {table : List (List Char × β)} {value : β}
    {left right : List Char} (htable : (table.map Prod.fst).Nodup) (hmem : (p, value) ∈ table)
    (hearlier : ∀ entry ∈ earlier table p, ¬entry.1 <:+: t) (hcut : cut p t = some (left, right)) :
    findToken table t = some (left, value, right) := by
  induction table with
  | nil => cases hmem
  | cons entry table ih =>
    rw [List.map_cons, List.nodup_cons] at htable
    -- The token is the first of the table, or the first is an earlier one that does not occur.
    by_cases hentry : entry.1 = p
    · obtain rfl | hmem := List.mem_cons.1 hmem
      · rw [findToken, List.findSome?_cons]
        simp only [hcut, Option.map_some]
      · exact absurd (List.mem_map_of_mem (f := Prod.fst) hmem) (hentry ▸ htable.1)
    · obtain rfl | hmem := List.mem_cons.1 hmem
      · exact absurd rfl hentry
      · have hsplit : earlier (entry :: table) p = entry :: earlier table p :=
          List.takeWhile_cons_of_pos (by simpa using hentry)
        rw [hsplit, List.forall_mem_cons] at hearlier
        have hnone : cut entry.1 t = none := cut_eq_none_iff.2 hearlier.1
        have hrest := ih htable.2 hmem hearlier.2
        rw [findToken] at hrest ⊢
        rw [List.findSome?_cons]
        simp only [hnone, Option.map_none, hrest]

/-- A text has no last occurrence of a character that it does not have. -/
theorem cutLast_singleton_eq_none_iff {c : Char} : cutLast [c] some t = none ↔ c ∉ t := by
  induction t with
  | nil => simp [cutLast]
  | cons d rest ih =>
    have hhead : [c].isPrefixOf? (d :: rest) = if c == d then some rest else none := rfl
    rw [cutLast, List.mem_cons, not_or, ← ih, hhead]
    -- A later occurrence is preferred to one at the head.
    cases hcut : cutLast [c] some rest with
    | some parts => simp
    | none =>
      by_cases hc : c = d
      · simp [hc]
      · simp [hc]

/-- A text is cut at the last place of a character that does not follow. -/
theorem cutLast_singleton_append {c : Char} {after : List Char} (h : c ∉ after)
    (before : List Char) : cutLast [c] some (before ++ c :: after) = some (before, after) := by
  induction before with
  | nil =>
    have hhead : [c].isPrefixOf? (c :: after) = some after := isPrefixOf?_append [c] after
    rw [List.nil_append, cutLast, cutLast_singleton_eq_none_iff.2 h, hhead]
    rfl
  | cons d before ih => rw [List.cons_append, cutLast, ih]

/-- The last occurrence of a character in a text. -/
theorem exists_last_of_mem {c : Char} (h : c ∈ t) :
    ∃ before after, t = before ++ c :: after ∧ c ∉ after := by
  obtain ⟨after, before, hreverse, hnot⟩ :=
    List.eq_append_cons_of_mem (List.mem_reverse.2 h)
  refine ⟨before.reverse, after.reverse, ?_, fun hmem => hnot (List.mem_reverse.1 hmem)⟩
  -- The last occurrence is the first one from behind.
  rw [← List.reverse_reverse t, hreverse]
  simp

/-! ## All pieces between separators -/

/-- A text without the separator is one piece. -/
theorem pieces_of_not_mem {c : Char} (h : c ∉ t) : pieces c t = [t] := by
  induction t with
  | nil => rfl
  | cons d rest ih =>
    rw [List.mem_cons, not_or] at h
    rw [pieces, if_neg (Ne.symm h.1), ih h.2]

/-- The first piece ends at the first separator. -/
theorem pieces_append {c : Char} {a : List Char} (h : c ∉ a) (b : List Char) :
    pieces c (a ++ c :: b) = a :: pieces c b := by
  induction a with
  | nil => rw [List.nil_append, pieces, if_pos rfl]
  | cons d rest ih =>
    rw [List.mem_cons, not_or] at h
    rw [List.cons_append, pieces, if_neg (Ne.symm h.1), ih h.2]

/-- The text before the first colon; the whole text if there is no colon. -/
def beforeColon (t : List Char) : List Char := ((cut [':'] t).map (·.1)).getD t

end TextDiagram.Text
