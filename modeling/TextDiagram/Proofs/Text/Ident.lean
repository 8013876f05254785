import Mathlib.Data.List.TakeWhile
import TextDiagram.Proofs.Text.Lines
import TextDiagram.Text.Cut
/-!
# Identifiers in front of other text

Main statements:

* `run?_append`, `ident?_append`: a run or an identifier is read up to the first other character.
* `eq_of_append_eq_append`: so a text starts with one identifier only.
* `not_keyword_prefix`: and with a keyword and a space only if the keyword is the identifier.
* `significant?_of_trim_eq`: a line that starts with one is no comment.
-/

namespace TextDiagram.Text

/-- What is said of all characters of a text is decided on the text, not on the type of characters. -/
instance decidableForallMem (t : List Char) (p : Char → Prop) [DecidablePred p] :
    Decidable (∀ c ∈ t, p c) := List.decidableBAll p t

variable {name : List Char}

/-- The text does not go on with a character of an identifier. -/
def EndsIdent (rest : List Char) : Prop := ∀ c ∈ rest.head?, isIdentChar c = false

theorem endsIdent_nil : EndsIdent [] := nofun

theorem endsIdent_cons {c : Char} (h : isIdentChar c = false) (rest : List Char) :
    EndsIdent (c :: rest) := by
  intro d hd
  obtain rfl := Option.some.inj hd
  exact h

/-- A run ends in front of a character that does not belong to it. -/
theorem run?_append {p : Char → Bool} {a rest : List Char} (hne : a ≠ [])
    (h : ∀ c ∈ a, p c = true) (hrest : ∀ c ∈ rest.head?, p c = false) :
    run? p (a ++ rest) = some (a, rest) := by
  have hstop : rest.takeWhile p = [] ∧ rest.dropWhile p = rest := by
    cases rest with
    | nil => exact ⟨rfl, rfl⟩
    | cons c rest =>
      have hc : p c = false := hrest c rfl
      simp [hc]
  have hkeep : (a ++ rest).takeWhile p = a := by
    rw [List.takeWhile_append_of_pos h, hstop.1, List.append_nil]
  have hdrop : (a ++ rest).dropWhile p = rest := by
    rw [List.dropWhile_append_of_pos h, hstop.2]
  simp [run?, hkeep, hdrop, hne]

theorem ident?_append (h : isIdent name = true) {rest : List Char} (hrest : EndsIdent rest) :
    ident? (name ++ rest) = some (name, rest) :=
  run?_append (ne_nil_of_isIdent h) (isIdentChar_of_mem h) hrest

theorem forall_of_run? {p : Char → Bool} {t a b : List Char} (h : run? p t = some (a, b)) :
    ∀ c ∈ a, p c = true := by
  intro c hc
  have hhead : a = t.takeWhile p := by
    simp only [run?] at h
    split at h
    · cases h
    · exact (congrArg Prod.fst (Option.some.inj h)).symm
  rw [hhead] at hc
  exact List.mem_takeWhile_imp hc

theorem ident?_eq_none {t : List Char} (h : EndsIdent t) : ident? t = none := by
  have hhead : t.takeWhile isIdentChar = [] := by
    cases t with
    | nil => rfl
    | cons c rest =>
      have hc : isIdentChar c = false := h c rfl
      simp [hc]
  simp [ident?, run?, hhead]

theorem eq_append_of_afterKeyword? {keyword : String} {t after : List Char}
    (h : afterKeyword? keyword t = some after) :
    ∃ c rest, t = keyword.toList ++ c :: rest ∧ isBlank c = true ∧ after = trimStart rest := by
  unfold afterKeyword? at h
  split at h
  · next c rest hprefix =>
    split at h
    · next hc => exact ⟨c, rest, eq_append_of_isPrefixOf? hprefix, hc, (Option.some.inj h).symm⟩
    · cases h
  · cases h

theorem eq_of_append_eq_append {other rest more : List Char} (h : isIdent name = true)
    (hother : isIdent other = true) (hrest : EndsIdent rest) (hmore : EndsIdent more)
    (heq : name ++ rest = other ++ more) : name = other ∧ rest = more := by
  have hparts := congrArg ident? heq
  rw [ident?_append h hrest, ident?_append hother hmore] at hparts
  simpa using hparts

/-- An identifier ends in front of some spaces and a sign. -/
theorem endsIdent_replicate_append {c : Char} (hc : isIdentChar c = false) (n : Nat)
    (rest : List Char) : EndsIdent (List.replicate n ' ' ++ c :: rest) := by
  cases n with
  | zero => exact endsIdent_cons hc rest
  | succ n => exact endsIdent_cons (by decide) _

/-- A text that starts with an identifier, some spaces and a sign starts with a keyword and a space only
if the identifier is the keyword and there are spaces. -/
theorem not_keyword_prefix {keyword : List Char} {c : Char} {n : Nat}
    (hkeyword : isIdent keyword = true) (h : isIdent name = true) (hc : isIdentChar c = false)
    (hspace : c ≠ ' ') (hother : n = 0 ∨ name ≠ keyword) (rest : List Char) :
    ¬keyword ++ [' '] <+: name ++ (List.replicate n ' ' ++ c :: rest) := by
  rintro ⟨after, hafter⟩
  rw [List.append_assoc, List.singleton_append] at hafter
  -- The keyword and the identifier are what the two sides start with, up to another character.
  obtain ⟨rfl, hrest⟩ := eq_of_append_eq_append hkeyword h (endsIdent_cons (by decide) after)
    (endsIdent_replicate_append hc n rest) hafter
  obtain rfl | hother := hother
  · exact hspace (List.cons.inj hrest).1.symm
  · exact hother rfl

/-- A text that starts with an identifier is trimmed if its end is. -/
theorem trim_append_append (h : isIdent name = true) (t : List Char) {tail : List Char}
    (hne : tail ≠ []) (htail : trim tail = tail) :
    trim (name ++ (t ++ tail)) = name ++ (t ++ tail) :=
  trim_append_append_of_trim (ne_nil_of_isIdent h) (trim_of_isIdent h) t hne htail

/-- A trimmed line that starts with an identifier is significant. -/
theorem significant?_of_trim_eq {rest : List Char} (h : isIdent name = true)
    (htrim : trim (name ++ rest) = name ++ rest) :
    significant? (name ++ rest) = some (name ++ rest) := by
  obtain ⟨c, more, rfl⟩ := List.exists_cons_of_ne_nil (ne_nil_of_isIdent h)
  have hcomment : isComment (c :: more ++ rest) = false := by
    rw [isComment, ← Bool.not_eq_true, List.isPrefixOf_iff_prefix]
    intro hprefix
    obtain ⟨rfl, -⟩ := List.cons_prefix_cons.1 hprefix
    exact absurd (isIdentChar_of_mem h _ List.mem_cons_self) (by decide)
  rw [significant?, htrim, hcomment]
  rfl

theorem not_isLineBreak_of_mem (h : isIdent name = true) : ∀ c ∈ name, isLineBreak c = false := by
  intro c hc
  have hblank := isBlank_of_isIdentChar (isIdentChar_of_mem h c hc)
  rw [← Bool.not_eq_true] at hblank ⊢
  exact fun hbreak => hblank (isBlank_of_isLineBreak hbreak)

end TextDiagram.Text
