import Mathlib.Data.List.TakeWhile
import TextDiagram.Proofs.Text.Lines
import TextDiagram.Text.Words
/-!
# The first word of a text

Main statements:

* `firstWord_append`, `afterFirstWord_append`: a word with a space and a text behind it is divided there.
* `firstWord_of_forall`, `afterFirstWord_of_forall`: a word by itself is not divided.
-/

namespace TextDiagram.Text

variable {word : List Char}

/-- A word has no blanks. -/
theorem not_isBlank_of_mem_firstWord {t : List Char} : ∀ c ∈ firstWord t, isBlank c = false := by
  intro c hc
  have hword := List.all_takeWhile (p := fun c => !isBlank c) (l := trimStart t)
  rw [List.all_eq_true] at hword
  simpa using hword c hc

/-- A trimmed text that is not empty starts with a word. -/
theorem firstWord_ne_nil {t : List Char} (hne : t ≠ []) (h : trim t = t) : firstWord t ≠ [] := by
  obtain ⟨c, rest, rfl⟩ := List.exists_cons_of_ne_nil hne
  -- The first character is no blank, so it belongs to the word.
  have hc : isBlank c = false := (trim_eq_self_iff.1 h).1 c rfl
  rw [firstWord, trimStart_cons hc, List.takeWhile_cons_of_pos (by rw [hc]; rfl)]
  exact List.cons_ne_nil _ _

theorem afterFirstWord_suffix (t : List Char) : afterFirstWord t <:+ t :=
  ((List.dropWhile_suffix isBlank).trans (List.dropWhile_suffix _)).trans
    (List.dropWhile_suffix isBlank)

theorem firstWord_sublist (t : List Char) : (firstWord t).Sublist t :=
  (List.takeWhile_prefix _).sublist.trans (List.dropWhile_suffix isBlank).sublist

theorem trimStart_afterFirstWord (t : List Char) :
    trimStart (afterFirstWord t) = afterFirstWord t :=
  trimStart_idem _

/-- What follows the first word of a trimmed text is trimmed. -/
theorem trim_afterFirstWord {t : List Char} (h : trim t = t) :
    trim (afterFirstWord t) = afterFirstWord t := by
  obtain ⟨front, hfront⟩ := afterFirstWord_suffix t
  rw [trim, trimStart_afterFirstWord]
  obtain hnil | ⟨init, d, hend⟩ := List.eq_nil_or_concat (afterFirstWord t)
  · rw [hnil]
    rfl
  · -- The last character is that of the whole text.
    rw [List.concat_eq_append] at hend
    have hd : isBlank d = false := by
      refine (trim_eq_self_iff.1 h).2 d ?_
      rw [← hfront, hend, ← List.append_assoc]
      exact List.getLast?_concat
    rw [hend]
    exact trimEnd_concat_of_not_isBlank hd init

theorem trimStart_of_forall (h : ∀ c ∈ word, isBlank c = false) (t : List Char) (hne : word ≠ []) :
    trimStart (word ++ t) = word ++ t := by
  obtain ⟨c, rest, rfl⟩ := List.exists_cons_of_ne_nil hne
  exact trimStart_cons (h c List.mem_cons_self) (rest ++ t)

/-- A text without blanks is one word. -/
theorem firstWord_of_forall (h : ∀ c ∈ word, isBlank c = false) (hne : word ≠ []) :
    firstWord word = word := by
  have hstart := trimStart_of_forall h [] hne
  rw [List.append_nil] at hstart
  rw [firstWord, hstart, List.takeWhile_eq_self_iff]
  exact fun c hc => by rw [h c hc]; rfl

theorem afterFirstWord_of_forall (h : ∀ c ∈ word, isBlank c = false) (hne : word ≠ []) :
    afterFirstWord word = [] := by
  have hstart := trimStart_of_forall h [] hne
  have hdrop : word.dropWhile (fun c => !isBlank c) = [] :=
    List.dropWhile_eq_nil_iff.2 fun c hc => by rw [h c hc]; rfl
  rw [List.append_nil] at hstart
  rw [afterFirstWord, hstart, hdrop]
  rfl

theorem firstWord_append (h : ∀ c ∈ word, isBlank c = false) (hne : word ≠ []) (t : List Char) :
    firstWord (word ++ ' ' :: t) = word := by
  have hword : ∀ c ∈ word, (!isBlank c) = true := fun c hc => by rw [h c hc]; rfl
  have hspace : isBlank ' ' = true := by decide
  rw [firstWord, trimStart_of_forall h _ hne, List.takeWhile_append_of_pos hword,
    List.takeWhile_cons_of_neg (by simp [hspace]), List.append_nil]

theorem afterFirstWord_append (h : ∀ c ∈ word, isBlank c = false) (hne : word ≠ [])
    (t : List Char) : afterFirstWord (word ++ ' ' :: t) = trimStart t := by
  have hword : ∀ c ∈ word, (!isBlank c) = true := fun c hc => by rw [h c hc]; rfl
  have hspace : isBlank ' ' = true := by decide
  rw [afterFirstWord, trimStart_of_forall h _ hne, List.dropWhile_append_of_pos hword,
    List.dropWhile_cons_of_neg (by simp [hspace]), trimStart, trimStart,
    List.dropWhile_cons_of_pos hspace]

end TextDiagram.Text
