import TextDiagram.Proofs.Text.Lines
import TextDiagram.Text.Quoted
/-!
# Texts in double quotes

Main statements:

* `unquote_quote`: the quotes around a text are dropped, whatever quotes it holds.
* `unquote_of_trim`: quotes that do not stand at both ends are kept.
* `quoted?_quote`: a text without quotes is read up to the quote after it.
-/

namespace TextDiagram.Text

/-- A text in double quotes. -/
def quote (t : List Char) : List Char := '"' :: (t ++ ['"'])

theorem trim_quote (t : List Char) : trim (quote t) = quote t :=
  trim_cons_append (by decide) t (by decide) (by decide)

theorem unquote_quote (t : List Char) : unquote (quote t) = t := by
  rw [unquote, trim_quote]
  simp [quote]

theorem unquote_congr {t s : List Char} (h : trim t = trim s) : unquote t = unquote s := by
  rw [unquote, unquote, h]

theorem unquote_of_trim {t s : List Char} (htrim : trim t = s) (h : ∀ inner, s ≠ quote inner) :
    unquote t = s := by
  rw [unquote, htrim]
  cases s with
  | nil => rfl
  | cons c rest =>
    by_cases hc : c = '"'
    · subst hc
      have hlast : rest.getLast? ≠ some '"' := by
        intro hlast
        obtain ⟨inner, rfl⟩ := List.getLast?_eq_some_iff.1 hlast
        exact h inner rfl
      exact if_neg hlast
    · simp [hc]

theorem quoted?_quote {t : List Char} (h : '"' ∉ t) (rest : List Char) :
    quoted? (quote t ++ rest) = some (t, rest) := by
  have hplain : ∀ c ∈ t, (c != '"') = true := by
    intro c hc
    rw [bne_iff_ne]
    rintro rfl
    exact h hc
  simp [quote, quoted?, List.takeWhile_append_of_pos hplain, List.dropWhile_append_of_pos hplain]

end TextDiagram.Text
