import TextDiagram.Text.Blank
/-!
# Identifiers

An identifier is a non-empty run of ASCII letters, digits and underscores. Readers take the longest
run, which is the only one that can be followed by something else.
-/

namespace TextDiagram.Text

/-- An ASCII letter, digit or underscore. -/
def isIdentChar (c : Char) : Bool := c.isAlphanum || c == '_'

/-- The longest non-empty run of characters that satisfy the test, and the text after it. -/
def run? (p : Char → Bool) (t : List Char) : Option (List Char × List Char) :=
  let head := t.takeWhile p
  if head.isEmpty then none else some (head, t.dropWhile p)

/-- A leading identifier and the text after it. -/
def ident? (t : List Char) : Option (List Char × List Char) := run? isIdentChar t

/-- Whether a text is one identifier. -/
def isIdent (t : List Char) : Bool := !t.isEmpty && t.all isIdentChar

/-- The text after a leading identifier-like word and at least one blank, with the blanks before
the rest dropped. -/
def afterKeyword? (keyword : String) (t : List Char) : Option (List Char) :=
  match keyword.toList.isPrefixOf? t with
  | some (c :: rest) => if isBlank c then some (trimStart rest) else none
  | _ => none

/-! ## Elementary facts -/

theorem ne_nil_of_isIdent {t : List Char} (h : isIdent t = true) : t ≠ [] := by
  rw [isIdent, Bool.and_eq_true] at h
  simpa using h.1

theorem isIdentChar_of_mem {t : List Char} (h : isIdent t = true) :
    ∀ c ∈ t, isIdentChar c = true := by
  rw [isIdent, Bool.and_eq_true] at h
  simpa using h.2

theorem isBlank_of_isIdentChar {c : Char} (h : isIdentChar c = true) : isBlank c = false := by
  have hchar : (((decide (65 ≤ c.toNat ∧ c.toNat ≤ 90) ||
      (decide (97 ≤ c.toNat) && decide (c.toNat ≤ 122))) ||
      (decide (48 ≤ c.toNat) && decide (c.toNat ≤ 57))) || c == '_') = true := h
  simp only [Bool.or_eq_true, Bool.and_eq_true, decide_eq_true_eq, beq_iff_eq] at hchar
  -- The blanks of one byte lie below the digits and above the letters.
  have hrange : 48 ≤ c.toNat ∧ c.toNat ≤ 122 := by
    obtain hchar | rfl := hchar
    · omega
    · decide
  rw [← Bool.not_eq_true]
  intro hblank
  simp only [isBlank, Bool.or_eq_true, Bool.and_eq_true, decide_eq_true_eq, beq_iff_eq] at hblank
  omega

theorem eq_append_of_run? {p : Char → Bool} {t a b : List Char} (h : run? p t = some (a, b)) :
    t = a ++ b := by
  simp only [run?] at h
  split at h
  · simp at h
  · simp only [Option.some.injEq, Prod.mk.injEq] at h
    rw [← h.1, ← h.2, List.takeWhile_append_dropWhile]

end TextDiagram.Text
