import TextDiagram.Text.Blank
/-!
# Cutting a text at a pattern

`cut` splits a text at the first occurrence of a pattern, `cutLast` at the last one, and
`findToken` at the first pattern of a table that occurs at all.

Main statements: `eq_of_cut` and `eq_of_cutLast` say that the parts make up the text again.
-/

namespace TextDiagram.Text

/-- The text before and after the first occurrence of the pattern. -/
def cut (pattern : List Char) : List Char → Option (List Char × List Char)
  | [] => if pattern.isEmpty then some ([], []) else none
  | c :: rest =>
    match pattern.isPrefixOf? (c :: rest) with
    | some after => some ([], after)
    | none => (cut pattern rest).map fun (before, after) => (c :: before, after)

/-- The text before and after the last occurrence of a pattern at which the reader accepts what
follows, with what the reader made of it. -/
def cutLast {β : Type} (pattern : List Char) (read : List Char → Option β) :
    List Char → Option (List Char × β)
  | [] => none
  | c :: rest =>
    match cutLast pattern read rest with
    | some (before, value) => some (c :: before, value)
    | none => ((pattern.isPrefixOf? (c :: rest)).bind read).map fun value => ([], value)

/-- All pieces of a text between the separators; a text without separator is one piece. -/
def pieces (separator : Char) : List Char → List (List Char)
  | [] => [[]]
  | c :: rest =>
    if c = separator then [] :: pieces separator rest
    else
      match pieces separator rest with
      | [] => [[c]]
      | piece :: more => (c :: piece) :: more

/-- The first entry of the table whose token occurs in the text, with the text before and after
the token's first occurrence. The table's order decides, not the position in the text, so a long
token stands before the shorter ones it contains. -/
def findToken {β : Type} (table : List (List Char × β)) (text : List Char) :
    Option (List Char × β × List Char) :=
  table.findSome? fun (token, value) =>
    (cut token text).map fun (before, after) => (before, value, after)

/-- The text after a given opening, if it starts so. -/
def after? (opening : String) (text : List Char) : Option (List Char) :=
  opening.toList.isPrefixOf? text

/-- Whether the pattern occurs in the text. -/
def occurs (pattern : List Char) (text : List Char) : Bool := (cut pattern text).isSome

/-- The text strictly between an opening and a closing pattern that stand at its two ends. -/
def between? (opening closing : String) (text : List Char) : Option (List Char) :=
  (opening.toList.isPrefixOf? text).bind fun rest => closing.toList.isSuffixOf? rest

/-! ## Elementary facts -/

theorem eq_append_of_isPrefixOf? {p t r : List Char} (h : p.isPrefixOf? t = some r) :
    t = p ++ r := by
  induction p generalizing t with
  | nil => exact Option.some.inj h
  | cons a p ih =>
    cases t with
    | nil => cases h
    | cons b t =>
      have hstep : (if a == b then p.isPrefixOf? t else none) = some r := h
      split at hstep
      · next hab => rw [ih hstep, beq_iff_eq.1 hab]; rfl
      · cases hstep

theorem eq_of_cut {p t a b : List Char} (h : cut p t = some (a, b)) : t = a ++ p ++ b := by
  induction t generalizing a with
  | nil =>
    simp only [cut] at h
    split at h
    · next hp => simp_all [List.isEmpty_iff]
    · simp at h
  | cons c t ih =>
    simp only [cut] at h
    split at h
    · next hp =>
      simp only [Option.some.injEq, Prod.mk.injEq] at h
      rw [eq_append_of_isPrefixOf? hp, ← h.1, ← h.2, List.nil_append]
    · obtain ⟨⟨x, y⟩, hxy, he⟩ := Option.map_eq_some_iff.1 h
      simp only [Prod.mk.injEq] at he
      obtain ⟨rfl, rfl⟩ := he
      rw [ih hxy]
      simp

theorem eq_of_cutLast {β : Type} {p t a : List Char} {read : List Char → Option β} {v : β}
    (h : cutLast p read t = some (a, v)) : ∃ b, t = a ++ p ++ b ∧ read b = some v := by
  induction t generalizing a with
  | nil => simp [cutLast] at h
  | cons c t ih =>
    simp only [cutLast] at h
    split at h
    · next before value hrec =>
      simp only [Option.some.injEq, Prod.mk.injEq] at h
      obtain ⟨rfl, rfl⟩ := h
      obtain ⟨b, hb, hr⟩ := ih hrec
      exact ⟨b, by rw [hb]; simp, hr⟩
    · obtain ⟨value, hv, he⟩ := Option.map_eq_some_iff.1 h
      simp only [Prod.mk.injEq] at he
      obtain ⟨b, hb, hr⟩ := Option.bind_eq_some_iff.1 hv
      refine ⟨b, ?_, he.2 ▸ hr⟩
      rw [eq_append_of_isPrefixOf? hb, ← he.1, List.nil_append]

end TextDiagram.Text
