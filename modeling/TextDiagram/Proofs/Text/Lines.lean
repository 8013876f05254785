import Mathlib.Data.List.Induction
import Mathlib.Data.List.TakeWhile
import TextDiagram.Text.Ident
import TextDiagram.Text.Lines
/-!
# Significant lines, one by one

A reader trims a text before it cuts it into lines. Blanks at the two ends of a text make no
significant line, so nothing is lost if the lines of the whole text are looked at one by one.

Main statements:

* `trim_cons`, `trim_concat`: a blank at an end does not change what is left after trimming.
* `trim_eq_self_iff`: a text is trimmed if no blank stands at either end of it.
* `padded_splitLines_concat`: what a blank at the end of a text does to its lines.
* `significantLines_eq`: the significant lines are those among the lines of the whole text.
* `significantLines_append`: lines added after a break are read after those before it.
-/

namespace TextDiagram.Text

/-! ## Blanks at the ends of a line -/

/-- A blank in front of a text is lost when the text is trimmed. -/
theorem trim_cons {c : Char} (h : isBlank c = true) (t : List Char) : trim (c :: t) = trim t := by
  simp only [trim, trimStart, List.dropWhile_cons, h, if_true]

theorem trimEnd_concat {c : Char} (h : isBlank c = true) (t : List Char) :
    trimEnd (t ++ [c]) = trimEnd t := by
  simp only [trimEnd, dropEndWhile, List.reverse_append, List.reverse_cons, List.reverse_nil,
    List.nil_append, List.singleton_append, List.dropWhile_cons, h, if_true]

/-- What ends with no blank is kept as it is. -/
theorem trimEnd_concat_of_not_isBlank {c : Char} (h : isBlank c = false) (t : List Char) :
    trimEnd (t ++ [c]) = t ++ [c] := by
  simp [trimEnd, dropEndWhile, h]

/-- A blank behind a text is lost as well, also if nothing else is in the text. -/
theorem trim_concat {c : Char} (h : isBlank c = true) (t : List Char) :
    trim (t ++ [c]) = trim t := by
  unfold trim
  have hlast : [c].dropWhile isBlank = [] := by rw [List.dropWhile_cons, if_pos h, List.dropWhile_nil]
  have hstart : trimStart (t ++ [c]) =
      if (trimStart t).isEmpty then [] else trimStart t ++ [c] := by
    rw [trimStart, trimStart, List.dropWhile_append, hlast]
  -- Only if nothing was left at the start is there nothing for the blank to stand behind.
  rw [hstart]
  split
  · next hempty => rw [List.isEmpty_iff.1 hempty]
  · exact trimEnd_concat h _

/-- Any number of blanks may stand in front of a text. -/
theorem trim_append_left {a : List Char} (h : ∀ c ∈ a, isBlank c = true) (b : List Char) :
    trim (a ++ b) = trim b := by
  rw [trim, trim, trimStart, List.dropWhile_append_of_pos h, trimStart]

/-- And any number of blanks may stand behind it. -/
theorem trim_append_right {b : List Char} (h : ∀ c ∈ b, isBlank c = true) (a : List Char) :
    trim (a ++ b) = trim a := by
  -- The blanks are taken off one by one, from the last one on.
  induction b using List.reverseRecOn with
  | nil => rw [List.append_nil]
  | append_singleton b c ih =>
    rw [← List.append_assoc, trim_concat (h c (by simp)), ih fun d hd => h d (by simp [hd])]

theorem trimStart_append_left {a : List Char} (h : ∀ c ∈ a, isBlank c = true) (b : List Char) :
    trimStart (a ++ b) = trimStart b :=
  List.dropWhile_append_of_pos h

theorem trimStart_cons {c : Char} (h : isBlank c = false) (t : List Char) :
    trimStart (c :: t) = c :: t :=
  List.dropWhile_cons_of_neg (by rw [h]; exact Bool.false_ne_true)

/-- Only blanks are taken off the start of a text. -/
theorem exists_eq_append_trimStart (t : List Char) :
    ∃ before, t = before ++ trimStart t ∧ ∀ c ∈ before, isBlank c = true :=
  ⟨t.takeWhile isBlank, List.takeWhile_append_dropWhile.symm, fun _ hc => List.mem_takeWhile_imp hc⟩

/-- Only blanks are taken off its end. -/
theorem exists_eq_trimEnd_append (t : List Char) :
    ∃ after, t = trimEnd t ++ after ∧ ∀ c ∈ after, isBlank c = true := by
  obtain ⟨after, hafter, hblank⟩ := exists_eq_append_trimStart t.reverse
  refine ⟨after.reverse, ?_, fun c hc => hblank c (List.mem_reverse.1 hc)⟩
  rw [trimEnd, dropEndWhile, ← List.reverse_append]
  exact List.reverse_eq_iff.1 hafter

/-- A text is trimmed of some blanks before and after. -/
theorem exists_eq_append_trim (t : List Char) : ∃ before after, t = before ++ (trim t ++ after) ∧
    (∀ c ∈ before, isBlank c = true) ∧ ∀ c ∈ after, isBlank c = true := by
  obtain ⟨before, hstart, hbefore⟩ := exists_eq_append_trimStart t
  obtain ⟨after, hend, hafter⟩ := exists_eq_trimEnd_append (trimStart t)
  refine ⟨before, after, ?_, hbefore, hafter⟩
  rw [trim, ← hend, ← hstart]

/-- If the second part of a text is blank, the end of the first part is trimmed. -/
theorem trimEnd_append (a b : List Char) :
    trimEnd (a ++ b) = if trimEnd b = [] then trimEnd a else a ++ trimEnd b := by
  simp only [trimEnd, dropEndWhile, List.reverse_append, List.dropWhile_append, List.isEmpty_iff,
    List.reverse_eq_nil_iff]
  by_cases hblank : b.reverse.dropWhile isBlank = []
  · rw [if_pos hblank, if_pos hblank]
  · rw [if_neg hblank, if_neg hblank, List.reverse_append, List.reverse_reverse]

/-- Nothing is taken off in front of a character that is no blank. -/
theorem trimEnd_append_cons {c : Char} (h : isBlank c = false) (a b : List Char) :
    trimEnd (a ++ c :: b) = a ++ c :: trimEnd b := by
  rw [List.append_cons, trimEnd_append, trimEnd_concat_of_not_isBlank h]
  split
  · next hb => rw [hb]
  · rw [List.append_assoc, List.singleton_append]

theorem trimEnd_eq_nil {t : List Char} (h : ∀ c ∈ t, isBlank c = true) : trimEnd t = [] := by
  rw [trimEnd, dropEndWhile, List.reverse_eq_nil_iff, List.dropWhile_eq_nil_iff]
  exact fun c hc => h c (List.mem_reverse.1 hc)

/-- A part at the end that has to stay keeps all that stands in front of it. -/
theorem dropEndWhile_append {q : Char → Bool} {b : List Char} (hne : b ≠ [])
    (h : ∀ c ∈ b, q c = false) (a : List Char) : dropEndWhile q (a ++ b) = a ++ b := by
  have hlast : b.reverse ≠ [] := List.reverse_ne_nil_iff.2 hne
  -- The last character of the part that has to stay stops the search.
  obtain ⟨c, rest, hreverse⟩ := List.exists_cons_of_ne_nil hlast
  have hc : q c = false := h c (List.mem_reverse.1 (hreverse ▸ List.mem_cons_self))
  rw [dropEndWhile, List.reverse_append, hreverse, List.cons_append, List.dropWhile_cons, hc,
    if_neg Bool.false_ne_true, ← List.cons_append, ← hreverse, ← List.reverse_append,
    List.reverse_reverse]

/-- A text without blanks stays as it is. -/
theorem trim_of_forall_not_isBlank {t : List Char} (h : ∀ c ∈ t, isBlank c = false) :
    trim t = t := by
  have hkeep : ∀ t : List Char, (∀ c ∈ t, isBlank c = false) → t.dropWhile isBlank = t := by
    intro t ht
    cases t with
    | nil => rfl
    | cons c rest => rw [List.dropWhile_cons, ht c List.mem_cons_self, if_neg Bool.false_ne_true]
  -- The end of a text is the start of its reverse.
  have hend : t.reverse.dropWhile isBlank = t.reverse :=
    hkeep _ fun c hc => h c (List.mem_reverse.1 hc)
  rw [trim, trimStart, hkeep t h, trimEnd, dropEndWhile, hend, List.reverse_reverse]

theorem trim_of_isIdent {t : List Char} (h : isIdent t = true) : trim t = t :=
  trim_of_forall_not_isBlank fun c hc => isBlank_of_isIdentChar (isIdentChar_of_mem h c hc)

/-- Nothing is left to take off a trimmed text. -/
theorem trimEnd_trim (t : List Char) : trimEnd (trim t) = trim t := by
  have hidem := trimStart_idem (trimStart t).reverse
  simp only [trimStart] at hidem
  simp only [trim, trimEnd, dropEndWhile, trimStart, List.reverse_reverse, hidem]

theorem trimEnd_of_trim_eq {t : List Char} (h : trim t = t) : trimEnd t = t := by
  rw [← h, trimEnd_trim]

/-- The end may be trimmed beforehand. -/
theorem trim_trimEnd (t : List Char) : trim (trimEnd t) = trim t := by
  -- From the last character on.
  induction t using List.reverseRecOn with
  | nil => rfl
  | append_singleton rest c ih =>
    by_cases hblank : isBlank c = true
    · rw [trimEnd_concat hblank, ih, trim_concat hblank]
    · rw [trimEnd_concat_of_not_isBlank (Bool.eq_false_iff.2 hblank)]

/-- Trimming a trimmed text changes nothing. -/
theorem trim_trim (t : List Char) : trim (trim t) = trim t := by
  have hstart : trim (trimStart t) = trim t := by rw [trim, trimStart_idem, trim]
  calc trim (trim t) = trim (trimStart t) := trim_trimEnd (trimStart t)
    _ = trim t := hstart

theorem isPrefix_trimEnd (t : List Char) : trimEnd t <+: t := by
  rw [← List.reverse_suffix, trimEnd, dropEndWhile, List.reverse_reverse]
  exact List.dropWhile_suffix isBlank

/-- Only blanks are lost at the start of a text. -/
theorem mem_trimStart {c : Char} {t : List Char} (h : c ∈ t) (hc : isBlank c = false) :
    c ∈ trimStart t := by
  rw [← List.takeWhile_append_dropWhile (p := isBlank) (l := t), List.mem_append] at h
  refine h.resolve_left fun hblank => ?_
  rw [List.mem_takeWhile_imp hblank] at hc
  cases hc

/-- Only blanks are lost at the ends of a text. -/
theorem mem_trim {c : Char} {t : List Char} (h : c ∈ t) (hc : isBlank c = false) : c ∈ trim t := by
  have hstart : c ∈ (trimStart t).reverse := List.mem_reverse.2 (mem_trimStart h hc)
  exact List.mem_reverse.2 (mem_trimStart hstart hc)

/-- Trimming brings no new characters into a text. -/
theorem trim_subset (t : List Char) : trim t ⊆ t := fun _ hc =>
  (List.dropWhile_suffix isBlank).subset ((isPrefix_trimEnd (trimStart t)).subset hc)

/-- A text is trimmed if no blank stands at either end of it. -/
theorem trim_eq_self_iff {t : List Char} : trim t = t ↔
    (∀ c ∈ t.head?, isBlank c = false) ∧ (∀ c ∈ t.getLast?, isBlank c = false) := by
  have hle : ∀ t : List Char, (trim t).length ≤ t.length := by
    intro t
    calc (trim t).length ≤ (trimStart t).length := (isPrefix_trimEnd (trimStart t)).length_le
      _ ≤ t.length := (List.dropWhile_suffix isBlank).length_le
  constructor
  · -- A blank at an end is lost, and then the text is shorter.
    intro htrim
    refine ⟨fun c hc => ?_, fun c hc => ?_⟩
    · obtain ⟨rest, rfl⟩ := List.head?_eq_some_iff.1 hc
      rw [← Bool.not_eq_true]
      intro hblank
      have hshort := hle rest
      rw [← trim_cons hblank, htrim, List.length_cons] at hshort
      omega
    · obtain ⟨rest, rfl⟩ := List.getLast?_eq_some_iff.1 hc
      rw [← Bool.not_eq_true]
      intro hblank
      have hshort := hle rest
      rw [← trim_concat hblank, htrim, List.length_append, List.length_singleton] at hshort
      omega
  · rintro ⟨hhead, hlast⟩
    cases t with
    | nil => rfl
    | cons c rest =>
      have hstart : trimStart (c :: rest) = c :: rest := trimStart_cons (hhead c rfl) rest
      obtain hnil | ⟨init, d, hend⟩ := List.eq_nil_or_concat (c :: rest)
      · cases hnil
      · rw [List.concat_eq_append] at hend
        rw [trim, hstart]
        rw [hend] at hlast ⊢
        exact trimEnd_concat_of_not_isBlank (hlast d List.getLast?_concat) init

/-- A text is trimmed if its two ends are. -/
theorem trim_append_append_of_trim {a b : List Char} (hane : a ≠ []) (ha : trim a = a)
    (t : List Char) (hbne : b ≠ []) (hb : trim b = b) : trim (a ++ (t ++ b)) = a ++ (t ++ b) := by
  obtain ⟨c, hc⟩ := Option.ne_none_iff_exists'.1 (mt List.head?_eq_none_iff.1 hane)
  obtain ⟨d, hd⟩ := Option.ne_none_iff_exists'.1 (mt List.getLast?_eq_none_iff.1 hbne)
  have hstart := (trim_eq_self_iff.1 ha).1 c hc
  have hend := (trim_eq_self_iff.1 hb).2 d hd
  rw [trim_eq_self_iff]
  simpa [List.head?_append, List.getLast?_append, hc, hd] using ⟨hstart, hend⟩

/-- A text that starts with no blank is trimmed if its end is. -/
theorem trim_cons_append {c : Char} (hc : isBlank c = false) (t : List Char) {tail : List Char}
    (hne : tail ≠ []) (htail : trimEnd tail = tail) :
    trim (c :: (t ++ tail)) = c :: (t ++ tail) := by
  have hend := trimEnd_append (c :: t) tail
  rw [htail, if_neg hne] at hend
  rw [trim, trimStart, List.dropWhile_cons, hc, if_neg Bool.false_ne_true]
  exact hend

/-- Nothing is left of a text exactly if all of it is blank. -/
theorem trimmed?_eq_none_iff {t : List Char} :
    trimmed? t = none ↔ ∀ c ∈ t, isBlank c = true := by
  have hempty : trimmed? t = none ↔ trim t = [] := by
    rw [trimmed?, ← List.isEmpty_iff]
    simp
  rw [hempty]
  constructor
  · intro htrim c hc
    by_contra hblank
    have hkept := mem_trim hc (Bool.eq_false_iff.2 hblank)
    rw [htrim] at hkept
    cases hkept
  · intro hblank
    have htrim := trim_append_left hblank []
    rwa [List.append_nil] at htrim

/-- A text is left exactly if it starts and ends with no blank and has only blanks around it. -/
theorem trimmed?_eq_some_iff {t s : List Char} : trimmed? t = some s ↔
    (s ≠ [] ∧ trim s = s) ∧ ∃ before after, t = before ++ (s ++ after) ∧
      (∀ c ∈ before, isBlank c = true) ∧ ∀ c ∈ after, isBlank c = true := by
  have hkept : trimmed? t = some s ↔ s ≠ [] ∧ trim t = s := by
    rw [trimmed?]
    cases htrim : trim t with
    | nil => simp +contextual [eq_comm]
    | cons c rest => simp +contextual [eq_comm]
  rw [hkept]
  constructor
  · rintro ⟨hne, rfl⟩
    exact ⟨⟨hne, trim_trim t⟩, exists_eq_append_trim t⟩
  · rintro ⟨⟨hne, htrim⟩, before, after, rfl, hbefore, hafter⟩
    refine ⟨hne, ?_⟩
    rw [trim_append_left hbefore, trim_append_right hafter, htrim]

theorem isBlank_of_mem_replicate {n : Nat} : ∀ c ∈ List.replicate n ' ', isBlank c = true := by
  intro c hc
  rw [List.eq_of_mem_replicate hc]
  decide

/-- Spaces do not end a line. -/
theorem not_isLineBreak_of_mem_replicate {n : Nat} :
    ∀ c ∈ List.replicate n ' ', isLineBreak c = false := by
  intro c hc
  rw [List.eq_of_mem_replicate hc]
  decide

/-- The trimmed line, if it is neither blank nor a comment. -/
def significant? (line : Line) : Option Line :=
  if (trim line).isEmpty || isComment (trim line) then none else some (trim line)

theorem significant?_cons {c : Char} (h : isBlank c = true) (line : Line) :
    significant? (c :: line) = significant? line := by
  simp only [significant?, trim_cons h]

theorem significant?_concat {c : Char} (h : isBlank c = true) (line : Line) :
    significant? (line ++ [c]) = significant? line := by
  simp only [significant?, trim_concat h]

/-- A line that starts with neither a blank nor a comment sign is significant. It only loses the
blanks behind its last sign. -/
theorem significant?_cons_append {c d : Char} (hc : isBlank c = false) (hcomment : c ≠ '%')
    (hd : isBlank d = false) (t tail : Line) :
    significant? (c :: (t ++ d :: tail)) = some (c :: (t ++ d :: trimEnd tail)) := by
  have htrim : trim (c :: (t ++ d :: tail)) = c :: (t ++ d :: trimEnd tail) := by
    rw [trim, trimStart, List.dropWhile_cons, hc, if_neg Bool.false_ne_true]
    exact trimEnd_append_cons hd (c :: t) tail
  -- A comment would start with the sign that the first character is not.
  have hkept : isComment (c :: (t ++ d :: trimEnd tail)) = false := by
    rw [isComment, ← Bool.not_eq_true, List.isPrefixOf_iff_prefix]
    intro hprefix
    exact hcomment (List.cons_prefix_cons.1 hprefix).1.symm
  rw [significant?, htrim, hkept, Bool.or_false]
  rfl

/-- The significant lines among some lines, trimmed. -/
def significant (lines : List Line) : List Line := lines.filterMap significant?

theorem significant_cons (line : Line) (lines : List Line) :
    significant (line :: lines) = (significant? line).toList ++ significant lines := by
  rw [significant, List.filterMap_cons]
  cases significant? line <;> rfl

/-- The significant lines of two runs of lines are found one by one. -/
theorem significant_append (lines more : List Line) :
    significant (lines ++ more) = significant lines ++ significant more :=
  List.filterMap_append

/-! ## Blanks at the ends of a text -/

/-- Puts a character at the start of the first line. -/
def consFirst (c : Char) : List Line → List Line
  | [] => [[c]]
  | line :: lines => (c :: line) :: lines

/-- A break cuts off an empty line, unless it is the carriage return of a pair. -/
theorem splitLines_of_isLineBreak {c : Char} (h : isLineBreak c = true) {rest : List Char}
    (hpair : ¬(c = '\r' ∧ rest.head? = some '\n')) :
    splitLines (c :: rest) = [] :: splitLines rest := by
  rw [splitLines.eq_def]
  split
  · next heq => cases heq
  · next heq =>
    -- This is the equation of a pair, which is excluded.
    injection heq with hc hrest
    subst hc hrest
    exact absurd ⟨rfl, rfl⟩ hpair
  · next heq =>
    injection heq with hc hrest
    subst hc hrest
    rw [if_pos h]

/-- Any other character belongs to the first line of what follows. -/
theorem splitLines_of_not_isLineBreak {c : Char} (h : ¬isLineBreak c = true) (rest : List Char) :
    splitLines (c :: rest) = consFirst c (splitLines rest) := by
  rw [splitLines.eq_def]
  split
  · next heq => cases heq
  · next heq =>
    injection heq with hc hrest
    subst hc hrest
    -- A carriage return is a break.
    exact absurd (by decide) h
  · next heq =>
    injection heq with hc hrest
    subst hc hrest
    rw [if_neg h]
    cases splitLines rest <;> rfl

/-- A blank at the start of a text makes no significant line. -/
theorem significant_splitLines_cons {c : Char} (h : isBlank c = true) (t : List Char) :
    significant (splitLines (c :: t)) = significant (splitLines t) := by
  by_cases hbreak : isLineBreak c = true
  · by_cases hpair : c = '\r' ∧ t.head? = some '\n'
    · rcases hpair with ⟨rfl, hhead⟩
      rcases List.head?_eq_some_iff.1 hhead with ⟨tail, rfl⟩
      -- The line feed that belongs to a carriage return would end an empty line by itself.
      have hfeed : splitLines ('\n' :: tail) = [] :: splitLines tail :=
        splitLines_of_isLineBreak (by decide) fun hpair => absurd hpair.1 (by decide)
      rw [hfeed]
      rfl
    · rw [splitLines_of_isLineBreak hbreak hpair]
      rfl
  · rw [splitLines_of_not_isLineBreak hbreak]
    cases splitLines t with
    | nil =>
      rw [consFirst, significant_cons, significant?_cons h]
      rfl
    | cons line lines =>
      rw [consFirst, significant_cons, significant?_cons h, ← significant_cons]

/-- The lines of a text after a blank has been added at its end: the blank ends the last line or an
empty one, or it stands at the end of the last line or alone in a line. -/
inductive Padded : List Line → List Line → Prop where
  | same (lines : List Line) : Padded lines lines
  | empty (lines : List Line) : Padded (lines ++ [[]]) lines
  | last (lines : List Line) (line : Line) {c : Char} (h : isBlank c = true) :
    Padded (lines ++ [line ++ [c]]) (lines ++ [line])
  | alone (lines : List Line) {c : Char} (h : isBlank c = true) : Padded (lines ++ [[c]]) lines

namespace Padded

variable {padded lines : List Line}

/-- A line in front does not matter. -/
theorem cons (h : Padded padded lines) (line : Line) : Padded (line :: padded) (line :: lines) := by
  cases h with
  | same => exact .same _
  | empty => exact .empty (line :: lines)
  | last init last h => exact .last (line :: init) last h
  | alone _ h => exact .alone (line :: lines) h

/-- Nor does a character at the start of the first line. -/
theorem consFirst (h : Padded padded lines) (c : Char) :
    Padded (consFirst c padded) (consFirst c lines) := by
  cases h with
  | same => exact .same _
  | empty =>
    cases lines with
    | nil => exact .same [[c]]
    | cons first others => exact .empty ((c :: first) :: others)
  | last init last h =>
    cases init with
    | nil => exact .last [] (c :: last) h
    | cons first others => exact .last ((c :: first) :: others) last h
  | alone _ h =>
    cases lines with
    | nil => exact .last [] [c] h
    | cons first others => exact .alone ((c :: first) :: others) h

/-- One more empty line, or one more blank in the last line, adds no significant line. -/
theorem significant_eq (h : Padded padded lines) : significant padded = significant lines := by
  cases h with
  | same => rfl
  | empty =>
    rw [significant_append]
    exact List.append_nil _
  | last init last h =>
    rw [significant_append, significant_append, significant_cons, significant?_concat h,
      ← significant_cons]
  | alone _ h =>
    rw [significant_append, significant_cons, significant?_cons h]
    exact List.append_nil _

end Padded

/-- A blank at the end of a text either stands in the last line or ends it. -/
theorem padded_splitLines_concat {c : Char} (h : isBlank c = true) (t : List Char) :
    Padded (splitLines (t ++ [c])) (splitLines t) := by
  -- A character that is no break only makes the first line longer.
  have hchar : ∀ first rest, ¬isLineBreak first = true →
      Padded (splitLines (rest ++ [c])) (splitLines rest) →
      Padded (splitLines (first :: (rest ++ [c]))) (splitLines (first :: rest)) := by
    intro first rest hbreak ih
    rw [splitLines_of_not_isLineBreak hbreak, splitLines_of_not_isLineBreak hbreak]
    exact ih.consFirst first
  -- The cases are those of the cutting itself: nothing left, a pair of breaks, a break, any other
  -- character.
  induction t using splitLines.induct with
  | case1 =>
    by_cases hbreak : isLineBreak c = true
    · have hline : splitLines [c] = [[]] := splitLines_of_isLineBreak hbreak (by simp)
      rw [List.nil_append, hline]
      exact .empty []
    · have hline : splitLines [c] = [[c]] := splitLines_of_not_isLineBreak hbreak []
      rw [List.nil_append, hline]
      exact .alone [] h
  | case2 rest ih => exact ih.cons []
  | case3 first rest hpair hbreak ih =>
    have hfirst : ¬(first = '\r' ∧ rest.head? = some '\n') := by
      rintro ⟨hreturn, hhead⟩
      rcases List.head?_eq_some_iff.1 hhead with ⟨tail, htail⟩
      exact hpair tail hreturn htail
    rw [List.cons_append, splitLines_of_isLineBreak hbreak hfirst]
    by_cases hlast : first = '\r' ∧ (rest ++ [c]).head? = some '\n'
    · -- The blank is the line feed that belongs to the carriage return at the end.
      cases rest with
      | nil =>
        rcases hlast with ⟨rfl, hfeed⟩
        cases hfeed
        exact .same _
      | cons second others => exact absurd hlast hfirst
    · rw [splitLines_of_isLineBreak hbreak hlast]
      exact ih.cons []
  | case4 first rest _ hbreak _ ih => exact hchar first rest hbreak ih
  | case5 first rest _ hbreak _ _ _ ih => exact hchar first rest hbreak ih

/-! ## Significant lines of a text -/

/-- Blanks in front of a text, breaks among them, make no significant line. -/
theorem significant_splitLines_trimStart (t : List Char) :
    significant (splitLines (trimStart t)) = significant (splitLines t) := by
  induction t with
  | nil => rfl
  | cons c rest ih =>
    by_cases hblank : isBlank c = true
    · have hdrop : trimStart (c :: rest) = trimStart rest := by
        rw [trimStart, List.dropWhile_cons, if_pos hblank, trimStart]
      rw [hdrop, ih, significant_splitLines_cons hblank]
    · rw [trimStart, List.dropWhile_cons, if_neg hblank]

/-- Neither do blanks behind it. -/
theorem significant_splitLines_trimEnd (t : List Char) :
    significant (splitLines (trimEnd t)) = significant (splitLines t) := by
  -- From the last character on.
  induction t using List.reverseRecOn with
  | nil => rfl
  | append_singleton rest c ih =>
    by_cases hblank : isBlank c = true
    · rw [trimEnd_concat hblank, ih]
      exact (padded_splitLines_concat hblank rest).significant_eq.symm
    · rw [trimEnd_concat_of_not_isBlank (Bool.eq_false_iff.2 hblank)]

/-- The significant lines of a text are those among its lines, whatever blanks surround it. -/
theorem significantLines_eq (t : List Char) :
    significantLines t = significant (splitLines t) := by
  have hlines : ∀ lines : List Line, (lines.map trim).filter
      (fun line => !(line.isEmpty || isComment line)) = significant lines := by
    intro lines
    induction lines with
    | nil => rfl
    | cons line lines ih =>
      rw [List.map_cons, List.filter_cons, ih, significant_cons]
      unfold significant?
      by_cases hline : ((trim line).isEmpty || isComment (trim line)) = true
      · simp only [hline, if_true]
        rfl
      · simp only [hline]
        rfl
  rw [significantLines, hlines, trim, significant_splitLines_trimEnd,
    significant_splitLines_trimStart]

/-! ## A text after another -/

/-- The lines of two texts with a break between them: the break ends the last line of the first text,
or it stands alone in a line. -/
inductive Joined (lines tail : List Line) : List Line → Prop where
  | ended (h : lines ≠ []) : Joined lines tail (lines ++ tail)
  | alone : Joined lines tail (lines ++ [] :: tail)

namespace Joined

variable {lines tail joined : List Line}

/-- A line in front belongs to the lines before the break. -/
theorem cons (h : Joined lines tail joined) (line : Line) :
    Joined (line :: lines) tail (line :: joined) := by
  cases h with
  | ended _ => exact .ended (List.cons_ne_nil line lines)
  | alone => exact .alone

theorem consFirst (h : Joined lines tail joined) (c : Char) :
    Joined (consFirst c lines) tail (consFirst c joined) := by
  cases lines with
  | nil =>
    cases h with
    | ended h => exact absurd rfl h
    | alone => exact @Joined.ended [[c]] tail (List.cons_ne_nil [c] [])
  | cons first others =>
    cases h with
    | ended _ => exact @Joined.ended ((c :: first) :: others) tail (List.cons_ne_nil _ others)
    | alone => exact @Joined.alone ((c :: first) :: others) tail

/-- The empty line that a break may leave behind is not significant. -/
theorem significant_eq (h : Joined lines tail joined) :
    significant joined = significant lines ++ significant tail := by
  cases h with
  | ended _ => exact significant_append lines tail
  | alone =>
    rw [significant_append]
    rfl

end Joined

/-- The lines after a break are those of the text there, up to a line feed that belongs to the
break. -/
theorem exists_joined_splitLines {c : Char} (h : isLineBreak c = true) (t more : List Char) :
    ∃ tail, Joined (splitLines t) tail (splitLines (t ++ c :: more)) ∧
      significant tail = significant (splitLines more) := by
  -- A character that is no break only makes the first line longer.
  have hchar : ∀ first rest, ¬isLineBreak first = true →
      (∃ tail, Joined (splitLines rest) tail (splitLines (rest ++ c :: more)) ∧
        significant tail = significant (splitLines more)) →
      ∃ tail, Joined (splitLines (first :: rest)) tail (splitLines (first :: (rest ++ c :: more))) ∧
        significant tail = significant (splitLines more) := by
    rintro first rest hbreak ⟨tail, hjoined, htail⟩
    rw [splitLines_of_not_isLineBreak hbreak, splitLines_of_not_isLineBreak hbreak]
    exact ⟨tail, hjoined.consFirst first, htail⟩
  -- On the cases of the cutting. A break right at the end of the text meets the one that follows.
  induction t using splitLines.induct with
  | case1 =>
    rw [List.nil_append]
    by_cases hpair : c = '\r' ∧ more.head? = some '\n'
    · rcases hpair with ⟨rfl, hhead⟩
      rcases List.head?_eq_some_iff.1 hhead with ⟨tail, rfl⟩
      exact ⟨splitLines tail, .alone, (significant_splitLines_cons (by decide) tail).symm⟩
    · rw [splitLines_of_isLineBreak h hpair]
      exact ⟨splitLines more, .alone, rfl⟩
  | case2 rest ih =>
    rcases ih with ⟨tail, hjoined, htail⟩
    exact ⟨tail, hjoined.cons [], htail⟩
  | case3 first rest hpair hbreak ih =>
    have hfirst : ¬(first = '\r' ∧ rest.head? = some '\n') := by
      rintro ⟨hreturn, hhead⟩
      rcases List.head?_eq_some_iff.1 hhead with ⟨tail, htail⟩
      exact hpair tail hreturn htail
    rw [List.cons_append, splitLines_of_isLineBreak hbreak hfirst]
    by_cases hlast : first = '\r' ∧ (rest ++ c :: more).head? = some '\n'
    · -- The break is the line feed that belongs to the carriage return at the end.
      cases rest with
      | nil =>
        rcases hlast with ⟨rfl, hfeed⟩
        cases hfeed
        exact ⟨splitLines more, @Joined.ended [[]] _ (List.cons_ne_nil [] []), rfl⟩
      | cons second others => exact absurd hlast hfirst
    · rw [splitLines_of_isLineBreak hbreak hlast]
      rcases ih with ⟨tail, hjoined, htail⟩
      exact ⟨tail, hjoined.cons [], htail⟩
  | case4 first rest _ hbreak _ ih => exact hchar first rest hbreak ih
  | case5 first rest _ hbreak _ _ _ ih => exact hchar first rest hbreak ih

/-- Lines that are added to a text after a line break are read after those of the text. -/
theorem significantLines_append {c : Char} (h : isLineBreak c = true) (t more : List Char) :
    significantLines (t ++ c :: more) = significantLines t ++ significantLines more := by
  rcases exists_joined_splitLines h t more with ⟨tail, hjoined, htail⟩
  rw [significantLines_eq, significantLines_eq, significantLines_eq, hjoined.significant_eq, htail]

/-- A text without line breaks is one line. -/
theorem significantLines_of_forall_not_isLineBreak {t : List Char}
    (h : ∀ c ∈ t, isLineBreak c = false) : significantLines t = (significant? t).toList := by
  -- Without a break there is nothing to cut.
  have hlines : ∀ t : List Char, (∀ c ∈ t, isLineBreak c = false) → t ≠ [] →
      splitLines t = [t] := by
    intro t
    induction t with
    | nil => exact fun _ hne => absurd rfl hne
    | cons c rest ih =>
      intro hall _
      rw [List.forall_mem_cons] at hall
      rw [splitLines_of_not_isLineBreak (by rw [hall.1]; exact Bool.false_ne_true)]
      by_cases hrest : rest = []
      · rw [hrest]
        rfl
      · rw [ih hall.2 hrest]
        rfl
  rw [significantLines_eq]
  by_cases hempty : t = []
  · rw [hempty]
    rfl
  · rw [hlines t h hempty, significant_cons]
    exact List.append_nil _

end TextDiagram.Text
