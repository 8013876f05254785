import TextDiagram.Diagram
import TextDiagram.Proofs.Text.Lines
/-!
# Spellings of the same lines

A diagram is read from the significant lines of its text. There are many ways to write some lines down:
with different breaks between them, with blanks around them, with blank lines and comments among them.
These ways are described here without regard to how a text is cut into lines. A text has some lines as
its significant ones exactly if it is one of the ways to write them down, so the list of these lines
stands for all the texts that are read alike.

Main statements:

* `significantLines_append_lineEnd`: the end of a line divides the significant lines of a text.
* `significantLines_of_spells`: a text that spells some lines has these lines.
* `spells_significantLines`: a text spells the lines that it has.
* `Diagram.normalize_canonical`: what is left of a text, and all texts of which the same is left.
-/

namespace TextDiagram

namespace Text

/-! ## Ways to write lines down -/

/-- What ends a line: one break, or a carriage return together with a line feed. -/
inductive IsLineEnd : List Char → Prop where
  | single {c : Char} (h : isLineBreak c = true) : IsLineEnd [c]
  | pair : IsLineEnd ['\r', '\n']

/-- A line as a reader of diagrams gets to see it. -/
structure IsKept (line : Line) : Prop where
  ne_nil : line ≠ []
  trimmed : trim line = line
  noComment : isComment line = false
  whole : ∀ c ∈ line, isLineBreak c = false

/-- A text puts down one line, with blanks around it, or it puts down none, as it is blank or a
comment. -/
inductive PutsDown : Option Line → List Char → Prop where
  | line {before line after : List Char} (hbefore : ∀ c ∈ before, isBlank c = true)
    (h : IsKept line) (hafter : ∀ c ∈ after, isBlank c = true) :
    PutsDown (some line) (before ++ (line ++ after))
  | blank {t : List Char} (h : ∀ c ∈ t, isBlank c = true) : PutsDown none t
  | comment {before remark : List Char} (hbefore : ∀ c ∈ before, isBlank c = true)
    (h : ∀ c ∈ remark, isLineBreak c = false) :
    PutsDown none (before ++ ("%%".toList ++ remark))

/-- A text spells some lines if it puts them down one after the other, with ends of lines in between. -/
inductive Spells : List Line → List Char → Prop where
  | last {line : Option Line} {t : List Char} (h : PutsDown line t) : Spells line.toList t
  | more {line : Option Line} {t lineEnd : List Char} {lines : List Line} {rest : List Char}
    (h : PutsDown line t) (hend : IsLineEnd lineEnd) (hrest : Spells lines rest) :
    Spells (line.toList ++ lines) (t ++ (lineEnd ++ rest))

/-! ## A spelling has the lines that it spells -/

theorem significantLines_congr {t s : List Char} (h : trim t = trim s) :
    significantLines t = significantLines s := by
  rw [significantLines, significantLines, h]

theorem trim_eq_nil {t : List Char} (h : ∀ c ∈ t, isBlank c = true) : trim t = [] := by
  have hblank := trim_append_left h []
  rwa [List.append_nil] at hblank

theorem significantLines_append_lineEnd {lineEnd : List Char} (h : IsLineEnd lineEnd)
    (t more : List Char) :
    significantLines (t ++ (lineEnd ++ more)) = significantLines t ++ significantLines more := by
  cases h with
  | single hc => exact significantLines_append hc t more
  | pair =>
    -- The line feed would end an empty line by itself, and that line does not count.
    have hfeed : significantLines ('\n' :: more) = significantLines more :=
      significantLines_append (by decide) [] more
    rw [← hfeed]
    exact significantLines_append (by decide) t ('\n' :: more)

theorem IsKept.significant?_eq {line : Line} (h : IsKept line) : significant? line = some line := by
  have hempty : line.isEmpty = false := List.isEmpty_eq_false_iff.2 h.ne_nil
  rw [significant?, h.trimmed, hempty, h.noComment]
  rfl

/-- A comment is not significant, blanks at its end or not. -/
theorem significant?_comment (remark : List Char) :
    significant? ("%%".toList ++ remark) = none := by
  have htrim : trim ("%%".toList ++ remark) = "%%".toList ++ trimEnd remark := by
    have hstart : trimStart ("%%".toList ++ remark) = "%%".toList ++ remark := rfl
    rw [trim, hstart]
    exact trimEnd_append_cons (by decide) ['%'] remark
  have hcomment : isComment ("%%".toList ++ trimEnd remark) = true := by
    rw [isComment, List.isPrefixOf_iff_prefix]
    exact List.prefix_append _ _
  rw [significant?, htrim, hcomment, Bool.or_true]
  rfl

/-- What puts down a line has that line as its only significant one. -/
theorem significantLines_of_putsDown {line : Option Line} {t : List Char} (h : PutsDown line t) :
    significantLines t = line.toList := by
  cases h with
  | @line before line after hbefore h hafter =>
    have htrim : trim (before ++ (line ++ after)) = trim line := by
      rw [trim_append_left hbefore, trim_append_right hafter]
    rw [significantLines_congr htrim, significantLines_of_forall_not_isLineBreak h.whole,
      h.significant?_eq]
  | blank h => exact significantLines_congr (s := []) (trim_eq_nil h)
  | @comment before remark hbefore h =>
    -- A comment may hold anything but line breaks.
    have hwhole : ∀ c ∈ "%%".toList ++ remark, isLineBreak c = false := by
      intro c hc
      obtain hc | hc := List.mem_append.1 hc
      · have hsign : ∀ c ∈ "%%".toList, isLineBreak c = false := by decide
        exact hsign c hc
      · exact h c hc
    rw [significantLines_congr (trim_append_left hbefore _),
      significantLines_of_forall_not_isLineBreak hwhole, significant?_comment]

/-- Whatever the breaks, the blanks and the comments, a text has the lines that it spells. -/
theorem significantLines_of_spells {lines : List Line} {t : List Char} (h : Spells lines t) :
    significantLines t = lines := by
  induction h with
  | last h => exact significantLines_of_putsDown h
  | more h hend _ ih =>
    rw [significantLines_append_lineEnd hend, significantLines_of_putsDown h, ih]

/-! ## A text spells the lines that it has -/

/-- A text in one line puts down what is significant of it. -/
theorem putsDown_of_forall {t : List Char} (h : ∀ c ∈ t, isLineBreak c = false) :
    PutsDown (significant? t) t := by
  obtain ⟨before, after, ht, hbefore, hafter⟩ := exists_eq_append_trim t
  have hwhole : ∀ c ∈ trim t, isLineBreak c = false := fun c hc => h c (trim_subset t hc)
  unfold significant?
  by_cases hempty : trim t = []
  · -- Nothing but blanks stands in the text.
    rw [hempty]
    refine .blank fun c hc => ?_
    rw [ht, hempty, List.nil_append, List.mem_append] at hc
    exact hc.elim (hbefore c) (hafter c)
  · have hfull : (trim t).isEmpty = false := List.isEmpty_eq_false_iff.2 hempty
    rw [hfull, Bool.false_or]
    by_cases hcomment : isComment (trim t) = true
    · rw [if_pos hcomment]
      obtain ⟨remark, hremark⟩ := List.isPrefixOf_iff_prefix.1 hcomment
      have hrest : ∀ c ∈ remark ++ after, isLineBreak c = false := by
        intro c hc
        refine h c ?_
        rw [ht, ← hremark, List.append_assoc]
        exact List.mem_append_right before (List.mem_append_right _ hc)
      have hput := PutsDown.comment hbefore hrest
      rwa [← List.append_assoc "%%".toList, hremark, ← ht] at hput
    · rw [if_neg hcomment]
      have hkept : IsKept (trim t) :=
        ⟨hempty, trim_trim t, Bool.eq_false_iff.2 hcomment, hwhole⟩
      have hput := PutsDown.line hbefore hkept hafter
      rwa [← ht] at hput

/-- A text is in one line or it has a first line, which a break ends. -/
theorem whole_or_exists_first (t : List Char) : (∀ c ∈ t, isLineBreak c = false) ∨
    ∃ first c rest, t = first ++ ([c] ++ rest) ∧ (∀ d ∈ first, isLineBreak d = false) ∧
      isLineBreak c = true := by
  induction t with
  | nil => exact .inl nofun
  | cons c t ih =>
    by_cases hc : isLineBreak c = true
    · exact .inr ⟨[], c, t, rfl, nofun, hc⟩
    · have hc : isLineBreak c = false := Bool.eq_false_iff.2 hc
      obtain hwhole | ⟨first, d, rest, rfl, hfirst, hd⟩ := ih
      · exact .inl (List.forall_mem_cons.2 ⟨hc, hwhole⟩)
      · exact .inr ⟨c :: first, d, rest, rfl, List.forall_mem_cons.2 ⟨hc, hfirst⟩, hd⟩

/-- Every text spells its significant lines. -/
theorem spells_significantLines (t : List Char) : Spells (significantLines t) t := by
  -- What follows the first line is a shorter text.
  induction hlength : t.length using Nat.strong_induction_on generalizing t with
  | _ n ih =>
    -- Either the text is one line, or it starts with a line and its end.
    obtain hwhole | ⟨first, c, rest, rfl, hfirst, hc⟩ := whole_or_exists_first t
    · rw [significantLines_of_forall_not_isLineBreak hwhole]
      exact .last (putsDown_of_forall hwhole)
    · have hshorter : rest.length < n := by
        simp only [List.length_append, List.length_singleton] at hlength
        omega
      have hrest : Spells (significantLines rest) rest := ih rest.length hshorter rest rfl
      rw [significantLines_append_lineEnd (.single hc),
        significantLines_of_forall_not_isLineBreak hfirst]
      exact .more (putsDown_of_forall hfirst) (.single hc) hrest

/-- The significant lines of a text are those that it spells. -/
theorem significantLines_eq_iff {t : List Char} {lines : List Line} :
    significantLines t = lines ↔ Spells lines t := by
  constructor
  · rintro rfl
    exact spells_significantLines t
  · exact significantLines_of_spells

theorem PutsDown.isKept {line : Line} {t : List Char} (h : PutsDown (some line) t) : IsKept line := by
  cases h with
  | line _ h _ => exact h

theorem Spells.isKept {lines : List Line} {t : List Char} (h : Spells lines t) :
    ∀ line ∈ lines, IsKept line := by
  induction h with
  | last h =>
    intro line hline
    obtain rfl := Option.mem_toList.1 hline
    exact h.isKept
  | more h _ _ ih =>
    intro line hline
    obtain hline | hline := List.mem_append.1 hline
    · obtain rfl := Option.mem_toList.1 hline
      exact h.isKept
    · exact ih line hline

/-- The lines of a text without the blanks around them, blank lines and comments left out. -/
def strippedLines (t : List Char) : List Line :=
  ((splitLines t).map trim).filter fun line => line ≠ [] ∧ ¬"%%".toList <+: line

/-- It makes no difference that a reader starts with trimming the text as a whole. -/
theorem significantLines_eq_strippedLines (t : List Char) : significantLines t = strippedLines t := by
  rw [significantLines_eq, significant, strippedLines]
  induction splitLines t with
  | nil => rfl
  | cons line lines ih =>
    rw [List.filterMap_cons, List.map_cons, List.filter_cons, ih, significant?]
    have hsame : ((trim line).isEmpty || isComment (trim line)) =
        !decide (trim line ≠ [] ∧ ¬"%%".toList <+: trim line) := by
      rw [Bool.eq_iff_iff, Bool.or_eq_true, List.isEmpty_iff, isComment,
        List.isPrefixOf_iff_prefix, Bool.not_eq_true', decide_eq_false_iff_not]
      tauto
    rw [hsame]
    by_cases hkept : trim line ≠ [] ∧ ¬"%%".toList <+: trim line
    · rw [decide_eq_true hkept, if_pos rfl]
      rfl
    · rw [decide_eq_false hkept, if_neg Bool.false_ne_true]
      rfl

end Text

namespace Diagram

/-- Normalizing gives the significant lines, if there are any. -/
theorem normalize_eq_ok_iff {text : String} {lines : List Line} :
    normalize text = .ok lines ↔ Text.significantLines text.toList = lines ∧ lines ≠ [] := by
  unfold normalize
  cases Text.significantLines text.toList with
  | nil => exact ⟨nofun, fun h => absurd h.1.symm h.2⟩
  | cons header rest =>
    refine ⟨fun h => ?_, fun h => congrArg Except.ok h.1⟩
    obtain rfl := Except.ok.inj h
    exact ⟨rfl, List.cons_ne_nil header rest⟩

/-- What is left of a text are its lines without the blanks around them, blank lines and comments left
out; it is an error if nothing is left. The list of these lines stands for all the ways to write them
down: the same is left of exactly those texts that spell them, and these are parsed alike. -/
theorem normalize_canonical (text : String) :
    (normalize text = if Text.strippedLines text.toList = [] then .error .emptyInput
      else .ok (Text.strippedLines text.toList)) ∧
    ∀ lines, normalize text = .ok lines → (∀ line ∈ lines, Text.IsKept line) ∧
      ∀ t : String, (Text.Spells lines t.toList ↔ normalize t = .ok lines) ∧
        (Text.Spells lines t.toList → parse t = parse text) := by
  constructor
  · rw [← Text.significantLines_eq_strippedLines]
    by_cases hlines : Text.significantLines text.toList = []
    · rw [if_pos hlines, normalize, hlines]
    · rw [if_neg hlines]
      exact normalize_eq_ok_iff.2 ⟨rfl, hlines⟩
  · intro lines hlines
    obtain ⟨hlines, hne⟩ := normalize_eq_ok_iff.1 hlines
    refine ⟨(Text.significantLines_eq_iff.1 hlines).isKept, fun t => ⟨?_, fun ht => ?_⟩⟩
    · rw [← Text.significantLines_eq_iff, normalize_eq_ok_iff]
      exact ⟨fun ht => ⟨ht, hne⟩, fun ht => ht.1⟩
    · rw [parse, parse, Text.significantLines_of_spells ht, hlines]

/-- A remark above the header, a line separator below it and blanks around the slice. -/
theorem normalize_canonical_pie :
    Text.Spells ["pie".toList, "\"a\" : 1".toList] "%% parts\r\npie\u2028 \"a\" : 1\t".toList ∧
    normalize "%% parts\r\npie\u2028 \"a\" : 1\t" = .ok ["pie".toList, "\"a\" : 1".toList] ∧
    parse "%% parts\r\npie\u2028 \"a\" : 1\t" = parse "pie\n\"a\" : 1" := by
  obtain ⟨hkept, hsame⟩ := (normalize_canonical "pie\n\"a\" : 1").2
    ["pie".toList, "\"a\" : 1".toList] (by decide)
  have hremark : Text.PutsDown none ([] ++ ("%%".toList ++ " parts".toList)) :=
    .comment nofun (by decide)
  have hheader : Text.PutsDown (some "pie".toList) ([] ++ ("pie".toList ++ [])) :=
    .line nofun (hkept _ (by decide)) nofun
  have hslice : Text.PutsDown (some "\"a\" : 1".toList) ([' '] ++ ("\"a\" : 1".toList ++ ['\t'])) :=
    .line (by decide) (hkept _ (by decide)) (by decide)
  have hspells : Text.Spells ["pie".toList, "\"a\" : 1".toList]
      "%% parts\r\npie\u2028 \"a\" : 1\t".toList :=
    .more hremark .pair (.more hheader (.single (by decide)) (.last hslice))
  obtain ⟨hnormal, hparse⟩ := hsame "%% parts\r\npie\u2028 \"a\" : 1\t"
  exact ⟨hspells, hnormal.1 hspells, hparse hspells⟩

end Diagram

end TextDiagram
