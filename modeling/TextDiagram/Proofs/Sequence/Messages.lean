import Mathlib.Data.List.Infix
import TextDiagram.Proofs.Mention
import TextDiagram.Proofs.Rejection
import TextDiagram.Proofs.Text.Ident
/-!
# Messages as they are written

A message is written as its source, its operator, its target, a colon and its text, with spaces
around the operator if wanted. What is written so is read back, whatever else the text says, with
two provisos. A source named like a keyword must not stand before a space, for such a line declares a
participant. And no operator that is looked for before that of the message may stand in the text
with a target and a colon after it.

Main statements:

* `Sides.cut_operator`, `Sides.cut_earlier`: where the operators of the table cut the line.
* `Sides.findSome?_message?`: the message that is found in the line.
* `ofLine_messageLine`: what a line with names at its ends says.
* `parse_message`: the diagram that a text with one message line makes.
-/

namespace TextDiagram.SequenceDiagram

/-! ## The table of operators -/

/-- The operators that are looked for before that of a style. -/
def earlierTokens (style : MessageStyle) : List (List Char × MessageStyle) :=
  messageTokens.takeWhile fun entry => entry.2 ≠ style

/-- The tokens before and after the operator of a style. -/
theorem exists_messageTokens_eq (style : MessageStyle) : ∃ later, messageTokens =
    earlierTokens style ++ (style.operator.toList, style) :: later := by
  obtain ⟨head, isDotted⟩ := style
  cases head <;> cases isDotted <;> exact ⟨_, rfl⟩

/-- Every token starts with a dash. -/
theorem exists_token_eq_cons {entry : List Char × MessageStyle} (h : entry ∈ messageTokens) :
    ∃ rest, entry.1 = '-' :: rest := by
  have hall : ∀ entry ∈ messageTokens, entry.1 = '-' :: entry.1.tail := by decide
  exact ⟨_, hall entry h⟩

/-- Every operator starts with a dash. -/
theorem exists_operator_eq_cons (style : MessageStyle) :
    ∃ rest, style.operator.toList = '-' :: rest := by
  obtain ⟨later, hlater⟩ := exists_messageTokens_eq style
  exact exists_token_eq_cons (show (style.operator.toList, style) ∈ messageTokens by simp [hlater])

/-- An earlier operator stands nowhere in an operator, and it starts there only if `>` would come
next. -/
theorem earlierTokens_overlap (style : MessageStyle) : ∀ entry ∈ earlierTokens style,
    ∀ s ∈ style.operator.toList.tails, s ≠ [] →
      ¬entry.1 <+: s ∧ (s <+: entry.1 → s ++ ['>'] <+: entry.1) := by
  obtain ⟨head, isDotted⟩ := style
  cases head <;> cases isDotted <;> decide

/-- No token that is tried earlier begins within the operator. -/
theorem not_prefix_of_mem_earlierTokens {style : MessageStyle} {entry : List Char × MessageStyle}
    (hentry : entry ∈ earlierTokens style) {s : List Char} (hs : s <:+ style.operator.toList)
    (hne : s ≠ []) {c : Char} (hc : c ≠ '>') (t : List Char) : ¬entry.1 <+: s ++ c :: t := by
  intro hprefix
  obtain ⟨hinside, hover⟩ :=
    earlierTokens_overlap style entry hentry s ((List.mem_tails _ _).2 hs) hne
  -- The token ends within the operator, or it goes on behind it with an angle bracket.
  obtain hle | hle := List.prefix_or_prefix_of_prefix hprefix (List.prefix_append s _)
  · exact hinside hle
  · have hnext := (hover hle).trans hprefix
    rw [List.prefix_append_right_inj, List.cons_prefix_cons] at hnext
    exact hc hnext.1.symm

/-! ## Where a message line is cut -/

/-- The line of a message, from the texts beside the operator and the one after the colon. -/
def messageLine (style : MessageStyle) (left right tail : List Char) : Line :=
  left ++ (style.operator.toList ++ (right ++ ':' :: tail))

/-- Texts beside an operator that are read as a source and a target and do not make up another
operator. -/
structure Sides (left right : List Char) : Prop where
  dash : '-' ∉ left
  plain : ∀ c ∈ right, c ≠ '-' ∧ c ≠ '>' ∧ c ≠ ':'
  source : Text.trim left ≠ []
  target : Statement.target right ≠ []

/-- A token splits a text if a target and a colon follow the first place where it stands. -/
def Splits (token text : List Char) : Prop :=
  ∃ parts ∈ Text.cut token text, ':' ∈ parts.2 ∧ Statement.target (Text.beforeColon parts.2) ≠ []

instance (token text : List Char) : Decidable (Splits token text) :=
  inferInstanceAs (Decidable (∃ parts ∈ Text.cut token text, _))

namespace Sides

variable {left right tail : List Char} (h : Sides left right) (style : MessageStyle)

include h

/-- The line is cut at its operator. -/
theorem cut_operator : Text.cut style.operator.toList (messageLine style left right tail) =
    some (left, right ++ ':' :: tail) := by
  obtain ⟨rest, hrest⟩ := exists_operator_eq_cons style
  rw [messageLine, hrest]
  exact Text.cut_append_self h.dash _

/-- With its own operator the line is read as the message. -/
theorem message?_operator : Statement.message? (messageLine style left right tail)
    (style.operator.toList, style) = some ⟨String.ofList (Text.trim left),
      String.ofList (Statement.target right), String.ofList (Text.trim tail), style⟩ := by
  have hcolon : Text.cut [':'] (right ++ ':' :: tail) = some (right, tail) :=
    Text.cut_append_self (fun hmem => (h.plain _ hmem).2.2 rfl) tail
  simp only [Statement.message?, h.cut_operator style, Option.bind_some, hcolon]
  rw [if_neg]
  simp [h.source, h.target]

/-- An earlier operator cuts the line in the text of the message or nowhere. -/
theorem cut_earlier {entry : List Char × MessageStyle} (hentry : entry ∈ earlierTokens style) :
    Text.cut entry.1 (messageLine style left right tail) =
      (Text.cut entry.1 tail).map fun parts =>
        (messageLine style left right parts.1, parts.2) := by
  obtain ⟨rest, hrest⟩ := exists_token_eq_cons (List.takeWhile_subset _ hentry)
  -- What stands behind the operator does not start with an angle bracket, so no longer operator
  -- arises there.
  obtain ⟨c, after, hafter, hc⟩ : ∃ c after, right ++ ':' :: tail = c :: after ∧ c ≠ '>' := by
    cases right with
    | nil => exact ⟨_, _, rfl, by decide⟩
    | cons c others => exact ⟨_, _, rfl, (h.plain c List.mem_cons_self).2.1⟩
  -- Up to the colon there is no dash.
  have hright : Text.cut entry.1 (right ++ ':' :: tail) =
      (Text.cut entry.1 tail).map fun parts => (right ++ ':' :: parts.1, parts.2) := by
    have hdash : '-' ∉ right ++ [':'] := by
      intro hmem
      obtain hmem | hmem := List.mem_append.1 hmem
      · exact (h.plain _ hmem).1 rfl
      · exact absurd hmem (by decide)
    rw [hrest, List.append_cons, Text.cut_append_of_not_mem hdash]
    simp
  -- An earlier token does not begin within the operator either.
  have hoperator : Text.cut entry.1 (style.operator.toList ++ (right ++ ':' :: tail)) =
      (Text.cut entry.1 (right ++ ':' :: tail)).map fun parts =>
        (style.operator.toList ++ parts.1, parts.2) := by
    refine Text.cut_append fun s hs hne => ?_
    rw [hafter]
    exact not_prefix_of_mem_earlierTokens hentry hs hne hc after
  rw [messageLine]
  rw [hrest] at hright hoperator ⊢
  rw [Text.cut_append_of_not_mem h.dash, hoperator, hright]
  simp only [Option.map_map]
  rfl

/-- With an earlier token it is not read, unless the text splits there. -/
theorem message?_earlier {entry : List Char × MessageStyle} (hentry : entry ∈ earlierTokens style)
    (hsplits : ¬Splits entry.1 tail) :
    Statement.message? (messageLine style left right tail) entry = none := by
  have hcut : Text.cut entry.1 (messageLine style left right tail) =
      (Text.cut entry.1 tail).map fun parts => (messageLine style left right parts.1, parts.2) :=
    h.cut_earlier style hentry
  cases hparts : Text.cut entry.1 tail with
  | none =>
    rw [hparts] at hcut
    simp only [Statement.message?, hcut, Option.map_none, Option.bind_none]
  | some parts =>
    rw [hparts] at hcut
    rw [Statement.message?_eq_none_iff hcut]
    -- The token occurs in the text of the message: then a colon or a target is missing behind it.
    by_cases hcolon : ':' ∈ parts.2
    · exact .target (by_contra fun htarget => hsplits ⟨parts, hparts, hcolon, htarget⟩)
    · exact .colon hcolon

/-- Of all tokens the operator is the first that reads the line. -/
theorem findSome?_message? (hquiet : ∀ entry ∈ earlierTokens style, ¬Splits entry.1 tail) :
    messageTokens.findSome? (Statement.message? (messageLine style left right tail)) =
      some ⟨String.ofList (Text.trim left), String.ofList (Statement.target right),
        String.ofList (Text.trim tail), style⟩ := by
  obtain ⟨later, hlater⟩ := exists_messageTokens_eq style
  have hearlier : (earlierTokens style).findSome?
      (Statement.message? (messageLine style left right tail)) = none := by
    rw [List.findSome?_eq_none_iff]
    intro entry hentry
    exact h.message?_earlier style hentry (hquiet entry hentry)
  rw [hlater, List.findSome?_append, hearlier, Option.none_or, List.findSome?_cons,
    h.message?_operator style]

end Sides

/-! ## Names at the ends of a message -/

/-- Some spaces. -/
def spaces (n : Nat) : List Char := List.replicate n ' '

section

variable {source target : List Char} {before after : Nat} {style : MessageStyle} {tail : List Char}

/-- A target is read back, whatever spaces stand before it. -/
theorem target_spaces_append (htarget : Text.isIdent target = true) :
    Statement.target (spaces after ++ target) = target := by
  obtain ⟨c, rest, rfl⟩ := List.exists_cons_of_ne_nil (Text.ne_nil_of_isIdent htarget)
  have hc := Text.isIdentChar_of_mem htarget c List.mem_cons_self
  have hmark : (c == '+' || c == '-') = false := by
    rw [← Bool.not_eq_true, Bool.or_eq_true, beq_iff_eq, beq_iff_eq]
    rintro (rfl | rfl)
    · exact absurd hc (by decide)
    · exact absurd hc (by decide)
  rw [Statement.target, spaces, Text.trim_append_left Text.isBlank_of_mem_replicate,
    Text.trim_of_isIdent htarget, List.dropWhile_cons, hmark]
  exact Text.trim_of_isIdent htarget

/-- A source is read back, whatever spaces stand behind it. -/
theorem trim_append_spaces (hsource : Text.isIdent source = true) :
    Text.trim (source ++ spaces before) = source := by
  rw [spaces, Text.trim_append_right Text.isBlank_of_mem_replicate, Text.trim_of_isIdent hsource]

/-- Names and spaces may stand beside the operator. -/
theorem sides_of_isIdent (hsource : Text.isIdent source = true)
    (htarget : Text.isIdent target = true) :
    Sides (source ++ spaces before) (spaces after ++ target) := by
  refine ⟨?_, ?_, ?_, ?_⟩
  · intro hmem
    obtain hmem | hmem := List.mem_append.1 hmem
    · exact absurd (Text.isIdentChar_of_mem hsource _ hmem) (by decide)
    · exact absurd (Text.isBlank_of_mem_replicate _ hmem) (by decide)
  · intro c hmem
    obtain hmem | hmem := List.mem_append.1 hmem
    · rw [List.eq_of_mem_replicate hmem]
      decide
    · have hc := Text.isIdentChar_of_mem htarget c hmem
      refine ⟨?_, ?_, ?_⟩
      all_goals
        rintro rfl
        exact absurd hc (by decide)
  · rw [trim_append_spaces hsource]
    exact Text.ne_nil_of_isIdent hsource
  · rw [target_spaces_append htarget]
    exact Text.ne_nil_of_isIdent htarget

/-- A line that spells a message sends it. -/
theorem ofLine_messageLine (hsource : Text.isIdent source = true)
    (htarget : Text.isIdent target = true)
    (hname : before = 0 ∨ source ∉ ["participant", "actor"].map String.toList)
    (hquiet : ∀ entry ∈ earlierTokens style, ¬Splits entry.1 tail) :
    Statement.ofLine (messageLine style (source ++ spaces before) (spaces after ++ target) tail) =
      .send ⟨String.ofList source, String.ofList target, String.ofList (Text.trim tail),
        style⟩ := by
  have hsides : Sides (source ++ spaces before) (spaces after ++ target) :=
    sides_of_isIdent hsource htarget
  -- A participant is declared by a keyword and a space, which the line does not start with.
  have hkeyword : ∀ keyword ∈ ["participant", "actor"], Text.after? (keyword ++ " ")
      (messageLine style (source ++ spaces before) (spaces after ++ target) tail) = none := by
    intro keyword hmem
    have hident : ∀ keyword ∈ ["participant", "actor"], Text.isIdent keyword.toList = true := by
      decide
    obtain ⟨rest, hrest⟩ := exists_operator_eq_cons style
    rw [Text.after?, Text.isPrefixOf?_eq_none_iff, messageLine, hrest, List.append_assoc,
      String.toList_append]
    refine Text.not_keyword_prefix (hident keyword hmem) hsource (by decide) (by decide) ?_ _
    exact hname.imp_right fun hnot heq => hnot (heq ▸ List.mem_map_of_mem hmem)
  have hparticipant : Text.after? "participant "
      (messageLine style (source ++ spaces before) (spaces after ++ target) tail) = none :=
    hkeyword "participant" (by decide)
  have hactor : Text.after? "actor "
      (messageLine style (source ++ spaces before) (spaces after ++ target) tail) = none :=
    hkeyword "actor" (by decide)
  have hfind := hsides.findSome?_message? style hquiet
  rw [trim_append_spaces hsource, target_spaces_append htarget] at hfind
  rw [Statement.ofLine, hparticipant, hactor, hfind]

/-- The line of a message loses only blanks after its colon when it is trimmed. -/
theorem significant?_messageLine (hsource : Text.isIdent source = true) (right : List Char) :
    Text.significant? (messageLine style (source ++ spaces before) right tail) =
      some (messageLine style (source ++ spaces before) right (Text.trimEnd tail)) := by
  obtain ⟨c, rest, rfl⟩ := List.exists_cons_of_ne_nil (Text.ne_nil_of_isIdent hsource)
  have hc := Text.isIdentChar_of_mem hsource c List.mem_cons_self
  have hcomment : c ≠ '%' := by
    rintro rfl
    exact absurd hc (by decide)
  have hline : ∀ tail, messageLine style (c :: rest ++ spaces before) right tail =
      c :: (rest ++ spaces before ++ style.operator.toList ++ right ++ ':' :: tail) := by
    intro tail
    simp only [messageLine, List.cons_append, List.append_assoc]
  rw [hline, hline]
  exact Text.significant?_cons_append (Text.isBlank_of_isIdentChar hc) hcomment (by decide) _ _

/-- The line of a message is one line. -/
theorem not_isLineBreak_of_mem_messageLine (hsource : Text.isIdent source = true)
    (htarget : Text.isIdent target = true) (htail : ∀ c ∈ tail, Text.isLineBreak c = false) :
    ∀ c ∈ messageLine style (source ++ spaces before) (spaces after ++ target) tail,
      Text.isLineBreak c = false := by
  have hspaces : ∀ {n : Nat}, ∀ c ∈ spaces n, Text.isLineBreak c = false :=
    Text.not_isLineBreak_of_mem_replicate
  have hoperator : ∀ c ∈ style.operator.toList, Text.isLineBreak c = false := by
    obtain ⟨head, isDotted⟩ := style
    cases head <;> cases isDotted <;> decide
  simp only [messageLine, List.forall_mem_append, List.forall_mem_cons]
  exact ⟨⟨Text.not_isLineBreak_of_mem hsource, hspaces⟩, hoperator,
    ⟨hspaces, Text.not_isLineBreak_of_mem htarget⟩, by decide, htail⟩

end

/-! ## Texts with one message -/

/-- The text of a diagram with one message, with some spaces before and after its operator. -/
def messageText (style : MessageStyle) (source target text : String) (before after : Nat) :
    String :=
  "sequenceDiagram\n" ++ source ++ String.ofList (spaces before) ++ style.operator ++
    String.ofList (spaces after) ++ target ++ ": " ++ text

/-- The characters of a diagram with one message. -/
theorem toList_messageText (style : MessageStyle) (source target text : String)
    (before after : Nat) : (messageText style source target text before after).toList =
      "sequenceDiagram".toList ++ '\n' :: messageLine style (source.toList ++ spaces before)
        (spaces after ++ target.toList) (' ' :: text.toList) := by
  have hheader : "sequenceDiagram\n".toList = "sequenceDiagram".toList ++ ['\n'] := rfl
  have hcolon : ": ".toList = [':', ' '] := rfl
  unfold messageText messageLine
  simp only [String.toList_append, String.toList_ofList, hheader, hcolon, List.append_assoc,
    List.cons_append, List.nil_append]

/-- The space after the colon does not matter for what splits the text. -/
theorem Splits.of_cons {entry : List Char × MessageStyle} (hentry : entry ∈ messageTokens)
    {text : List Char} (h : Splits entry.1 (' ' :: text)) : Splits entry.1 text := by
  obtain ⟨rest, hrest⟩ := exists_token_eq_cons hentry
  obtain ⟨parts, hparts, hafter⟩ := h
  have hcut : Text.cut entry.1 (' ' :: text) =
      (Text.cut entry.1 text).map fun parts => ([' '] ++ parts.1, parts.2) := by
    rw [hrest]
    exact Text.cut_append_of_not_mem (a := [' ']) (by decide)
  rw [Option.mem_def, hcut, Option.map_eq_some_iff] at hparts
  obtain ⟨inner, hinner, rfl⟩ := hparts
  exact ⟨inner, hinner, hafter⟩

/-- A trimmed text behind a space has no blanks at its end; an empty one leaves none. -/
theorem trimEnd_cons_of_trim_eq {text : List Char} (htrim : Text.trim text = text) :
    Text.trimEnd (' ' :: text) = if text = [] then [] else ' ' :: text := by
  have happend := Text.trimEnd_append [' '] text
  rw [Text.trimEnd_of_trim_eq htrim] at happend
  exact happend

/-- The first message declares its ends. -/
theorem apply_send (message : Message) : Statement.apply ⟨[], []⟩ (.send message) =
    ⟨[message.source, message.target].eraseDups.map fun id => ⟨id, id, false⟩, [message]⟩ := by
  have hends := Keyed.ensure_ensure_nil (f := fun id => (⟨id, id, false⟩ : Participant))
    (fun _ => rfl) message.source message.target
  rw [← hends]
  rfl

/-- A message between two names is read back from what it is written as, with its source, its target,
its text and its style and with no participants but the two, if no operator that is looked for before
its own splits its text. A source that is a keyword must not stand before a space. -/
theorem parse_message (style : MessageStyle) (source target text : String) (before after : Nat)
    (hsource : Text.isIdent source.toList = true) (htarget : Text.isIdent target.toList = true)
    (htrim : Text.trim text.toList = text.toList)
    (hbreak : ∀ c ∈ text.toList, Text.isLineBreak c = false)
    (hname : before = 0 ∨ source ∉ ["participant", "actor"])
    (hquiet : ∀ entry ∈ earlierTokens style, ¬Splits entry.1 text.toList) :
    Diagram.parse (messageText style source target text before after) = .ok (.sequence
      ⟨[source, target].eraseDups.map fun id => ⟨id, id, false⟩,
        [⟨source, target, text, style⟩]⟩) := by
  -- The header and the message, which loses the blank behind the colon if the text is empty.
  have hlines : Text.significantLines (messageText style source target text before after).toList =
      ["sequenceDiagram".toList, messageLine style (source.toList ++ spaces before)
        (spaces after ++ target.toList) (Text.trimEnd (' ' :: text.toList))] := by
    have hheader : Text.significantLines "sequenceDiagram".toList =
        ["sequenceDiagram".toList] := rfl
    have htail : ∀ c ∈ ' ' :: text.toList, Text.isLineBreak c = false := by
      rw [List.forall_mem_cons]
      exact ⟨by decide, hbreak⟩
    rw [toList_messageText, Text.significantLines_append (by decide), hheader,
      Text.significantLines_of_forall_not_isLineBreak
        (not_isLineBreak_of_mem_messageLine hsource htarget htail),
      significant?_messageLine hsource]
    rfl
  have hline : Statement.ofLine (messageLine style (source.toList ++ spaces before)
      (spaces after ++ target.toList) (Text.trimEnd (' ' :: text.toList))) =
        .send ⟨source, target, text, style⟩ := by
    have hkeywords : before = 0 ∨ source.toList ∉ ["participant", "actor"].map String.toList :=
      hname.imp_right (List.mem_map_of_injective fun _ _ => String.toList_injective).not.2
    rw [ofLine_messageLine hsource htarget hkeywords, trimEnd_cons_of_trim_eq htrim]
    · split
      · next hempty => simp [hempty, String.ext_iff, Text.trim_nil]
      · rw [Text.trim_cons (by decide), htrim]
        simp
    · intro entry hentry hsplits
      rw [trimEnd_cons_of_trim_eq htrim] at hsplits
      -- An empty text is left with no token at all.
      split at hsplits
      · obtain ⟨parts, hparts, -⟩ := hsplits
        obtain ⟨rest, hrest⟩ := exists_token_eq_cons (List.takeWhile_subset _ hentry)
        rw [hrest] at hparts
        cases hparts
      · exact hquiet entry hentry (hsplits.of_cons (List.takeWhile_subset _ hentry))
  have hkind : DiagramKind.ofKeyword? (String.ofList (Text.firstWord "sequenceDiagram".toList)) =
      some .sequence := rfl
  rw [Diagram.parse, hlines, Diagram.parseLines]
  simp only [hkind, Diagram.ofLines, ofLines, readLines, List.foldl_cons, List.foldl_nil, hline,
    apply_send]

/-- A text with a colon and with an operator that is looked for earlier, without a colon after it. -/
theorem parse_message_about_ratio :
    Text.isIdent "A".toList = true ∧ Text.isIdent "B".toList = true ∧
      (∀ entry ∈ earlierTokens ⟨.none, false⟩, ¬Splits entry.1 "1:2 means a->>b".toList) ∧
      Diagram.parse "sequenceDiagram\nA -> B: 1:2 means a->>b" = .ok (.sequence
        ⟨[⟨"A", "A", false⟩, ⟨"B", "B", false⟩],
          [⟨"A", "B", "1:2 means a->>b", ⟨.none, false⟩⟩]⟩) := by
  have hquiet : ∀ entry ∈ earlierTokens ⟨.none, false⟩,
      ¬Splits entry.1 "1:2 means a->>b".toList := by decide
  have hany : "1:2 means a->>b".toList.any Text.isLineBreak = false := by decide
  have hbreak : ∀ c ∈ "1:2 means a->>b".toList, Text.isLineBreak c = false :=
    fun c hc => Bool.eq_false_iff.2 (List.any_eq_false.1 hany c hc)
  have hparse := parse_message ⟨.none, false⟩ "A" "B" "1:2 means a->>b" 1 1 (by decide) (by decide)
    (by decide) hbreak (by decide) hquiet
  have htext : messageText ⟨.none, false⟩ "A" "B" "1:2 means a->>b" 1 1 =
      "sequenceDiagram\nA -> B: 1:2 means a->>b" := by decide +kernel
  rw [htext] at hparse
  exact ⟨by decide, by decide, hquiet, hparse⟩

/-- A source that is a keyword before a space, and a text that an earlier operator splits. -/
theorem messages_misread :
    Diagram.parse "sequenceDiagram\nparticipant -> B: hi" =
        .ok (.sequence ⟨[⟨"-> B: hi", "-> B: hi", false⟩], []⟩) ∧
      Diagram.parse "sequenceDiagram\nA->B: pre-xmas: done" =
        .ok (.sequence ⟨[⟨"A->B: pre", "A->B: pre", false⟩, ⟨"mas", "mas", false⟩],
          [⟨"A->B: pre", "mas", "done", ⟨.cross, false⟩⟩]⟩) :=
  ⟨rfl, rfl⟩

end TextDiagram.SequenceDiagram
