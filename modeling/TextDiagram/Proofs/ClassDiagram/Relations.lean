import Mathlib.Data.List.Infix
import TextDiagram.Proofs.Rejection
import TextDiagram.Proofs.Text.Ident
import TextDiagram.Proofs.Text.Quoted
/-!
# Relationships as they are written

A relationship is written as two classes with an operator between them. Each class may have a
cardinality in double quotes at the side of the operator, and a label may follow after a colon. Six of
the seven types have two operators, which name the classes in opposite order. With spaces around the
operator the two ways of writing are read as the same relationship. Without spaces an operator is still
found between plain names, unless a name and the operator together spell an operator of aggregation,
which has a letter at one end.

Main statements:

* `leftOperand?_leftText`, `rightOperand?_rightText`: how the two sides are read.
* `findToken_relationText`: which operator is found between two spaces.
* `ofLine_relationText`: what a line with spaces around its operator says.
* `mirrored_spellings`: both ways to write a relationship say the same.
* `findToken_names`: which operator is found between two names.
* `spaces_insignificant`: spaces make no difference there.
-/

namespace TextDiagram.ClassDiagram

/-! ## The table of operators -/

/-- No token is listed twice. -/
theorem nodup_relationTokens : (relationTokens.map Prod.fst).Nodup := by decide

/-- No operator that is looked for earlier stands in an operator. -/
theorem earlier_relationTokens : ∀ entry ∈ relationTokens,
    ∀ other ∈ Text.earlier relationTokens entry.1, ¬other.1 <:+: entry.1 := by
  decide

/-- Tokens are not empty and have no blanks, quotes or colons. -/
theorem relationTokens_chars : ∀ entry ∈ relationTokens, entry.1 ≠ [] ∧
    ∀ c ∈ entry.1, Text.isBlank c = false ∧ c ≠ '"' ∧ c ≠ ':' := by
  decide

/-- Each operator has a sign in it that stands in no name. -/
theorem not_letters : ∀ entry ∈ relationTokens, ¬∀ c ∈ entry.1, Text.isIdentChar c = true := by
  decide

/-- No token occurs in a name. -/
theorem not_infix_name {entry : List Char × RelationToken} (hentry : entry ∈ relationTokens)
    {name : List Char} (h : Text.isIdent name = true) : ¬entry.1 <:+: name := fun hoccurs =>
  not_letters entry hentry fun c hc => Text.isIdentChar_of_mem h c (hoccurs.subset hc)

/-- An operator that starts with letters only is that of aggregation. -/
theorem letters_of_prefix : ∀ entry ∈ relationTokens, ∀ s ∈ entry.1.inits,
    (∀ c ∈ s, Text.isIdentChar c = true) → s = [] ∨ s = ['o'] ∧ entry.1 = ['o', '-', '-'] := by
  decide

/-! ## How a relationship is written -/

/-- The left side of a relationship: a name and a cardinality. -/
def leftText (side : String × Option String) : String :=
  match side.2 with
  | some cardinality => side.1 ++ " \"" ++ cardinality ++ "\""
  | none => side.1

/-- The right side of a relationship: a cardinality and a name. -/
def rightText (side : String × Option String) : String :=
  match side.2 with
  | some cardinality => "\"" ++ cardinality ++ "\" " ++ side.1
  | none => side.1

/-- A label after its colon. -/
def labelText : Option String → String
  | some label => " : " ++ label
  | none => ""

/-- A relationship with some spaces before and after its operator. -/
def relationText (operator : String) (left right : String × Option String) (label : Option String)
    (before after : Nat) : String :=
  leftText left ++ String.ofList (List.replicate before ' ') ++ operator ++
    String.ofList (List.replicate after ' ') ++ (rightText right ++ labelText label)

/-- A name with a cardinality that has no quote, no colon and no operator in it. -/
structure IsOperand (side : String × Option String) : Prop where
  name : Text.isIdent side.1.toList = true
  quote : ∀ cardinality ∈ side.2, '"' ∉ cardinality.toList
  colon : ∀ cardinality ∈ side.2, ':' ∉ cardinality.toList
  operator : ∀ cardinality ∈ side.2, ∀ entry ∈ relationTokens, ¬entry.1 <:+: cardinality.toList

/-- A trimmed label that is neither empty nor in quotes and has no operator in it. -/
structure IsLabel (label : Option String) : Prop where
  ne_empty : ∀ text ∈ label, text ≠ ""
  trimmed : ∀ text ∈ label, Text.trim text.toList = text.toList
  unquoted : ∀ text ∈ label, ∀ inner, text.toList ≠ Text.quote inner
  operator : ∀ text ∈ label, ∀ entry ∈ relationTokens, ¬entry.1 <:+: text.toList

/-- The left side of a line: the name, then its quoted cardinality. -/
theorem toList_leftText (side : String × Option String) : (leftText side).toList =
    side.1.toList ++
      (side.2.map fun cardinality => ' ' :: Text.quote cardinality.toList).getD [] := by
  have hopen : " \"".toList = [' ', '"'] := rfl
  have hclose : "\"".toList = ['"'] := rfl
  obtain ⟨name, _ | cardinality⟩ := side
  · simp [leftText]
  · simp [leftText, hopen, hclose, Text.quote]

/-- The right side of a line: the quoted cardinality, then the name. -/
theorem toList_rightText (side : String × Option String) : (rightText side).toList =
    (side.2.map fun cardinality => Text.quote cardinality.toList ++ [' ']).getD [] ++
      side.1.toList := by
  have hopen : "\"".toList = ['"'] := rfl
  have hclose : "\" ".toList = ['"', ' '] := rfl
  obtain ⟨name, _ | cardinality⟩ := side
  · simp [rightText]
  · simp [rightText, hopen, hclose, Text.quote]

/-- The parts of a line in their order. -/
theorem toList_relationText (operator : String) (left right : String × Option String)
    (label : Option String) (before after : Nat) :
    (relationText operator left right label before after).toList =
      (leftText left).toList ++ (List.replicate before ' ' ++ (operator.toList ++
        (List.replicate after ' ' ++ ((rightText right).toList ++ (labelText label).toList)))) := by
  simp [relationText]

/-! ## How its sides are read -/

/-- A name is read up to the first character that cannot belong to it. -/
theorem name?_append {name rest : List Char} (h : Text.isIdent name = true)
    (hrest : Text.EndsIdent rest) (htilde : rest.head? ≠ some '~') :
    name? (name ++ rest) = some (name, rest) := by
  rw [name?, Text.ident?_append h hrest, Option.bind_some]
  cases rest with
  | nil => rfl
  | cons c rest =>
    have hc : c ≠ '~' := fun hc => htilde (hc ▸ rfl)
    simp [hc]

/-- An identifier is read back as a name. -/
theorem wholeName?_of_isIdent {name : String} (h : Text.isIdent name.toList = true) :
    wholeName? name.toList = some name := by
  have hname := name?_append h Text.endsIdent_nil (by simp)
  rw [List.append_nil] at hname
  simp [wholeName?, hname]

/-- There are no blanks around the left side. -/
theorem trim_leftText {side : String × Option String} (h : IsOperand side) :
    Text.trim (leftText side).toList = (leftText side).toList := by
  rw [toList_leftText]
  obtain ⟨name, _ | cardinality⟩ := side
  · simpa using Text.trim_of_isIdent h.name
  · have hquote : Text.trim ['"'] = ['"'] := by decide
    have htrim := Text.trim_append_append h.name (' ' :: '"' :: cardinality.toList)
      (List.cons_ne_nil _ _) hquote
    simpa [Text.quote] using htrim

/-- There are no blanks around the right side. -/
theorem trim_rightText {side : String × Option String} (h : IsOperand side) :
    Text.trim (rightText side).toList = (rightText side).toList := by
  rw [toList_rightText]
  obtain ⟨name, _ | cardinality⟩ := side
  · simpa using Text.trim_of_isIdent h.name
  · -- The side starts with a quote and ends with a name, neither of them blank.
    have htrim := Text.trim_cons_append (c := '"') (by decide) (cardinality.toList ++ ['"', ' '])
      (Text.ne_nil_of_isIdent h.name) (Text.trimEnd_of_trim_eq (Text.trim_of_isIdent h.name))
    simpa [Text.quote] using htrim

/-- A quoted cardinality without quotes inside is read back. -/
theorem cardinality?_quote {cardinality : String} (h : '"' ∉ cardinality.toList) :
    cardinality? (Text.quote cardinality.toList) = some (some cardinality) := by
  have hquoted := Text.quoted?_quote h []
  rw [List.append_nil] at hquoted
  have hne : (Text.quote cardinality.toList).isEmpty = false := rfl
  simp [cardinality?, hquoted, hne]

/-- The left side is read back, whatever blanks follow it. -/
theorem leftOperand?_leftText {side : String × Option String} (h : IsOperand side) (before : Nat) :
    leftOperand? ((leftText side).toList ++ List.replicate before ' ') = some side := by
  rw [leftOperand?, Text.trim_append_right Text.isBlank_of_mem_replicate, trim_leftText h,
    toList_leftText]
  obtain ⟨name, _ | cardinality⟩ := side
  · -- Without a cardinality nothing is left behind the name.
    have hname : name? (name.toList ++ []) = some (name.toList, []) :=
      name?_append h.name Text.endsIdent_nil (by simp)
    have hnone : cardinality? (Text.trimStart []) = some none := rfl
    simp only [Option.map_none, Option.getD_none, hname, Option.bind_some, hnone, Option.map_some,
      String.ofList_toList]
  · -- The blank ends the name, and the quoted text behind it is the cardinality.
    have hname : name? (name.toList ++ ' ' :: Text.quote cardinality.toList) =
        some (name.toList, ' ' :: Text.quote cardinality.toList) :=
      name?_append h.name (Text.endsIdent_cons (by decide) _) (by simp)
    have hstart : Text.trimStart (' ' :: Text.quote cardinality.toList) =
        Text.quote cardinality.toList := rfl
    simp only [Option.map_some, Option.getD_some, hname, Option.bind_some, hstart,
      cardinality?_quote (h.quote cardinality rfl), String.ofList_toList]

/-- The right side is read back, whatever blanks stand around it. -/
theorem rightOperand?_rightText {side : String × Option String} (h : IsOperand side)
    (before after : Nat) :
    rightOperand? (List.replicate before ' ' ++ ((rightText side).toList ++
      List.replicate after ' ')) = some side := by
  rw [rightOperand?, Text.trim_append_left Text.isBlank_of_mem_replicate,
    Text.trim_append_right Text.isBlank_of_mem_replicate, trim_rightText h, toList_rightText]
  obtain ⟨name, _ | cardinality⟩ := side
  · -- A name does not start with a quote.
    have hquoted : Text.quoted? name.toList = none := by
      obtain ⟨c, rest, hchars⟩ := List.exists_cons_of_ne_nil (Text.ne_nil_of_isIdent h.name)
      have hc : c ≠ '"' := by
        rintro rfl
        exact absurd (Text.isIdentChar_of_mem h.name '"' (hchars ▸ List.mem_cons_self)) (by decide)
      simp [hchars, Text.quoted?, hc]
    simp only [Option.map_none, Option.getD_none, List.nil_append, hquoted,
      wholeName?_of_isIdent h.name, Option.map_some]
  · -- The cardinality is read first; what is left behind it is a blank and the name.
    have hquoted := Text.quoted?_quote (h.quote cardinality rfl) (' ' :: name.toList)
    have hstart : Text.trimStart (' ' :: name.toList) = name.toList := by
      obtain ⟨c, rest, hchars⟩ := List.exists_cons_of_ne_nil (Text.ne_nil_of_isIdent h.name)
      have hc := Text.isIdentChar_of_mem h.name c (hchars ▸ List.mem_cons_self)
      rw [hchars]
      exact Text.trimStart_cons (Text.isBlank_of_isIdentChar hc) rest
    simp only [Option.map_some, Option.getD_some, List.append_assoc, List.singleton_append,
      hquoted, hstart, wholeName?_of_isIdent h.name, String.ofList_toList]

/-- A label that is trimmed and not in quotes is read back. -/
theorem label?_text {text : String} (hne : text ≠ "")
    (htrim : Text.trim text.toList = text.toList) (hquote : ∀ inner, text.toList ≠ Text.quote inner) :
    label? (' ' :: text.toList) = some text := by
  have hspace : Text.trim (' ' :: text.toList) = text.toList := by
    rw [Text.trim_cons (by decide), htrim]
  simp [label?, Text.unquote_of_trim hspace hquote, hne]

/-- The colon that starts the label is the first one behind the operator. -/
theorem colon_notMem_rightText {side : String × Option String} (h : IsOperand side) :
    ':' ∉ (rightText side).toList := by
  have hname : ':' ∉ side.1.toList := fun hmem =>
    absurd (Text.isIdentChar_of_mem h.name _ hmem) (by decide)
  rw [toList_rightText]
  obtain ⟨name, _ | cardinality⟩ := side
  · simpa using hname
  · simpa [Text.quote, hname] using h.colon cardinality rfl

section

variable {operator : String} {token : RelationToken} {left right : String × Option String}
variable {label : Option String} {before after : Nat}

/-- If a line is cut at its operator, it is read as the relationship that it was written for. -/
theorem relationship?_relationText (hleft : IsOperand left) (hright : IsOperand right)
    (hlabel : IsLabel label)
    (hfind : Text.findToken relationTokens
        (relationText operator left right label before after).toList =
      some ((leftText left).toList ++ List.replicate before ' ', token,
        List.replicate after ' ' ++ ((rightText right).toList ++ (labelText label).toList))) :
    relationship? (relationText operator left right label before after).toList =
      some (relationship token left right label) := by
  have hcolon : ':' ∉ List.replicate after ' ' ++ (rightText right).toList := by
    simp [colon_notMem_rightText hright]
  rw [relationship?, hfind, Option.bind_some]
  cases label with
  | none =>
    have hlabelText : (labelText none).toList = [] := rfl
    -- Without a label there is no colon to cut at.
    have hcut : Text.cut [':'] (List.replicate after ' ' ++ ((rightText right).toList ++ [])) =
        none := by
      rw [List.append_nil]
      exact Text.cut_singleton_eq_none_iff.2 hcolon
    have hoperand := rightOperand?_rightText hright after 0
    simp only [List.replicate_zero] at hoperand
    simp only [hlabelText, hcut, leftOperand?_leftText hleft, hoperand]
  | some text =>
    have hlabelText : (labelText (some text)).toList = ' ' :: ':' :: ' ' :: text.toList :=
      String.toList_append
    have hcut : Text.cut [':'] (List.replicate after ' ' ++ ((rightText right).toList ++
        ' ' :: ':' :: ' ' :: text.toList)) =
          some (List.replicate after ' ' ++ ((rightText right).toList ++ [' ']), ' ' :: text.toList) := by
      -- The cut is at the colon of the label, with one blank left before it.
      have hbehind : ':' ∉ List.replicate after ' ' ++ ((rightText right).toList ++ [' ']) := by
        simpa using hcolon
      have hself := Text.cut_append_self (p := []) hbehind (' ' :: text.toList)
      simp only [List.append_assoc, List.cons_append, List.nil_append] at hself
      exact hself
    have hoperand := rightOperand?_rightText hright after 1
    simp only [List.replicate_one] at hoperand
    have hread := label?_text (hlabel.ne_empty text rfl) (hlabel.trimmed text rfl)
      (hlabel.unquoted text rfl)
    simp only [hlabelText, hcut, leftOperand?_leftText hleft, hoperand, hread]

/-! ## Which line it is -/

/-- A line starts with the name on its left side. -/
theorem exists_relationText_eq (operator : String) (left right : String × Option String)
    (label : Option String) (before after : Nat) : ∃ rest,
    (relationText operator left right label before after).toList = left.1.toList ++ rest := by
  rw [toList_relationText, toList_leftText, List.append_assoc]
  exact ⟨_, rfl⟩

/-- The line ends with a label or a name. -/
theorem exists_trimmed_end (hright : IsOperand right) (hlabel : IsLabel label) : ∃ t tail,
    (rightText right).toList ++ (labelText label).toList = t ++ tail ∧ tail ≠ [] ∧
      Text.trim tail = tail := by
  cases label with
  | none =>
    have hempty : (labelText none).toList = [] := rfl
    rw [toList_rightText, hempty, List.append_nil]
    exact ⟨_, _, rfl, Text.ne_nil_of_isIdent hright.name, Text.trim_of_isIdent hright.name⟩
  | some text =>
    have htext : (labelText (some text)).toList = " : ".toList ++ text.toList :=
      String.toList_append
    rw [htext, ← List.append_assoc]
    exact ⟨_, _, rfl, by simpa using hlabel.ne_empty text rfl, hlabel.trimmed text rfl⟩

/-- A line is significant and stays as it is, since it starts with a name and ends trimmed. -/
theorem significant?_relationText (hleft : IsOperand left) (hright : IsOperand right)
    (hlabel : IsLabel label) :
    Text.significant? (relationText operator left right label before after).toList =
      some (relationText operator left right label before after).toList := by
  obtain ⟨t, tail, hend, hne, htail⟩ := exists_trimmed_end hright hlabel
  rw [toList_relationText, hend, toList_leftText]
  -- Only the two ends of the line matter for trimming.
  have htrim := Text.trim_append_append hleft.name
    ((left.2.map fun cardinality => ' ' :: Text.quote cardinality.toList).getD [] ++
      (List.replicate before ' ' ++ (operator.toList ++ (List.replicate after ' ' ++ t)))) hne htail
  simp only [List.append_assoc] at htrim ⊢
  exact Text.significant?_of_trim_eq hleft.name htrim

/-- A line that starts with a name is no stereotype. -/
theorem stereotype?_eq_none {name : List Char} (h : Text.isIdent name = true) (rest : List Char) :
    stereotype? (name ++ rest) = none := by
  have hprefix : ¬"<<".toList <+: name ++ rest := by
    obtain ⟨c, more, rfl⟩ := List.exists_cons_of_ne_nil (Text.ne_nil_of_isIdent h)
    intro hprefix
    -- The name would start with an angle bracket, which is no letter of a name.
    obtain ⟨rfl, -⟩ := List.cons_prefix_cons.1 hprefix
    exact absurd (Text.isIdentChar_of_mem h _ List.mem_cons_self) (by decide)
  rw [stereotype?, Text.after?, Text.isPrefixOf?_eq_none_iff.2 hprefix]

/-- A line that starts with a name declares a class only if the name is the keyword and what follows is
a name with nothing but a brace after it. -/
theorem declaration?_eq_none {name rest : List Char} (h : Text.isIdent name = true)
    (hends : Text.EndsIdent rest)
    (hother : ∀ other more, name? (Text.trimStart rest) = some (other, more) →
      more ≠ [] ∧ Text.trimStart more ≠ ['\x7b']) : declaration? (name ++ rest) = none := by
  rw [declaration?]
  cases hkeyword : Text.afterKeyword? "class" (name ++ rest) with
  | none => rfl
  | some after =>
    obtain ⟨c, behind, heq, hc, rfl⟩ := Text.eq_append_of_afterKeyword? hkeyword
    -- The blank behind the keyword ends a name, so the keyword is the name that the line starts with.
    have hblank : Text.EndsIdent (c :: behind) := by
      refine Text.endsIdent_cons (Bool.eq_false_iff.2 fun hchar => ?_) behind
      rw [Text.isBlank_of_isIdentChar hchar] at hc
      cases hc
    obtain ⟨-, rfl⟩ := Text.eq_of_append_eq_append h (by decide) hends hblank heq
    have hstart : Text.trimStart (c :: behind) = Text.trimStart behind :=
      List.dropWhile_cons_of_pos hc
    rw [hstart] at hother
    rw [Option.bind_some]
    cases hname : name? (Text.trimStart behind) with
    | none => rfl
    | some parts =>
      obtain ⟨hne, hbrace⟩ := hother parts.1 parts.2 hname
      simp [hne, hbrace]

/-- An operator is no name, and what follows the letter that one of them starts with is no brace. -/
theorem name?_operator {entry : List Char × RelationToken} (hentry : entry ∈ relationTokens)
    {behind other more : List Char} (h : name? (entry.1 ++ behind) = some (other, more)) :
    more ≠ [] ∧ Text.trimStart more ≠ ['\x7b'] := by
  obtain ⟨c, rest, hrest⟩ := List.exists_cons_of_ne_nil (relationTokens_chars entry hentry).1
  cases hc : Text.isIdentChar c with
  | false =>
    rw [hrest, name?, List.cons_append, Text.ident?_eq_none (Text.endsIdent_cons hc _)] at h
    cases h
  | true =>
    have hinit : [c] ∈ entry.1.inits :=
      (List.mem_inits _ _).2 (hrest ▸ List.prefix_append [c] rest)
    obtain hnil | ⟨-, hletter⟩ := letters_of_prefix entry hentry [c] hinit (by simpa using hc)
    · cases hnil
    · have hident : Text.isIdent ['o'] = true := by decide
      have hends : Text.EndsIdent ('-' :: '-' :: behind) := Text.endsIdent_cons (by decide) _
      have hname := name?_append hident hends (by simp)
      rw [hletter] at h
      obtain ⟨rfl, rfl⟩ := Prod.mk.inj (Option.some.inj (hname.symm.trans h))
      rw [Text.trimStart_cons (by decide)]
      exact ⟨List.cons_ne_nil _ _, by simp⟩

/-- A relationship is never read as a declaration, even if its left side is called `class`. -/
theorem declaration?_relationText (hentry : (operator.toList, token) ∈ relationTokens)
    (hleft : IsOperand left) :
    declaration? (relationText operator left right label (before + 1) after).toList = none := by
  rw [toList_relationText, toList_leftText, List.append_assoc]
  obtain ⟨name, _ | cardinality⟩ := left
  · -- Behind the name stands the operator.
    refine declaration?_eq_none hleft.name (Text.endsIdent_cons (by decide) _) ?_
    intro other more hname
    have hstart : Text.trimStart (List.replicate (before + 1) ' ' ++ (operator.toList ++
        (List.replicate after ' ' ++ ((rightText right).toList ++ (labelText label).toList)))) =
          operator.toList ++ (List.replicate after ' ' ++
            ((rightText right).toList ++ (labelText label).toList)) := by
      obtain ⟨hne, hchars⟩ := relationTokens_chars _ hentry
      obtain ⟨c, rest, hoperator⟩ : ∃ c rest, operator.toList = c :: rest :=
        List.exists_cons_of_ne_nil hne
      have hc := (hchars c (hoperator ▸ List.mem_cons_self)).1
      rw [Text.trimStart_append_left Text.isBlank_of_mem_replicate, hoperator]
      exact Text.trimStart_cons hc _
    simp only [Option.map_none, Option.getD_none, List.nil_append] at hname
    rw [hstart] at hname
    exact name?_operator hentry hname
  · -- Behind the name stands a quote.
    refine declaration?_eq_none hleft.name (Text.endsIdent_cons (by decide) _) ?_
    intro other more hname
    have hquote : ∀ t, name? (Text.trimStart (' ' :: Text.quote cardinality.toList ++ t)) = none := by
      intro t
      have hstart : Text.trimStart (' ' :: Text.quote cardinality.toList ++ t) =
          '"' :: (cardinality.toList ++ ['"'] ++ t) := rfl
      rw [hstart, name?, Text.ident?_eq_none (Text.endsIdent_cons (by decide) _), Option.bind_none]
    cases (hquote _).symm.trans hname

/-! ## Operators between spaces -/

/-- Blanks, quotes and colons share no character with a token. -/
theorem disjoint_of_forall {entry : List Char × RelationToken} (hentry : entry ∈ relationTokens)
    {t : List Char} (h : ∀ c ∈ t, Text.isBlank c = true ∨ c = '"' ∨ c = ':') :
    t.Disjoint entry.1 := by
  intro c hc hmem
  obtain ⟨hblank, hquote, hcolon⟩ := (relationTokens_chars entry hentry).2 c hmem
  obtain h | h | h := h c hc
  · rw [h] at hblank
    cases hblank
  · exact hquote h
  · exact hcolon h

/-- Spaces share no character with a token. -/
theorem disjoint_of_mem_replicate {entry : List Char × RelationToken}
    (hentry : entry ∈ relationTokens) (n : Nat) : (List.replicate n ' ').Disjoint entry.1 :=
  disjoint_of_forall hentry fun c hc => .inl (Text.isBlank_of_mem_replicate c hc)

/-- No token occurs in the empty text. -/
theorem not_infix_nil {entry : List Char × RelationToken} (hentry : entry ∈ relationTokens) :
    ¬entry.1 <:+: [] := by
  rw [List.infix_nil]
  exact (relationTokens_chars entry hentry).1

/-- No token occurs in the left side. -/
theorem not_infix_leftText {entry : List Char × RelationToken} (hentry : entry ∈ relationTokens)
    {side : String × Option String} (h : IsOperand side) : ¬entry.1 <:+: (leftText side).toList := by
  rw [toList_leftText]
  obtain ⟨name, _ | cardinality⟩ := side
  · simpa using not_infix_name hentry h.name
  · -- A token can lie in the name or in the cardinality only, the quotes and the blank are in none.
    have hsplit : name.toList ++ ' ' :: Text.quote cardinality.toList =
        name.toList ++ ([' ', '"'] ++ (cardinality.toList ++ (['"'] ++ []))) := rfl
    have hopen : [' ', '"'].Disjoint entry.1 := disjoint_of_forall hentry (by decide)
    have hclose : ['"'].Disjoint entry.1 := disjoint_of_forall hentry (by decide)
    simp only [Option.map_some, Option.getD_some]
    rw [hsplit, Text.infix_append_iff_of_disjoint (List.cons_ne_nil _ _) hopen,
      Text.infix_append_iff_of_disjoint (List.cons_ne_nil _ _) hclose]
    simp only [not_infix_name hentry h.name, h.operator cardinality rfl entry hentry,
      not_infix_nil hentry, or_self, not_false_eq_true]

/-- No token occurs in a name with a label behind it. -/
theorem not_infix_labelled {entry : List Char × RelationToken} (hentry : entry ∈ relationTokens)
    {name : List Char} (hname : Text.isIdent name = true) (hlabel : IsLabel label) :
    ¬entry.1 <:+: name ++ (labelText label).toList := by
  cases label with
  | none =>
    have hempty : (labelText none).toList = [] := rfl
    rw [hempty, List.append_nil]
    exact not_infix_name hentry hname
  | some text =>
    have htext : (labelText (some text)).toList = [' ', ':', ' '] ++ text.toList :=
      String.toList_append
    have hcolon : [' ', ':', ' '].Disjoint entry.1 := disjoint_of_forall hentry (by decide)
    rw [htext, Text.infix_append_iff_of_disjoint (List.cons_ne_nil _ _) hcolon]
    simp only [not_infix_name hentry hname, hlabel.operator text rfl entry hentry, or_self,
      not_false_eq_true]

/-- No token occurs in the right side with a label behind it. -/
theorem not_infix_rightText {entry : List Char × RelationToken} (hentry : entry ∈ relationTokens)
    {side : String × Option String} (h : IsOperand side) (hlabel : IsLabel label) :
    ¬entry.1 <:+: (rightText side).toList ++ (labelText label).toList := by
  have hname := not_infix_labelled hentry h.name hlabel
  rw [toList_rightText]
  obtain ⟨name, _ | cardinality⟩ := side
  · simpa using hname
  · -- Here the name comes last, with the label behind it.
    have hsplit : Text.quote cardinality.toList ++ [' '] ++ name.toList ++ (labelText label).toList =
        [] ++ (['"'] ++ (cardinality.toList ++
          (['"', ' '] ++ (name.toList ++ (labelText label).toList)))) := by
      simp [Text.quote]
    have hopen : ['"'].Disjoint entry.1 := disjoint_of_forall hentry (by decide)
    have hclose : ['"', ' '].Disjoint entry.1 := disjoint_of_forall hentry (by decide)
    simp only [Option.map_some, Option.getD_some]
    rw [hsplit, Text.infix_append_iff_of_disjoint (List.cons_ne_nil _ _) hopen,
      Text.infix_append_iff_of_disjoint (List.cons_ne_nil _ _) hclose]
    simp only [hname, h.operator cardinality rfl entry hentry, not_infix_nil hentry, or_self,
      not_false_eq_true]

/-- Between spaces the operator that was written is found. -/
theorem findToken_relationText (hmem : (operator.toList, token) ∈ relationTokens)
    (hleft : IsOperand left) (hright : IsOperand right) (hlabel : IsLabel label) :
    Text.findToken relationTokens
        (relationText operator left right label (before + 1) (after + 1)).toList =
      some ((leftText left).toList ++ List.replicate (before + 1) ' ', token,
        List.replicate (after + 1) ' ' ++ ((rightText right).toList ++ (labelText label).toList)) := by
  have hspace : ∀ n, List.replicate (n + 1) ' ' ≠ [] := fun n => List.cons_ne_nil _ _
  have hearlier : ∀ entry ∈ Text.earlier relationTokens operator.toList, ¬entry.1 <:+:
      (relationText operator left right label (before + 1) (after + 1)).toList := by
    intro entry hentry
    have hin := Text.mem_of_mem_earlier hentry
    -- The spaces keep what stands beside the operator apart from it.
    rw [toList_relationText,
      Text.infix_append_iff_of_disjoint (hspace _) (disjoint_of_mem_replicate hin _),
      Text.infix_append_iff_of_disjoint (hspace _) (disjoint_of_mem_replicate hin _)]
    simp only [not_infix_leftText hin hleft, not_infix_rightText hin hright hlabel,
      earlier_relationTokens _ hmem entry hentry, or_self, not_false_eq_true]
  have hcut : Text.cut operator.toList
      (relationText operator left right label (before + 1) (after + 1)).toList =
        some ((leftText left).toList ++ List.replicate (before + 1) ' ',
          List.replicate (after + 1) ' ' ++
            ((rightText right).toList ++ (labelText label).toList)) := by
    rw [toList_relationText, Text.cut_append_of_disjoint (relationTokens_chars _ hmem).1 (hspace _)
      (disjoint_of_mem_replicate hmem _) (not_infix_leftText hmem hleft), Text.cut_append_pattern,
      Option.map_some, List.append_nil]
  exact Text.findToken_eq_some nodup_relationTokens hmem hearlier hcut

/-- A line that spells a relationship and is neither a declaration nor a stereotype relates classes. -/
theorem ofLine_eq_relate {line : Line} {r : ClassRelationship} (hdeclaration : declaration? line = none)
    (hstereotype : stereotype? line = none) (hrelationship : relationship? line = some r) :
    Statement.ofLine line = .relate r := by
  have hoperator : ∃ entry ∈ relationTokens, entry.1 <:+: line := by
    rw [← Text.findToken_isSome_iff, Option.isSome_iff_exists]
    obtain ⟨parts, hparts, -⟩ := Option.bind_eq_some_iff.1 hrelationship
    exact ⟨parts, hparts⟩
  rw [Statement.ofLine, hdeclaration, hstereotype, inlineMember?_eq_none hoperator, hrelationship]

/-- A line with spaces around its operator relates the two classes it names. -/
theorem ofLine_relationText (hmem : (operator.toList, token) ∈ relationTokens)
    (hleft : IsOperand left) (hright : IsOperand right) (hlabel : IsLabel label) :
    Statement.ofLine (relationText operator left right label (before + 1) (after + 1)).toList =
      .relate (relationship token left right label) := by
  obtain ⟨rest, hline⟩ := exists_relationText_eq operator left right label (before + 1) (after + 1)
  have hstereotype : stereotype?
      (relationText operator left right label (before + 1) (after + 1)).toList = none := by
    rw [hline]
    exact stereotype?_eq_none hleft.name rest
  exact ofLine_eq_relate (declaration?_relationText hmem hleft) hstereotype
    (relationship?_relationText hleft hright hlabel
      (findToken_relationText hmem hleft hright hlabel))

end

/-! ## What a line does outside a block -/

/-- The draft with one relationship more. The two classes that it names are declared. -/
def Draft.related (d : Draft) (r : ClassRelationship) : Draft :=
  { d with
    classes := declared (declared d.classes r.source) r.target
    relationships := d.relationships ++ [r] }

/-- The line says the relationship and nothing else: read outside a block it declares the two classes
and relates them, and so it does at the end of a text in which no block is open there. -/
def Spells (line : String) (r : ClassRelationship) : Prop :=
  Reading.HasEffect Reading.classes (fun d => d.current = none) (fun d => d.related r) line

/-- A significant line that is classified as a relationship spells it. -/
theorem Spells.of_ofLine {line : String} {r : ClassRelationship}
    (hline : Statement.ofLine line.toList = .relate r)
    (hsignificant : Text.significant? line.toList = some line.toList) : Spells line r := by
  have hreads : ∀ d : Draft, d.current = none →
      (Reading.classes d).readLine line.toList = .classes (d.related r) := by
    intro d hd
    rw [Reading.readLine, Draft.readLine, hd, hline]
    rfl
  exact .of_significant hsignificant hreads hreads

/-! ## Two ways to write a relationship -/

/-- The operators that name the target first and those that name it last. A link has only one. -/
def mirroredOperators : List (RelationType × String × String) :=
  [(.inheritance, "<|--", "--|>"), (.realization, "<|..", "..|>"), (.composition, "*--", "--*"),
    (.aggregation, "o--", "--o"), (.dependency, "<..", "..>"), (.association, "<--", "-->")]

/-- Both operators of a mirrored pair are tokens of the same type, one in each direction. -/
theorem mem_relationTokens_of_mirrored : ∀ entry ∈ mirroredOperators,
    (entry.2.1.toList, ⟨entry.1, true⟩) ∈ relationTokens ∧
      (entry.2.2.toList, ⟨entry.1, false⟩) ∈ relationTokens := by
  decide

/-- With spaces around the operator a relationship may be written from either end. Both lines relate the
same two classes with the same cardinalities, type and label, and the marker of the type belongs to the
target. -/
theorem mirrored_spellings {relationType : RelationType} {mirrored forward : String}
    (hpair : (relationType, mirrored, forward) ∈ mirroredOperators)
    {a b : String × Option String} (ha : IsOperand a) (hb : IsOperand b) {label : Option String}
    (hlabel : IsLabel label) (before after : Nat) :
    Spells (relationText mirrored a b label (before + 1) (after + 1))
        ⟨b.1, a.1, relationType, label, b.2, a.2⟩ ∧
      Spells (relationText forward b a label (before + 1) (after + 1))
        ⟨b.1, a.1, relationType, label, b.2, a.2⟩ := by
  obtain ⟨hmirrored, hforward⟩ := mem_relationTokens_of_mirrored _ hpair
  exact ⟨.of_ofLine (ofLine_relationText hmirrored ha hb hlabel)
      (significant?_relationText ha hb hlabel),
    .of_ofLine (ofLine_relationText hforward hb ha hlabel)
      (significant?_relationText hb ha hlabel)⟩

/-- A name that ends in a letter of an operator, a cardinality of two signs, and an empty one. -/
theorem mirrored_spellings_of_many :
    (RelationType.aggregation, "o--", "--o") ∈ mirroredOperators ∧
      IsOperand ("o_o", some "1..*") ∧ IsOperand ("class", some "") ∧ IsLabel (some "has: parts") ∧
      Spells "o_o \"1..*\" o-- \"\" class : has: parts"
        ⟨"class", "o_o", .aggregation, some "has: parts", some "", some "1..*"⟩ ∧
      Spells "class \"\" --o \"1..*\" o_o : has: parts"
        ⟨"class", "o_o", .aggregation, some "has: parts", some "", some "1..*"⟩ := by
  have hpair : (RelationType.aggregation, "o--", "--o") ∈ mirroredOperators := by decide
  have hnone : ∀ text ∈ ["1..*", "", "has: parts"], ∀ entry ∈ relationTokens,
      Text.cut entry.1 text.toList = none := by decide
  have hoperator : ∀ text ∈ ["1..*", "", "has: parts"], ∀ entry ∈ relationTokens,
      ¬entry.1 <:+: text.toList :=
    fun text htext entry hentry => Text.cut_eq_none_iff.1 (hnone text htext entry hentry)
  have hleft : IsOperand ("o_o", some "1..*") :=
    ⟨by decide, by decide, by decide, fun _ h => hoperator _ (Option.some.inj h ▸ by decide)⟩
  have hright : IsOperand ("class", some "") :=
    ⟨by decide, by decide, by decide, fun _ h => hoperator _ (Option.some.inj h ▸ by decide)⟩
  have hlabel : IsLabel (some "has: parts") :=
    { ne_empty := by decide
      trimmed := by decide
      unquoted := by
        rintro text h inner
        obtain rfl := Option.some.inj h
        exact fun hquote => absurd (List.cons.inj hquote).1 (by decide)
      operator := fun _ h => hoperator _ (Option.some.inj h ▸ by decide) }
  have hspells := mirrored_spellings hpair hleft hright hlabel 0 0
  have hmirrored : relationText "o--" ("o_o", some "1..*") ("class", some "") (some "has: parts")
      (0 + 1) (0 + 1) = "o_o \"1..*\" o-- \"\" class : has: parts" := by decide +kernel
  have hforward : relationText "--o" ("class", some "") ("o_o", some "1..*") (some "has: parts")
      (0 + 1) (0 + 1) = "class \"\" --o \"1..*\" o_o : has: parts" := by decide +kernel
  rw [hmirrored, hforward] at hspells
  exact ⟨hpair, hleft, hright, hlabel, hspells⟩

/-! ## Operators between names -/

/-- An operator that ends with letters only is that of aggregation. -/
theorem letters_of_suffix : ∀ entry ∈ relationTokens, ∀ s ∈ entry.1.tails,
    (∀ c ∈ s, Text.isIdentChar c = true) → s = [] ∨ s = ['o'] ∧ entry.1 = ['-', '-', 'o'] := by
  decide

/-- A name and the operator beside it spell an operator of aggregation, which is looked for earlier. -/
def RunsTogether (a operator b : String) : Prop :=
  a.toList.getLast? = some 'o' ∧ operator ∈ ["--o", "-->", "--"] ∨
    b.toList.head? = some 'o' ∧ operator ∈ ["<--", "--"]

instance (a operator b : String) : Decidable (RunsTogether a operator b) :=
  inferInstanceAs (Decidable (_ ∨ _))

/-- Behind a name the operator of aggregation goes on with two dashes of these operators. -/
theorem mem_of_prefix_of_earlier : ∀ entry ∈ relationTokens,
    ∀ other ∈ Text.earlier relationTokens entry.1, other.1 = ['o', '-', '-'] →
      ['-', '-'] <+: entry.1 → entry.1 ∈ ["--o", "-->", "--"].map String.toList := by
  decide

/-- Of the operators that end in `--`, only `<--` and `--` are tried after `--o`. -/
theorem mem_of_suffix_of_earlier : ∀ entry ∈ relationTokens,
    ∀ other ∈ Text.earlier relationTokens entry.1, other.1 = ['-', '-', 'o'] →
      ['-', '-'] <:+ entry.1 → entry.1 ∈ ["<--", "--"].map String.toList := by
  decide

section

variable {operator a b : String} {token : RelationToken}

/-- No operator that is looked for earlier starts in the written one and ends in the name behind it. -/
theorem not_infix_operator_name (hmem : (operator.toList, token) ∈ relationTokens)
    (hb : Text.isIdent b.toList = true) (happart : ¬RunsTogether a operator b) :
    ∀ entry ∈ Text.earlier relationTokens operator.toList,
      ¬entry.1 <:+: operator.toList ++ b.toList := by
  intro entry hentry hoccurs
  have hin := Text.mem_of_mem_earlier hentry
  rw [List.infix_append_iff] at hoccurs
  obtain hoccurs | hoccurs | ⟨s, r, hsplit, hs, hr⟩ := hoccurs
  · exact earlier_relationTokens _ hmem entry hentry hoccurs
  · exact not_infix_name hin hb hoccurs
  · -- What the operator that is looked for has in common with the name is the letter at its end.
    have hletters := letters_of_suffix entry hin r
      ((List.mem_tails _ _).2 (hsplit ▸ List.suffix_append s r))
      fun c hc => Text.isIdentChar_of_mem hb c (hr.subset hc)
    obtain rfl | ⟨rfl, hother⟩ := hletters
    · rw [List.append_nil] at hsplit
      exact earlier_relationTokens _ hmem entry hentry (hsplit ▸ hs.isInfix)
    · have hdashes : s = ['-', '-'] := List.append_cancel_right (hsplit.symm.trans hother)
      obtain ⟨rest, hrest⟩ := hr
      have hoperator := mem_of_suffix_of_earlier _ hmem entry hentry hother (hdashes ▸ hs)
      rw [List.mem_map_of_injective fun _ _ => String.toList_injective] at hoperator
      exact happart (.inr ⟨hrest ▸ rfl, hoperator⟩)

/-- Nor does one start in the name before it. -/
theorem not_infix_names (hmem : (operator.toList, token) ∈ relationTokens)
    (ha : Text.isIdent a.toList = true) (hb : Text.isIdent b.toList = true)
    (happart : ¬RunsTogether a operator b) :
    ∀ entry ∈ Text.earlier relationTokens operator.toList,
      ¬entry.1 <:+: a.toList ++ (operator.toList ++ b.toList) := by
  intro entry hentry hoccurs
  have hin := Text.mem_of_mem_earlier hentry
  have hbehind := not_infix_operator_name hmem hb happart entry hentry
  rw [List.infix_append_iff] at hoccurs
  obtain hoccurs | hoccurs | ⟨s, r, hsplit, hs, hr⟩ := hoccurs
  · exact not_infix_name hin ha hoccurs
  · exact hbehind hoccurs
  · -- What it has in common with the name before it is the letter at its start.
    have hletters := letters_of_prefix entry hin s
      ((List.mem_inits _ _).2 (hsplit ▸ List.prefix_append s r))
      fun c hc => Text.isIdentChar_of_mem ha c (hs.subset hc)
    obtain rfl | ⟨rfl, hother⟩ := hletters
    · rw [List.nil_append] at hsplit
      exact hbehind (hsplit ▸ hr.isInfix)
    · have hdashes : r = ['-', '-'] := List.append_cancel_left (hsplit.symm.trans hother)
      have hlength : ∀ entry ∈ relationTokens, 2 ≤ entry.1.length := by decide
      have hprefix : ['-', '-'] <+: operator.toList :=
        List.prefix_of_prefix_length_le (hdashes ▸ hr) (List.prefix_append _ _) (hlength _ hmem)
      obtain ⟨front, hfront⟩ := hs
      have hoperator := mem_of_prefix_of_earlier _ hmem entry hentry hother hprefix
      rw [List.mem_map_of_injective fun _ _ => String.toList_injective] at hoperator
      exact happart (.inl ⟨hfront ▸ List.getLast?_concat, hoperator⟩)

/-- The written operator does not start in the name before it. -/
theorem cut_names (hmem : (operator.toList, token) ∈ relationTokens)
    (ha : Text.isIdent a.toList = true) :
    Text.cut operator.toList (a.toList ++ (operator.toList ++ b.toList)) =
      some (a.toList, b.toList) := by
  have hstart : ∀ s, s <:+ a.toList → s ≠ [] →
      ¬operator.toList <+: s ++ (operator.toList ++ b.toList) := by
    intro s hs hne hprefix
    have hchars : ∀ c ∈ s, Text.isIdentChar c = true := fun c hc =>
      Text.isIdentChar_of_mem ha c (hs.subset hc)
    obtain hinside | hover := List.prefix_or_prefix_of_prefix hprefix (List.prefix_append s _)
    · exact not_infix_name hmem ha (hinside.isInfix.trans hs.isInfix)
    · obtain rfl | ⟨rfl, hoperator⟩ := letters_of_prefix _ hmem s ((List.mem_inits _ _).2 hover) hchars
      · exact hne rfl
      · -- Its second character is a dash, but behind the name stands its first again.
        have hsecond : operator.toList = ['o', '-', '-'] := hoperator
        rw [hsecond] at hprefix
        simp at hprefix
  rw [Text.cut_append hstart, Text.cut_append_pattern, Option.map_some, List.append_nil]

/-- Between two names the operator that was written is found, unless it runs together with one. -/
theorem findToken_names (hmem : (operator.toList, token) ∈ relationTokens)
    (ha : Text.isIdent a.toList = true) (hb : Text.isIdent b.toList = true)
    (happart : ¬RunsTogether a operator b) :
    Text.findToken relationTokens (a.toList ++ (operator.toList ++ b.toList)) =
      some (a.toList, token, b.toList) :=
  Text.findToken_eq_some nodup_relationTokens hmem (not_infix_names hmem ha hb happart)
    (cut_names hmem ha)

/-- A bare name is an operand. -/
theorem isOperand_name (h : Text.isIdent a.toList = true) : IsOperand (a, none) :=
  ⟨h, nofun, nofun, nofun⟩

/-- No label is a label. -/
theorem isLabel_none : IsLabel none := ⟨nofun, nofun, nofun, nofun⟩

/-- The line of two names without spaces, cardinalities and label. -/
theorem toList_relationText_names (operator a b : String) :
    (relationText operator (a, none) (b, none) none 0 0).toList =
      a.toList ++ (operator.toList ++ b.toList) := by
  simp [toList_relationText, toList_leftText, toList_rightText, labelText]

/-- A line without spaces declares no class. -/
theorem declaration?_names (hmem : (operator.toList, token) ∈ relationTokens)
    (ha : Text.isIdent a.toList = true) (hb : Text.isIdent b.toList = true) :
    declaration? (a.toList ++ (operator.toList ++ b.toList)) = none := by
  have hblank : ∀ c ∈ a.toList ++ (operator.toList ++ b.toList), Text.isBlank c = false := by
    simp only [List.forall_mem_append]
    exact ⟨fun c hc => Text.isBlank_of_isIdentChar (Text.isIdentChar_of_mem ha c hc),
      fun c hc => ((relationTokens_chars _ hmem).2 c hc).1,
      fun c hc => Text.isBlank_of_isIdentChar (Text.isIdentChar_of_mem hb c hc)⟩
  rw [declaration?]
  cases hkeyword : Text.afterKeyword? "class" (a.toList ++ (operator.toList ++ b.toList)) with
  | none => rfl
  | some after =>
    obtain ⟨c, rest, heq, hc, -⟩ := Text.eq_append_of_afterKeyword? hkeyword
    rw [hblank c (heq ▸ List.mem_append_right _ List.mem_cons_self)] at hc
    cases hc

/-- Two names with an operator right between them are classified as a relationship. -/
theorem ofLine_names (hmem : (operator.toList, token) ∈ relationTokens)
    (ha : Text.isIdent a.toList = true) (hb : Text.isIdent b.toList = true)
    (happart : ¬RunsTogether a operator b) :
    Statement.ofLine (relationText operator (a, none) (b, none) none 0 0).toList =
      .relate (relationship token (a, none) (b, none) none) := by
  have hfind := findToken_names hmem ha hb happart
  have hrelationship : relationship? (relationText operator (a, none) (b, none) none 0 0).toList =
      some (relationship token (a, none) (b, none) none) := by
    refine relationship?_relationText (isOperand_name ha) (isOperand_name hb) isLabel_none ?_
    simpa [toList_relationText_names, toList_leftText, toList_rightText, labelText] using hfind
  rw [toList_relationText_names] at hrelationship ⊢
  exact ofLine_eq_relate (declaration?_names hmem ha hb) (stereotype?_eq_none ha _) hrelationship

/-- Spaces around an operator make no difference where it does not run together with a name. -/
theorem spaces_insignificant (hmem : (operator.toList, token) ∈ relationTokens)
    (ha : Text.isIdent a.toList = true) (hb : Text.isIdent b.toList = true)
    (happart : ¬RunsTogether a operator b) :
    Spells (a ++ operator ++ b) (relationship token (a, none) (b, none) none) ∧
      Spells (a ++ " " ++ operator ++ " " ++ b) (relationship token (a, none) (b, none) none) := by
  have hleft := isOperand_name ha
  have hright := isOperand_name hb
  have htight : relationText operator (a, none) (b, none) none 0 0 = a ++ operator ++ b := by
    simp [relationText, leftText, rightText, labelText]
  have hspaced : relationText operator (a, none) (b, none) none (0 + 1) (0 + 1) =
      a ++ " " ++ operator ++ " " ++ b := by
    simp [relationText, leftText, rightText, labelText]
  rw [← htight, ← hspaced]
  exact ⟨.of_ofLine (ofLine_names hmem ha hb happart)
      (significant?_relationText hleft hright isLabel_none),
    .of_ofLine (ofLine_relationText hmem hleft hright isLabel_none)
      (significant?_relationText hleft hright isLabel_none)⟩

/-- Both names have a letter of an operator beside theirs, but spell none with it. -/
theorem spaces_insignificant_of_letters :
    ("--|>".toList, ⟨.inheritance, false⟩) ∈ relationTokens ∧ ¬RunsTogether "Foo" "--|>" "other" ∧
      Spells "Foo--|>other" ⟨"Foo", "other", .inheritance, none, none, none⟩ ∧
      Spells "Foo --|> other" ⟨"Foo", "other", .inheritance, none, none, none⟩ := by
  have hmem : ("--|>".toList, ⟨.inheritance, false⟩) ∈ relationTokens := by decide
  have happart : ¬RunsTogether "Foo" "--|>" "other" := by decide
  have hspells := spaces_insignificant hmem (a := "Foo") (b := "other") (by decide) (by decide)
    happart
  have htight : "Foo" ++ "--|>" ++ "other" = "Foo--|>other" := by decide +kernel
  have hspaced : "Foo" ++ " " ++ "--|>" ++ " " ++ "other" = "Foo --|> other" := by decide +kernel
  rw [htight, hspaced] at hspells
  exact ⟨hmem, happart, hspells⟩

/-- A name that ends in the letter is cut short before two dashes, and so is one that starts with it
behind them. -/
theorem spaces_told_apart :
    Diagram.parse "classDiagram\nFoo-->Bar" = .ok (.classes ⟨[], []⟩) ∧
      Diagram.parse "classDiagram\nFoo --> Bar" = .ok (.classes
        ⟨[⟨"Bar", none, [], []⟩, ⟨"Foo", none, [], []⟩],
          [⟨"Foo", "Bar", .association, none, none, none⟩]⟩) ∧
      Diagram.parse "classDiagram\nA--other" = .ok (.classes
        ⟨[⟨"A", none, [], []⟩, ⟨"ther", none, [], []⟩],
          [⟨"A", "ther", .aggregation, none, none, none⟩]⟩) ∧
      Diagram.parse "classDiagram\nA -- other" = .ok (.classes
        ⟨[⟨"A", none, [], []⟩, ⟨"other", none, [], []⟩],
          [⟨"A", "other", .link, none, none, none⟩]⟩) :=
  ⟨rfl, rfl, rfl, rfl⟩

end

end TextDiagram.ClassDiagram
