import TextDiagram.Proofs.Reading
import TextDiagram.Proofs.Text.Cut
import TextDiagram.Proofs.Text.Ident
import TextDiagram.Proofs.Text.Quoted
/-!
# Descriptions of states

A state is described in quotes before its id, after the keyword `state`, or after its id and a colon.
The description is read back whatever it says: colons, brackets and keywords in it mean nothing. There
are two provisos. An arrow makes any line that of a transition, also from within a description, and a
line that starts with `direction` and a space is about the direction. A described state that is written
so is skipped; it does not turn into anything else.

Main statements:

* `ofLine_append`: a line with a sign in front of every dash is no transition.
* `ofLine_definition`, `ofLine_remark`: what a line with a description says.
* `descriptions_read_back`: the diagram of a text with one such line.
-/

namespace TextDiagram.StateDiagram

/-! ## Lines with an arrow -/

/-- A text with a sign that belongs to no id is no end of a transition. -/
theorem endpoint?_eq_none {t : List Char} {c : Char} (hmem : c ∈ t)
    (hblank : Text.isBlank c = false) (hident : Text.isIdentChar c = false)
    (hmarker : c ∉ StateNode.markerId.toList) : Statement.endpoint? t = none := by
  have hkept : c ∈ Text.trim t := Text.mem_trim hmem hblank
  rw [Statement.endpoint?, if_neg]
  rw [Bool.or_eq_true, beq_iff_eq]
  rintro (hid | hid)
  · rw [Text.isIdentChar_of_mem hid c hkept] at hident
    cases hident
  · exact hmarker (hid ▸ hkept)

/-- A line is no transition if a sign that belongs to no id stands in front of every dash. An arrow makes
it a line that is skipped then. -/
theorem ofLine_append {opening rest : List Char} {c : Char} (hdash : '-' ∉ opening)
    (hmem : c ∈ opening) (hblank : Text.isBlank c = false) (hident : Text.isIdentChar c = false)
    (hmarker : c ∉ StateNode.markerId.toList)
    (hdirection : Text.after? "direction " (opening ++ rest) = none) :
    Statement.ofLine (opening ++ rest) =
      if Text.occurs "-->".toList rest then .skip
      else (((Statement.defined? (opening ++ rest)).or (Statement.declared? (opening ++ rest))).or
        (Statement.described? (opening ++ rest))).getD .skip := by
  have hcut : Text.cut "-->".toList (opening ++ rest) =
      (Text.cut "-->".toList rest).map fun parts => (opening ++ parts.1, parts.2) :=
    Text.cut_append_of_not_mem hdash
  rw [Statement.ofLine, hdirection, hcut, Text.occurs]
  cases Text.cut "-->".toList rest with
  | none => rfl
  | some parts =>
    -- The part before the arrow has the sign in it, so it is no end of a transition.
    have hsource : Statement.endpoint? (opening ++ parts.1) = none :=
      endpoint?_eq_none (List.mem_append_left _ hmem) hblank hident hmarker
    have hmove : Statement.transition? (opening ++ parts.1) parts.2 = none := by
      rw [Statement.transition?, hsource]
      rfl
    simp only [Option.map_some, hmove]
    rfl

/-! ## The two lines of a description -/

/-- A description as it can stand between quotes or at the end of a line. -/
structure IsDescription (description : List Char) : Prop where
  ne_nil : description ≠ []
  trimmed : Text.trim description = description
  quote : '"' ∉ description
  line : ∀ c ∈ description, Text.isLineBreak c = false

/-- The line `state "description" as id`. -/
def definitionLine (id description : List Char) : Line :=
  "state ".toList ++ (Text.quote description ++ (" as ".toList ++ id))

/-- The line `id : description`. -/
def remarkLine (id description : List Char) : Line := id ++ (" : ".toList ++ description)

section

variable {id description : List Char} (hid : Text.isIdent id = true)

include hid

/-- An arrow in a definition can only stand in the description. -/
theorem occurs_arrow_append :
    Text.occurs "-->".toList (description ++ (['"'] ++ (" as ".toList ++ id))) =
      Text.occurs "-->".toList description := by
  -- Behind the closing quote there is no dash, and no arrow reaches across the quote.
  have hafter : ¬"-->".toList <:+: " as ".toList ++ id := by
    intro hinfix
    have hdash : '-' ∈ " as ".toList ++ id := hinfix.subset (by decide)
    obtain hdash | hdash := List.mem_append.1 hdash
    · exact absurd hdash (by decide)
    · exact absurd (Text.isIdentChar_of_mem hid _ hdash) (by decide)
  have hquote : ['"'].Disjoint "-->".toList := List.singleton_disjoint.2 (by decide)
  rw [Bool.eq_iff_iff, Text.occurs, Text.occurs, Text.cut_isSome_iff, Text.cut_isSome_iff,
    Text.infix_append_iff_of_disjoint (by decide) hquote, or_iff_left hafter]

/-- A definition is read back if the description has no quotes. -/
theorem defined?_definitionLine (hquote : '"' ∉ description) :
    Statement.defined? (definitionLine id description) =
      some (.define (String.ofList id) (String.ofList description)) := by
  have hstate : Text.afterKeyword? "state" (definitionLine id description) =
      some (Text.quote description ++ (" as ".toList ++ id)) := rfl
  have has : Text.afterKeyword? "as" (Text.trimStart (" as ".toList ++ id).tail) =
      some (Text.trimStart id) := rfl
  have hstart : Text.trimStart id = id := by
    obtain ⟨c, rest, rfl⟩ := List.exists_cons_of_ne_nil (Text.ne_nil_of_isIdent hid)
    exact Text.trimStart_cons
      (Text.isBlank_of_isIdentChar (Text.isIdentChar_of_mem hid c List.mem_cons_self)) rest
  have hread : Statement.defined? (definitionLine id description) =
      if Text.isIdent (Text.trimStart id) then
        some (.define (String.ofList (Text.trimStart id)) (String.ofList description))
      else none := by
    rw [Statement.defined?, hstate, Option.bind_some, Text.quoted?_quote hquote]
    rfl
  rw [hread, hstart, if_pos hid]

/-- A state with its description in quotes is defined, unless there is an arrow in it. -/
theorem ofLine_definition (hquote : '"' ∉ description) :
    Statement.ofLine (definitionLine id description) =
      if Text.occurs "-->".toList description then .skip
      else .define (String.ofList id) (String.ofList description) := by
  have hline : definitionLine id description =
      "state \"".toList ++ (description ++ (['"'] ++ (" as ".toList ++ id))) := by
    simp [definitionLine, Text.quote]
  have hsign : '"' ∈ "state \"".toList := by decide
  have hread := defined?_definitionLine hid hquote
  rw [hline] at hread ⊢
  rw [ofLine_append (by decide) hsign (by decide) (by decide) (by decide) rfl, hread,
    occurs_arrow_append hid]
  rfl

/-- An id, a space and a colon are no state with the keyword, also if the id is the keyword. -/
theorem eq_cons_of_afterKeyword?_remarkLine {after : List Char}
    (h : Text.afterKeyword? "state" (remarkLine id description) = some after) :
    after = ':' :: ' ' :: description := by
  obtain ⟨c, rest, hline, hc, rfl⟩ := Text.eq_append_of_afterKeyword? h
  have hends : Text.EndsIdent (c :: rest) := by
    refine Text.endsIdent_cons ?_ rest
    rw [← Bool.not_eq_true]
    intro hident
    rw [Text.isBlank_of_isIdentChar hident] at hc
    cases hc
  obtain ⟨-, hrest⟩ := Text.eq_of_append_eq_append hid (by decide)
    (Text.endsIdent_cons (c := ' ') (by decide) (':' :: ' ' :: description)) hends hline
  obtain ⟨-, rfl⟩ := List.cons.inj hrest
  rfl

/-- A remark is read back if it is trimmed and not empty. -/
theorem described?_remarkLine (hne : description ≠ []) (htrim : Text.trim description = description) :
    Statement.described? (remarkLine id description) =
      some (.describe (String.ofList id) (String.ofList description)) := by
  have hname : Text.ident? (remarkLine id description) =
      some (id, " : ".toList ++ description) :=
    Text.ident?_append hid (Text.endsIdent_cons (c := ' ') (by decide) (':' :: ' ' :: description))
  have hcolon : Text.trimStart (" : ".toList ++ description) = ':' :: ' ' :: description := rfl
  have htext : Text.trimmed? (' ' :: description) = some description := by
    rw [Text.trimmed?, Text.trim_cons (by decide), htrim]
    simp [hne]
  simp only [Statement.described?, hname, Option.bind_some, hcolon, htext, Option.map_some]

/-- A state with its description behind it is described, unless there is an arrow in the description
or the line is about the direction. -/
theorem ofLine_remark (hne : description ≠ []) (htrim : Text.trim description = description) :
    Statement.ofLine (remarkLine id description) =
      if id = "direction".toList ∨ Text.occurs "-->".toList description = true then .skip
      else .describe (String.ofList id) (String.ofList description) := by
  by_cases hdirection : id = "direction".toList
  · subst hdirection
    rw [if_pos (.inl rfl)]
    rfl
  · have hline : remarkLine id description = (id ++ " : ".toList) ++ description := by
      rw [remarkLine, List.append_assoc]
    have hdash : '-' ∉ id ++ " : ".toList := by
      rw [List.mem_append]
      rintro (hmem | hmem)
      · exact absurd (Text.isIdentChar_of_mem hid _ hmem) (by decide)
      · exact absurd hmem (by decide)
    have hsign : ':' ∈ id ++ " : ".toList := List.mem_append_right _ (by decide)
    -- The line starts with `direction ` only if that is the id.
    have hnone : Text.after? "direction " (remarkLine id description) = none := by
      have hkeyword : Text.isIdent "direction".toList = true := by decide
      rw [Text.after?, Text.isPrefixOf?_eq_none_iff]
      exact Text.not_keyword_prefix (c := ':') (n := 1) hkeyword hid (by decide) (by decide)
        (.inr hdirection) (' ' :: description)
    -- A state called `state` is no keyword here: a colon follows it, no quote and no name.
    have hdefined : Statement.defined? (remarkLine id description) = none := by
      cases hstate : Text.afterKeyword? "state" (remarkLine id description) with
      | none => rw [Statement.defined?, hstate, Option.bind_none]
      | some after =>
        rw [Statement.defined?, hstate, eq_cons_of_afterKeyword?_remarkLine hid hstate]
        rfl
    have hdeclared : Statement.declared? (remarkLine id description) = none := by
      cases hstate : Text.afterKeyword? "state" (remarkLine id description) with
      | none => rw [Statement.declared?, hstate, Option.bind_none]
      | some after =>
        rw [Statement.declared?, hstate, eq_cons_of_afterKeyword?_remarkLine hid hstate]
        rfl
    have hread := described?_remarkLine hid hne htrim
    rw [hline] at hnone hdefined hdeclared hread ⊢
    rw [ofLine_append hdash hsign (by decide) (by decide) (by decide) hnone, hdefined, hdeclared,
      hread]
    exact if_congr (or_iff_right hdirection).symm rfl rfl

/-- A definition is significant and stays as it is. -/
theorem significant?_definitionLine :
    Text.significant? (definitionLine id description) = some (definitionLine id description) := by
  have hline : definitionLine id description =
      "state".toList ++ ([' '] ++ Text.quote description ++ " as ".toList ++ id) := by
    simp [definitionLine]
  rw [hline]
  exact Text.significant?_of_trim_eq (by decide) (Text.trim_append_append (by decide) _
    (Text.ne_nil_of_isIdent hid) (Text.trim_of_isIdent hid))

/-- A remark is significant and stays as it is. -/
theorem significant?_remarkLine (hne : description ≠ [])
    (htrim : Text.trim description = description) :
    Text.significant? (remarkLine id description) = some (remarkLine id description) :=
  Text.significant?_of_trim_eq hid (Text.trim_append_append hid _ hne htrim)

end

/-! ## Texts with one description -/

/-- The text `state "description" as id`. -/
def definitionText (id description : String) : String :=
  "state \"" ++ description ++ "\" as " ++ id

/-- The text `id : description`. -/
def remarkText (id description : String) : String := id ++ " : " ++ description

/-- The characters of a definition. -/
theorem toList_definitionText (id description : String) :
    (definitionText id description).toList = definitionLine id.toList description.toList := by
  simp [definitionText, definitionLine, Text.quote]

/-- The characters of a remark. -/
theorem toList_remarkText (id description : String) :
    (remarkText id description).toList = remarkLine id.toList description.toList := by
  simp [remarkText, remarkLine]

section

variable {id description header : String}

/-- A definition is one line. -/
theorem not_isLineBreak_of_mem_definitionText (hid : Text.isIdent id.toList = true)
    (h : IsDescription description.toList) :
    ∀ c ∈ (definitionText id description).toList, Text.isLineBreak c = false := by
  rw [toList_definitionText]
  simp only [definitionLine, Text.quote, List.forall_mem_append, List.forall_mem_cons]
  exact ⟨by decide, ⟨by decide, h.line, by decide, List.forall_mem_nil _⟩, by decide,
    Text.not_isLineBreak_of_mem hid⟩

/-- A remark is one line. -/
theorem not_isLineBreak_of_mem_remarkText (hid : Text.isIdent id.toList = true)
    (h : IsDescription description.toList) :
    ∀ c ∈ (remarkText id description).toList, Text.isLineBreak c = false := by
  rw [toList_remarkText]
  simp only [remarkLine, List.forall_mem_append]
  exact ⟨Text.not_isLineBreak_of_mem hid, by decide, h.line⟩

/-- A diagram of a header and one more line. -/
theorem parse_append_of_ofLine
    (hheader : Reading.ofText header = .ok (.states ⟨[], [], .topDown⟩)) {line : String}
    (hline : ∀ c ∈ line.toList, Text.isLineBreak c = false)
    (hsignificant : Text.significant? line.toList = some line.toList) {statement : Statement}
    (hread : Statement.ofLine line.toList = statement) :
    Diagram.parse (header ++ "\n" ++ line) =
      .ok (Reading.states (Statement.apply ⟨[], [], .topDown⟩ statement)).finish := by
  rw [Reading.parse_append_line hheader hline hsignificant, Reading.readLine, hread]

variable (hheader : Reading.ofText header = .ok (.states ⟨[], [], .topDown⟩))
  (hid : Text.isIdent id.toList = true) (h : IsDescription description.toList)

include hheader hid h

/-- What a diagram with one definition shows. -/
theorem parse_definitionText : Diagram.parse (header ++ "\n" ++ definitionText id description) =
    .ok (.states ⟨if Text.occurs "-->".toList description.toList then []
      else [⟨id, id, some description⟩], [], .topDown⟩) := by
  have hsignificant : Text.significant? (definitionText id description).toList =
      some (definitionText id description).toList := by
    rw [toList_definitionText, significant?_definitionLine hid]
  have hline := not_isLineBreak_of_mem_definitionText hid h
  have hread : Statement.ofLine (definitionText id description).toList =
      if Text.occurs "-->".toList description.toList then .skip else .define id description := by
    rw [toList_definitionText, ofLine_definition hid h.quote, String.ofList_toList,
      String.ofList_toList]
  split at hread
  · next harrow =>
    rw [if_pos harrow, parse_append_of_ofLine hheader hline hsignificant hread]
    rfl
  · next harrow =>
    rw [if_neg harrow, parse_append_of_ofLine hheader hline hsignificant hread]
    rfl

/-- What a diagram with one remark shows. -/
theorem parse_remarkText : Diagram.parse (header ++ "\n" ++ remarkText id description) =
    .ok (.states ⟨if id = "direction" ∨ Text.occurs "-->".toList description.toList = true then []
      else [⟨id, id, some description⟩], [], .topDown⟩) := by
  have hsignificant : Text.significant? (remarkText id description).toList =
      some (remarkText id description).toList := by
    rw [toList_remarkText, significant?_remarkLine hid h.ne_nil h.trimmed]
  have hline := not_isLineBreak_of_mem_remarkText hid h
  have hread : Statement.ofLine (remarkText id description).toList =
      if id = "direction" ∨ Text.occurs "-->".toList description.toList = true then .skip
      else .describe id description := by
    rw [toList_remarkText, ofLine_remark hid h.ne_nil h.trimmed, String.ofList_toList,
      String.ofList_toList]
    simp only [String.toList_inj]
  -- An id is a name, so it is not the marker of start and end.
  have hlabel : StateNode.named id = ⟨id, id, none⟩ := by
    have hmarker : id ≠ StateNode.markerId := by
      rintro rfl
      exact absurd hid (by decide)
    rw [StateNode.named, if_neg hmarker]
  have happly : Statement.apply ⟨[], [], .topDown⟩ (.describe id description) =
      ⟨[⟨id, id, some description⟩], [], .topDown⟩ := by
    simp [Statement.apply, Statement.ensured, Keyed.ensure, Keyed.has, Keyed.modify, Keyed.key,
      hlabel]
  split at hread
  · next hproviso =>
    rw [if_pos hproviso, parse_append_of_ofLine hheader hline hsignificant hread]
    rfl
  · next hproviso =>
    rw [if_neg hproviso, parse_append_of_ofLine hheader hline hsignificant hread, happly]
    rfl

/-- Below the header, a line with the description of a state adds no transition and no state but that
one, whatever the description says. It adds the state with the very description, unless an arrow
stands in the description or the line starts like one that gives the direction. -/
theorem descriptions_read_back :
    (∀ line ∈ [definitionText id description, remarkText id description],
      ∃ states, states.Sublist [⟨id, id, some description⟩] ∧
        Diagram.parse (header ++ "\n" ++ line) = .ok (.states ⟨states, [], .topDown⟩)) ∧
      (¬"-->".toList <:+: description.toList →
        Diagram.parse (header ++ "\n" ++ definitionText id description) =
            .ok (.states ⟨[⟨id, id, some description⟩], [], .topDown⟩) ∧
          (id ≠ "direction" →
            Diagram.parse (header ++ "\n" ++ remarkText id description) =
              .ok (.states ⟨[⟨id, id, some description⟩], [], .topDown⟩))) := by
  have hdefinition := parse_definitionText hheader hid h
  have hremark := parse_remarkText hheader hid h
  -- Skipped or not, the line adds nothing but the state.
  have hsublist : ∀ (p : Prop) [Decidable p],
      (if p then [] else [(⟨id, id, some description⟩ : StateNode)]).Sublist
        [⟨id, id, some description⟩] := by
    intro p _
    split
    · exact List.nil_sublist _
    · exact List.Sublist.refl _
  have hoccurs : ¬"-->".toList <:+: description.toList →
      ¬Text.occurs "-->".toList description.toList = true :=
    mt Text.cut_isSome_iff.1
  refine ⟨?_, fun harrow => ⟨?_, fun hdirection => ?_⟩⟩
  · rw [List.forall_mem_cons, List.forall_mem_singleton]
    exact ⟨⟨_, hsublist _, hdefinition⟩, ⟨_, hsublist _, hremark⟩⟩
  · rw [hdefinition, if_neg (hoccurs harrow)]
  · rw [hremark, if_neg (not_or_intro hdirection (hoccurs harrow))]

end

/-- A state that is called like a keyword, with a description full of signs and keywords. -/
theorem descriptions_read_back_of_keywords :
    Text.isIdent "state".toList = true ∧ IsDescription "as [*]: -> \x7b state x".toList ∧
      Diagram.parse "stateDiagram-v2\nstate \"as [*]: -> \x7b state x\" as state" =
        .ok (.states ⟨[⟨"state", "state", some "as [*]: -> \x7b state x"⟩], [], .topDown⟩) ∧
      Diagram.parse "stateDiagram-v2\nstate : as [*]: -> \x7b state x" =
        .ok (.states ⟨[⟨"state", "state", some "as [*]: -> \x7b state x"⟩], [], .topDown⟩) := by
  have hid : Text.isIdent "state".toList = true := by decide
  have h : IsDescription "as [*]: -> \x7b state x".toList :=
    ⟨by decide, by decide, by decide, by decide⟩
  have hheader : Reading.ofText "stateDiagram-v2" = .ok (.states ⟨[], [], .topDown⟩) := rfl
  have harrow : ¬"-->".toList <:+: "as [*]: -> \x7b state x".toList :=
    Text.cut_eq_none_iff.1 (by decide)
  have hread := descriptions_read_back hheader hid h
  have hdefinition : "stateDiagram-v2" ++ "\n" ++ definitionText "state" "as [*]: -> \x7b state x" =
      "stateDiagram-v2\nstate \"as [*]: -> \x7b state x\" as state" := by decide +kernel
  have hremark : "stateDiagram-v2" ++ "\n" ++ remarkText "state" "as [*]: -> \x7b state x" =
      "stateDiagram-v2\nstate : as [*]: -> \x7b state x" := by decide +kernel
  rw [hdefinition, hremark] at hread
  obtain ⟨hdefined, hdescribed⟩ := hread.2 harrow
  exact ⟨hid, h, hdefined, hdescribed (by decide)⟩

/-- Arrows in descriptions, and a state that is called like the keyword of the direction. -/
theorem descriptions_skipped :
    Diagram.parse "stateDiagram\nstate \"a --> b\" as s" = .ok (.states ⟨[], [], .topDown⟩) ∧
      Diagram.parse "stateDiagram\ns : a --> b" = .ok (.states ⟨[], [], .topDown⟩) ∧
      Diagram.parse "stateDiagram\ndirection : x" = .ok (.states ⟨[], [], .topDown⟩) :=
  ⟨rfl, rfl, rfl⟩

end TextDiagram.StateDiagram
