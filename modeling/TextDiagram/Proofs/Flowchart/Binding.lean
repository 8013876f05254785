import TextDiagram.Proofs.Declarations
import TextDiagram.Proofs.Flowchart.Styling
import TextDiagram.Proofs.Keyed
import TextDiagram.Proofs.Text.Words
/-!
# Which style a node gets

Some lines register a style under a name, others give the name of a style to nodes. The two are brought
together only when the style of a node is asked for. So a name may be given before a style is registered
under it or without any, and of several lines about one name or one node the last counts.

Main statements:

* `classDefs_readLines`, `nodeClasses_readLines`: what lines register and what names they give away.
* `Draft.apply_apply_of_isAboutStyles`: a styling line has no effect right after itself.
* `Draft.readLines_apply_comm`: a definition may change places with lines that register nothing.
* `styles_bound_late`: the style of a node in terms of the lines of the text.
-/

namespace TextDiagram

/-- The name of a style that a mention of a node gives to it. -/
def NodeRef.attachment? (ref : NodeRef) : Option (String × String) :=
  ref.className.map (ref.id, ·)

namespace Flowchart

/-! ## What a line says about styles -/

/-- What stands behind the keyword of a line that has all three parts: a word and a text. -/
def parts? (keyword : String) (line : Line) : Option (String × List Char) :=
  if keyword.toList <+: Statement.bare line then
    (Text.secondAndRest? (Statement.bare line)).map fun (word, text) => (String.ofList word, text)
  else none

/-- The style that a line registers and the name for it. A style for one node has a name of its own. -/
def registration? (line : Line) : Option (String × NodeStyle) :=
  ((parts? "classDef " line).map fun (name, text) => (name, NodeStyle.ofText text)).or
    ((parts? "style " line).map fun (id, text) => (Draft.privateStyle id, NodeStyle.ofText text))

/-- The nodes that are listed in a line and the name of a style that it gives to all of them. -/
def list? (line : Line) : Option (List String × String) :=
  if "class ".toList <+: Statement.bare line ∧
      ∀ entry ∈ edgeTokens, ¬entry.1 <:+: Statement.bare line then
    match Text.words (Statement.bare line) with
    | _ :: ids :: name :: _ =>
      some (((Text.pieces ',' ids).filter (!·.isEmpty)).map String.ofList, String.ofList name)
    | _ => none
  else none

/-- The names that a line gives to nodes: to the nodes of a list, to the one node that it has a style
for, or to the nodes that it mentions with a name behind them. -/
def attachments (line : Line) : List (String × String) :=
  (list? line).toList.flatMap (fun (ids, name) => ids.map (·, name)) ++
    (parts? "style " line).toList.map (fun (id, _) => (id, Draft.privateStyle id)) ++
    (Statement.ofLine line).references.filterMap NodeRef.attachment?

namespace Statement

/-- The style that a statement registers. -/
def registration? : Statement → Option (String × NodeStyle)
  | defineStyle name style => some (name, style)
  | styleNode nodeId style => some (Draft.privateStyle nodeId, style)
  | _ => none

/-- The names that a statement gives to nodes. -/
def attachments : Statement → List (String × String)
  | styleNode nodeId _ => [(nodeId, Draft.privateStyle nodeId)]
  | attachStyle nodeIds name => nodeIds.map (·, name)
  | s => s.references.filterMap NodeRef.attachment?

/-- A statement that no styling line stands for: it can only mention nodes with the name of a style
behind them. -/
structure IsUnstyled (s : Statement) : Prop where
  registration : s.registration? = none
  attachments : s.attachments = s.references.filterMap NodeRef.attachment?

theorem isUnstyled_ofNodeLine (line : Line) : (ofNodeLine line).IsUnstyled := by
  unfold ofNodeLine
  split
  · next left style right _ =>
    obtain hfault | ⟨source, target, label, hedge⟩ := fault_or_edge left right style
    · rw [ofEdge_of_fault hfault]
      exact ⟨rfl, rfl⟩
    · rw [hedge]
      exact ⟨rfl, rfl⟩
  · split <;> exact ⟨rfl, rfl⟩

/-- Lines that are not about styles define and attach none. -/
theorem isUnstyled_ofLine {line : Line} (h : ¬IsStyling line) : (ofLine line).IsUnstyled := by
  rw [IsStyling, not_or, not_or] at h
  obtain ⟨hclassDef, hstyle, hclass⟩ := h
  have hstarts : ∀ {opening : String}, (Text.after? opening (bare line)).isSome = true →
      opening.toList <+: bare line := by
    intro opening hsome
    obtain ⟨rest, hrest⟩ := Option.isSome_iff_exists.1 hsome
    exact ⟨rest, (Text.eq_append_of_isPrefixOf? hrest).symm⟩
  rw [ofLine, ofBareLine]
  -- The branches are those of the reader, in its order.
  split
  · exact ⟨rfl, rfl⟩
  split
  · unfold ofBlockLine
    split <;> exact ⟨rfl, rfl⟩
  split
  · next h => exact absurd (hstarts h) hclassDef
  split
  · next h => exact absurd (hstarts h) hstyle
  split
  · next h =>
    refine absurd ⟨hstarts h.1, fun entry hentry hinfix => ?_⟩ hclass
    have hfound := Text.findToken_isSome_iff.2 ⟨entry, hentry, hinfix⟩
    rw [Option.isNone_iff_eq_none.1 h.2] at hfound
    cases hfound
  split
  · exact ⟨rfl, rfl⟩
  · exact isUnstyled_ofNodeLine (bare line)

end Statement

/-- A line does not start in two ways of which neither is the start of the other. -/
theorem not_prefix_other {opening other : String} {line : Line} (h : opening.toList <+: line)
    (hdiffer : ¬opening.toList <+: other.toList ∧ ¬other.toList <+: opening.toList) :
    ¬other.toList <+: line := by
  intro hother
  obtain hprefix | hprefix := List.prefix_or_prefix_of_prefix h hother
  · exact hdiffer.1 hprefix
  · exact hdiffer.2 hprefix

/-- What a line says about styles is what its statement says. -/
theorem registration?_and_attachments_eq (line : Line) :
    registration? line = (Statement.ofLine line).registration? ∧
      attachments line = (Statement.ofLine line).attachments := by
  rw [registration?, attachments, list?, parts?, parts?]
  -- A line starts with at most one of the three keywords.
  by_cases hclassDef : "classDef ".toList <+: Statement.bare line
  · have hstyle : ¬"style ".toList <+: Statement.bare line := not_prefix_other hclassDef (by decide)
    have hclass : ¬"class ".toList <+: Statement.bare line := not_prefix_other hclassDef (by decide)
    rw [if_pos hclassDef, if_neg hstyle, if_neg (fun h => hclass h.1),
      Statement.ofLine_of_classDef hclassDef]
    cases Text.secondAndRest? (Statement.bare line) <;> exact ⟨rfl, rfl⟩
  rw [if_neg hclassDef]
  by_cases hstyle : "style ".toList <+: Statement.bare line
  · have hclass : ¬"class ".toList <+: Statement.bare line := not_prefix_other hstyle (by decide)
    rw [if_pos hstyle, if_neg (fun h => hclass h.1), Statement.ofLine_of_style hstyle]
    cases Text.secondAndRest? (Statement.bare line) <;> exact ⟨rfl, rfl⟩
  rw [if_neg hstyle]
  by_cases hclass : "class ".toList <+: Statement.bare line ∧
      ∀ entry ∈ edgeTokens, ¬entry.1 <:+: Statement.bare line
  · rw [if_pos hclass, Statement.ofLine_of_class hclass.1 hclass.2, Statement.ofClassLine]
    rcases Text.words (Statement.bare line) with _ | ⟨_, _ | ⟨ids, _ | ⟨name, _⟩⟩⟩
    · exact ⟨rfl, rfl⟩
    · exact ⟨rfl, rfl⟩
    · exact ⟨rfl, rfl⟩
    · exact ⟨rfl, by simp [Statement.attachments, Statement.references]⟩
  · have hnot : ¬IsStyling line := by
      rw [IsStyling, not_or, not_or]
      exact ⟨hclassDef, hstyle, hclass⟩
    obtain ⟨hregistration, hattachments⟩ := Statement.isUnstyled_ofLine hnot
    rw [if_neg hclass, hregistration, hattachments]
    exact ⟨rfl, rfl⟩

/-! ## What lines leave behind -/

namespace Draft

/-- A statement registers the style that it defines, if any. -/
theorem classDefs_apply (d : Draft) (s : Statement) : (d.apply s).classDefs =
    s.registration?.toList.foldl (fun kept entry => Keyed.put entry kept) d.classDefs := by
  cases s with
  | closeBlock =>
    show d.close.classDefs = d.classDefs
    unfold close
    split <;> rfl
  | _ => rfl

theorem nodeClasses_mention (d : Draft) (ref : NodeRef) : (d.mention ref).nodeClasses =
    ([ref].filterMap NodeRef.attachment?).foldl (fun kept entry => Keyed.put entry kept)
      d.nodeClasses := by
  rw [mention, List.filterMap_cons, NodeRef.attachment?]
  cases ref.className <;> rfl

/-- A statement attaches styles to nodes in the order in which it names them. -/
theorem nodeClasses_apply (d : Draft) (s : Statement) : (d.apply s).nodeClasses =
    s.attachments.foldl (fun kept entry => Keyed.put entry kept) d.nodeClasses := by
  cases s with
  | closeBlock =>
    show d.close.nodeClasses = d.nodeClasses
    unfold close
    split <;> rfl
  | attachStyle nodeIds name =>
    show nodeIds.foldl (fun known id => Keyed.put (id, name) known) d.nodeClasses =
      (nodeIds.map (·, name)).foldl _ d.nodeClasses
    rw [List.foldl_map]
  | mention ref => exact nodeClasses_mention d ref
  | edge source target label style =>
    -- The source of an edge has its style attached before the target.
    have hpair : [source, target].filterMap NodeRef.attachment? =
        [source].filterMap NodeRef.attachment? ++ [target].filterMap NodeRef.attachment? := by
      rw [← List.filterMap_append]
      rfl
    show ((d.mention source).mention target).nodeClasses =
      ([source, target].filterMap NodeRef.attachment?).foldl _ d.nodeClasses
    rw [hpair, List.foldl_append, ← nodeClasses_mention, ← nodeClasses_mention]
  | _ => rfl

/-- The styles that are registered after some lines are those that the lines register. -/
theorem classDefs_readLines (d : Draft) (lines : List Line) : (d.readLines lines).classDefs =
    (lines.filterMap registration?).foldl (fun kept entry => Keyed.put entry kept)
      d.classDefs := by
  induction lines generalizing d with
  | nil => rfl
  | cons line lines ih =>
    have hline := classDefs_apply d (Statement.ofLine line)
    rw [← (registration?_and_attachments_eq line).1] at hline
    have hlines := ih (d.apply (Statement.ofLine line))
    rw [hline] at hlines
    rw [readLines, List.foldl_cons, ← readLines, hlines, List.filterMap_cons]
    cases registration? line <;> rfl

/-- The names that nodes have after some lines are those that the lines give away. -/
theorem nodeClasses_readLines (d : Draft) (lines : List Line) : (d.readLines lines).nodeClasses =
    (lines.flatMap attachments).foldl (fun kept entry => Keyed.put entry kept) d.nodeClasses := by
  induction lines generalizing d with
  | nil => rfl
  | cons line lines ih =>
    have hline := nodeClasses_apply d (Statement.ofLine line)
    rw [← (registration?_and_attachments_eq line).2] at hline
    have hlines := ih (d.apply (Statement.ofLine line))
    rw [hline] at hlines
    rw [readLines, List.foldl_cons, ← readLines, hlines, List.flatMap_cons, List.foldl_append]

end Draft

/-- The style of a node is the one that was registered last under the name given to it last. -/
theorem styleFor_ofLines (header : Line) (lines : List Line) (nodeId : String) :
    (ofLines header lines).styleFor nodeId = (Keyed.last? (lines.flatMap attachments) nodeId).bind
      (Keyed.last? (lines.filterMap registration?)) := by
  obtain ⟨subgraphs, hfinish⟩ := Reading.exists_finish_eq (Draft.empty.readLines lines)
  have hdefs : (ofLines header lines).classDefs = Keyed.ofList (lines.filterMap registration?) := by
    rw [ofLines, hfinish]
    exact Draft.classDefs_readLines .empty lines
  have hclasses : (ofLines header lines).nodeClasses = Keyed.ofList (lines.flatMap attachments) := by
    rw [ofLines, hfinish]
    exact Draft.nodeClasses_readLines .empty lines
  rw [styleFor, hdefs, hclasses, Keyed.value?_ofList]
  exact congrArg _ (funext (Keyed.value?_ofList _))

/-! ## Lines that are repeated and lines that are moved -/

namespace Draft

/-- What is about styles only has no further effect right after itself. -/
theorem apply_apply_of_isAboutStyles {s : Statement} (h : s.IsAboutStyles) (d : Draft) :
    (d.apply s).apply s = d.apply s := by
  cases s with
  | defineStyle name style =>
    have hput := Keyed.put_put_self (name, style) d.classDefs
    simp only [apply, hput]
  | styleNode nodeId style =>
    have hdefs := Keyed.put_put_self (privateStyle nodeId, style) d.classDefs
    have hclasses := Keyed.put_put_self (nodeId, privateStyle nodeId) d.nodeClasses
    simp only [apply, hdefs, hclasses]
  | attachStyle nodeIds name =>
    have hclasses := Keyed.foldl_put_foldl_put nodeIds name d.nodeClasses
    simp only [List.foldl_map] at hclasses
    simp only [apply, hclasses]
  | skip => rfl
  | closeBlock | openBlock | mention | edge => cases h

/-- A definition may stand before or after whatever registers nothing. -/
theorem apply_defineStyle_comm {s : Statement} (h : s.registration? = none) (name : String)
    (style : NodeStyle) (d : Draft) :
    (d.apply (.defineStyle name style)).apply s = (d.apply s).apply (.defineStyle name style) := by
  cases s with
  | defineStyle | styleNode => cases h
  | closeBlock =>
    rcases d with ⟨nodes, edges, openBlocks, subgraphs, classDefs, nodeClasses⟩
    cases openBlocks <;> rfl
  | openBlock | attachStyle | mention | edge | skip => rfl

/-- A definition may be read before or after lines that define no style. -/
theorem readLines_apply_comm {line : Line} (hline : "classDef ".toList <+: Statement.bare line)
    {passed : List Line} (hpassed : ∀ other ∈ passed, registration? other = none) (d : Draft) :
    (d.apply (Statement.ofLine line)).readLines passed =
      (d.readLines passed).apply (Statement.ofLine line) := by
  rw [Statement.ofLine_of_classDef hline]
  cases Text.secondAndRest? (Statement.bare line) with
  | none => rfl
  | some parts =>
    -- The definition is moved past one line after the other.
    induction passed generalizing d with
    | nil => rfl
    | cons other passed ih =>
      rw [List.forall_mem_cons, (registration?_and_attachments_eq other).1] at hpassed
      have hother := apply_defineStyle_comm hpassed.1 (String.ofList parts.1)
        (NodeStyle.ofText parts.2) d
      have hstep := ih hpassed.2 (d.apply (Statement.ofLine other))
      rw [readLines, List.foldl_cons, ← readLines]
      refine (congrArg (readLines · passed) hother).trans ?_
      exact hstep

/-- A definition may be moved over lines that register nothing. -/
theorem readLines_moved {line : Line} (hline : "classDef ".toList <+: Statement.bare line)
    {passed : List Line} (hpassed : ∀ other ∈ passed, registration? other = none)
    (after : List Line) (d : Draft) :
    d.readLines (line :: (passed ++ after)) = d.readLines (passed ++ line :: after) := by
  have hcomm := readLines_apply_comm hline hpassed d
  simp only [readLines, List.foldl_cons, List.foldl_append] at hcomm ⊢
  rw [hcomm]

/-- A styling line read twice does what it does once. -/
theorem readLines_repeated {line : Line} (h : IsStyling line) (after : List Line) (d : Draft) :
    d.readLines (line :: line :: after) = d.readLines (line :: after) := by
  have htwice := apply_apply_of_isAboutStyles (Statement.isAboutStyles_ofLine h) d
  simp only [readLines, List.foldl_cons, htwice]

end Draft

/-! ## Styling lines in a text -/

theorem Statement.bare_isPrefix {line : Line} (h : Text.trim line = line) : bare line <+: line := by
  have hdrop : Text.dropEndWhile (· == ';') line <+: line := by
    rw [← List.reverse_suffix, Text.dropEndWhile, List.reverse_reverse]
    exact List.dropWhile_suffix _
  rw [bare]
  cases hstart : Text.dropEndWhile (· == ';') line with
  | nil => exact List.nil_prefix
  | cons c rest =>
    -- What is left starts as the line does, and so not with a blank.
    rw [hstart] at hdrop
    obtain ⟨others, rfl⟩ := hdrop
    have hc : Text.isBlank c = false := (Text.trim_eq_self_iff.1 h).1 c rfl
    rw [Text.trim, Text.trimStart_cons hc]
    exact (Text.isPrefix_trimEnd _).trans (List.prefix_append _ others)

/-- A line that starts with a word other than the names of the kinds of diagrams is read below the
header. -/
theorem significant?_of_word {word : List Char} {line : Line} (h : word ++ [' '] <+: Text.trim line)
    (hword : word ≠ [] ∧ ∀ c ∈ word, Text.isBlank c = false ∧ c ≠ '%')
    (hkind : DiagramKind.ofKeyword? (String.ofList word) = none) :
    Text.significant? line = some (Text.trim line) ∧
      DiagramKind.ofKeyword? (String.ofList (Text.firstWord (Text.trim line))) = none := by
  obtain ⟨rest, hrest⟩ := h
  obtain ⟨hne, hchars⟩ := hword
  obtain ⟨c, others, rfl⟩ := List.exists_cons_of_ne_nil hne
  have hcomment : Text.isComment (Text.trim line) = false := by
    rw [Text.isComment, ← Bool.not_eq_true, List.isPrefixOf_iff_prefix, ← hrest]
    intro hprefix
    exact (hchars c List.mem_cons_self).2 (List.cons_prefix_cons.1 hprefix).1.symm
  constructor
  · rw [Text.significant?, hcomment, Bool.or_false, ← hrest]
    rfl
  · have hfirst := Text.firstWord_append (fun c hc => (hchars c hc).1) hne rest
    rw [← hrest, List.append_assoc, List.singleton_append, hfirst]
    exact hkind

theorem significant?_of_isStyling {line : Line} (h : IsStyling (Text.trim line)) :
    Text.significant? line = some (Text.trim line) ∧
      DiagramKind.ofKeyword? (String.ofList (Text.firstWord (Text.trim line))) = none := by
  have hbare := Statement.bare_isPrefix (Text.trim_trim line)
  obtain hclassDef | hstyle | ⟨hclass, -⟩ := h
  · have hword : "classDef".toList ++ [' '] <+: Text.trim line := hclassDef.trans hbare
    exact significant?_of_word hword (by decide) (by decide)
  · have hword : "style".toList ++ [' '] <+: Text.trim line := hstyle.trans hbare
    exact significant?_of_word hword (by decide) (by decide)
  · have hword : "class".toList ++ [' '] <+: Text.trim line := hclass.trans hbare
    exact significant?_of_word hword (by decide) (by decide)

theorem registration?_of_mem_significant {passed : List Line}
    (h : ∀ other ∈ passed, registration? (Text.trim other) = none) :
    ∀ other ∈ Text.significant passed, registration? other = none := by
  intro kept hkept
  obtain ⟨other, hother, hsignificant⟩ := List.mem_filterMap.1 hkept
  have hnone := h other hother
  unfold Text.significant? at hsignificant
  split at hsignificant
  · cases hsignificant
  · rwa [← Option.some.inj hsignificant]

/-- Lines below the header may be replaced if the replacement makes the same of every draft. -/
theorem parse_congr {text t : String} {chart : Flowchart} {before after after' : List Line}
    (h : Diagram.parse text = .ok (.flowchart chart))
    (hsplit : Text.splitLines text.toList = before ++ after)
    (hheader : Text.significant before ≠ [])
    (hsame : ∀ d : Draft, d.readLines (Text.significant after) =
      d.readLines (Text.significant after'))
    (ht : Text.splitLines t.toList = before ++ after') :
    Diagram.parse t = .ok (.flowchart chart) := by
  obtain ⟨s, hs, hkind, hfinish⟩ := Reading.exists_of_parse h hsplit hheader
  cases s with
  | flowchart direction d =>
    rw [Reading.parse_of_splitLines hs ht, ← hfinish, Reading.readLines_flowchart,
      Reading.readLines_flowchart, hsame]
  | _ => cases hkind

/-- Names are given to nodes and styles to names in any order, and the last word counts. The style of a
node is that which was registered last under the name given to the node last; it has none if it was
given no name, or if no style was registered under the name. So a styling line may be repeated, and a
definition may be moved over lines that register nothing, as long as the header stays the first line:
the same chart is read. -/
theorem styles_bound_late {text : String} {chart : Flowchart}
    (h : Diagram.parse text = .ok (.flowchart chart)) :
    (∀ nodeId, chart.styleFor nodeId =
      (Keyed.last? ((Text.significantLines text.toList).tail.flatMap attachments) nodeId).bind
        (Keyed.last? ((Text.significantLines text.toList).tail.filterMap registration?))) ∧
    (∀ before line after, ∀ t : String,
      Text.splitLines text.toList = before ++ line :: after → IsStyling (Text.trim line) →
      Text.splitLines t.toList = before ++ line :: line :: after →
      Diagram.parse t = .ok (.flowchart chart)) ∧
    ∀ before line passed after, ∀ t : String,
      "classDef ".toList <+: Statement.bare (Text.trim line) →
      (∀ other ∈ passed, registration? (Text.trim other) = none) →
      (Text.splitLines text.toList = before ++ line :: (passed ++ after) →
        Text.splitLines t.toList = before ++ (passed ++ line :: after) →
        Diagram.parse t = .ok (.flowchart chart)) ∧
      (Text.splitLines text.toList = before ++ (passed ++ line :: after) →
        Text.significant before ≠ [] →
        Text.splitLines t.toList = before ++ line :: (passed ++ after) →
        Diagram.parse t = .ok (.flowchart chart)) := by
  refine ⟨fun nodeId => ?_, fun before line after t hsplit hline ht => ?_,
    fun before line passed after t hline hpassed => ?_⟩
  · obtain ⟨header, lines, hlines, -, rfl⟩ := Diagram.parse_eq_ok_flowchart_iff.1 h
    rw [Text.significantLines_eq, hlines]
    exact styleFor_ofLines header lines nodeId
  · obtain ⟨hsignificant, hkeyword⟩ := significant?_of_isStyling hline
    have hheader := Reading.significant_ne_nil_of_parse h hsplit hsignificant hkeyword
    -- The text differs in the repeated line only.
    refine parse_congr h hsplit hheader (fun d => ?_) ht
    rw [Text.significant_cons, Text.significant_cons, Text.significant_cons, hsignificant]
    exact (Draft.readLines_repeated hline (Text.significant after) d).symm
  · have hstyling : IsStyling (Text.trim line) := .inl hline
    obtain ⟨hsignificant, hkeyword⟩ := significant?_of_isStyling hstyling
    -- Moving the definition changes no draft, whatever lines come before it.
    have hmoved : ∀ d : Draft, d.readLines (Text.significant (line :: (passed ++ after))) =
        d.readLines (Text.significant (passed ++ line :: after)) := by
      intro d
      rw [Text.significant_cons, Text.significant_append, Text.significant_append,
        Text.significant_cons, hsignificant]
      exact Draft.readLines_moved hline (registration?_of_mem_significant hpassed)
        (Text.significant after) d
    constructor
    · intro hsplit ht
      have hheader := Reading.significant_ne_nil_of_parse h hsplit hsignificant hkeyword
      exact parse_congr h hsplit hheader hmoved ht
    · intro hsplit hheader ht
      exact parse_congr h hsplit hheader (fun d => (hmoved d).symm) ht

/-- Two nodes are given a name under which nothing is registered, one of them another one afterwards;
then a line is repeated, and a definition is moved up and down. -/
theorem styles_bound_late_in_a_chart :
    ∃ chart : Flowchart,
      Diagram.parse "flowchart TD\nclass A,B warm\nclassDef hot fill:#f00\nA:::hot --> B" =
        .ok (.flowchart chart) ∧
      chart.styleFor "A" = some ⟨some "#f00", none, none, none⟩ ∧ chart.styleFor "B" = none ∧
      Diagram.parse
        "flowchart TD\nclass A,B warm\nclass A,B warm\nclassDef hot fill:#f00\nA:::hot --> B" =
          .ok (.flowchart chart) ∧
      Diagram.parse "flowchart TD\nclass A,B warm\nA:::hot --> B\nclassDef hot fill:#f00" =
        .ok (.flowchart chart) ∧
      Diagram.parse "flowchart TD\nclassDef hot fill:#f00\nclass A,B warm\nA:::hot --> B" =
        .ok (.flowchart chart) := by
  have hparse : Diagram.parse
      "flowchart TD\nclass A,B warm\nclassDef hot fill:#f00\nA:::hot --> B" =
        .ok (.flowchart ⟨.topDown, [⟨"A", "A", .rectangle⟩, ⟨"B", "B", .rectangle⟩],
          [⟨"A", "B", none, .solid⟩], [], [("hot", ⟨some "#f00", none, none, none⟩)],
          [("A", "hot"), ("B", "warm")]⟩) := rfl
  obtain ⟨hstyle, hrepeat, hmove⟩ := styles_bound_late hparse
  have hrepeated := hrepeat ["flowchart TD".toList] "class A,B warm".toList
    ["classDef hot fill:#f00".toList, "A:::hot --> B".toList]
    "flowchart TD\nclass A,B warm\nclass A,B warm\nclassDef hot fill:#f00\nA:::hot --> B"
    (by decide) (by decide) (by decide)
  have hdown := (hmove ["flowchart TD".toList, "class A,B warm".toList]
    "classDef hot fill:#f00".toList ["A:::hot --> B".toList] []
    "flowchart TD\nclass A,B warm\nA:::hot --> B\nclassDef hot fill:#f00"
    (by decide) (by decide)).1 (by decide) (by decide)
  have hup := (hmove ["flowchart TD".toList] "classDef hot fill:#f00".toList
    ["class A,B warm".toList] ["A:::hot --> B".toList]
    "flowchart TD\nclassDef hot fill:#f00\nclass A,B warm\nA:::hot --> B"
    (by decide) (by decide)).2 (by decide) (by decide) (by decide)
  exact ⟨_, hparse, hstyle "A", hstyle "B", hrepeated, hdown, hup⟩

end Flowchart

end TextDiagram
