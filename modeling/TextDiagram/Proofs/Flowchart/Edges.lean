import TextDiagram.Proofs.Flowchart.Mentions
import TextDiagram.Proofs.Flowchart.Nesting
/-!
# Edges as they are written

An edge with a label is written as its source, its operator, the label between two bars and its target.
What is written so is read back with two provisos. A source named like a keyword must not stand before
a space, for such a line says something else. And no operator that is looked for before that of the
edge may stand in the label, as operators are looked for in the whole line.

Main statements:

* `findToken_edgeLine`: which operator is found in the line, and where.
* `ofLine_edgeLine`: what the line says.
* `parse_labelled_edge`: what the line adds to the flowchart of a text.
-/

namespace TextDiagram

/-- The operator of an edge. -/
def EdgeStyle.operator : EdgeStyle → String
  | .thick => "==>"
  | .dotted => "-.->"
  | .invisible => "~~~"
  | .solid => "-->"

namespace Flowchart

/-! ## The table of operators -/

/-- Every style has its operator among the tokens. -/
theorem mem_edgeTokens (style : EdgeStyle) : (style.operator.toList, style) ∈ edgeTokens := by
  cases style <;> decide

/-- No token is listed twice. -/
theorem nodup_edgeTokens : (edgeTokens.map Prod.fst).Nodup := by decide

/-- The operators that are looked for before that of a style. -/
def earlierTokens (style : EdgeStyle) : List (List Char × EdgeStyle) :=
  Text.earlier edgeTokens style.operator.toList

/-- No operator contains one that is tried before it. -/
theorem earlierTokens_overlap (style : EdgeStyle) :
    ∀ entry ∈ earlierTokens style, ¬entry.1 <:+: style.operator.toList := by
  cases style <;> decide

/-- A character that stands beside operators: one of a name, a space or a bar. -/
def isBeside (c : Char) : Bool := Text.isIdentChar c || c == ' ' || c == '|'

/-- Tokens are not empty, and none of their characters stands beside an operator. -/
theorem edgeTokens_chars : ∀ entry ∈ edgeTokens, entry.1 ≠ [] ∧ ∀ c ∈ entry.1, isBeside c = false := by
  decide

/-- An operator starts with a character that never stands beside one. -/
theorem exists_operator_eq_cons (style : EdgeStyle) :
    ∃ c rest, style.operator.toList = c :: rest ∧ isBeside c = false := by
  cases style <;> exact ⟨_, _, rfl, by decide⟩

/-- What stands beside an operator shares no character with a token. -/
theorem disjoint_of_isBeside {entry : List Char × EdgeStyle} (hentry : entry ∈ edgeTokens)
    {t : List Char} (h : ∀ c ∈ t, isBeside c = true) : t.Disjoint entry.1 := by
  intro c hc hmem
  have hchar := (edgeTokens_chars entry hentry).2 c hmem
  rw [h c hc] at hchar
  cases hchar

/-! ## Lines with a labelled edge -/

/-- The text of an edge behind its operator. -/
def labelledTarget (label target : List Char) (between after : Nat) : List Char :=
  (List.replicate between ' ' ++ ['|']) ++ (label ++ ('|' :: List.replicate after ' ' ++ target))

/-- The line of an edge with a label, with some spaces before and after its operator and before its
target. -/
def edgeLine (style : EdgeStyle) (source label target : List Char) (before between after : Nat) :
    Line :=
  (source ++ List.replicate before ' ') ++
    (style.operator.toList ++ labelledTarget label target between after)

section

variable {source label target : List Char} {before between after : Nat} {style : EdgeStyle}

/-- Names may stand beside an operator. -/
theorem isBeside_of_isIdent {name : List Char} (h : Text.isIdent name = true) :
    ∀ c ∈ name, isBeside c = true := by
  intro c hc
  rw [isBeside, Text.isIdentChar_of_mem h c hc]
  rfl

/-- Spaces may stand beside an operator. -/
theorem isBeside_of_mem_replicate {n : Nat} : ∀ c ∈ List.replicate n ' ', isBeside c = true := by
  intro c hc
  rw [List.eq_of_mem_replicate hc]
  decide

/-- The source of an edge and the spaces behind it may stand beside an operator. -/
theorem isBeside_source (hsource : Text.isIdent source = true) (before : Nat) :
    ∀ c ∈ source ++ List.replicate before ' ', isBeside c = true :=
  List.forall_mem_append.2 ⟨isBeside_of_isIdent hsource, isBeside_of_mem_replicate⟩

/-- There is a source before the operator. -/
theorem source_ne_nil (hsource : Text.isIdent source = true) (before : Nat) :
    source ++ List.replicate before ' ' ≠ [] := by
  simp [Text.ne_nil_of_isIdent hsource]

/-- No token occurs in the empty text. -/
theorem not_infix_nil {entry : List Char × EdgeStyle} (hentry : entry ∈ edgeTokens) :
    ¬entry.1 <:+: [] := by
  rw [List.infix_nil]
  exact (edgeTokens_chars entry hentry).1

/-- No operator that is looked for earlier stands in the line unless it stands in the label. -/
theorem not_infix_edgeLine (hsource : Text.isIdent source = true)
    (htarget : Text.isIdent target = true)
    (hquiet : ∀ entry ∈ earlierTokens style, ¬entry.1 <:+: label) :
    ∀ entry ∈ earlierTokens style,
      ¬entry.1 <:+: edgeLine style source label target before between after := by
  intro entry hentry
  have hmem : entry ∈ edgeTokens := Text.mem_of_mem_earlier hentry
  have hbar : ∀ c ∈ List.replicate between ' ' ++ ['|'], isBeside c = true :=
    List.forall_mem_append.2 ⟨isBeside_of_mem_replicate, by decide⟩
  have hright : ∀ c ∈ '|' :: List.replicate after ' ' ++ target, isBeside c = true :=
    List.forall_mem_append.2
      ⟨List.forall_mem_cons.2 ⟨by decide, isBeside_of_mem_replicate⟩, isBeside_of_isIdent htarget⟩
  -- What stands beside the operator and the label shares no character with an operator.
  have hline : edgeLine style source label target before between after =
      [] ++ ((source ++ List.replicate before ' ') ++ (style.operator.toList ++
        ((List.replicate between ' ' ++ ['|']) ++ (label ++
          (('|' :: List.replicate after ' ' ++ target) ++ []))))) := by
    simp [edgeLine, labelledTarget]
  rw [hline, Text.infix_append_iff_of_disjoint (source_ne_nil hsource before)
      (disjoint_of_isBeside hmem (isBeside_source hsource before)),
    Text.infix_append_iff_of_disjoint (by simp) (disjoint_of_isBeside hmem hbar),
    Text.infix_append_iff_of_disjoint (by simp) (disjoint_of_isBeside hmem hright)]
  simp only [not_infix_nil hmem, earlierTokens_overlap style entry hentry, hquiet entry hentry,
    or_self, not_false_eq_true]

/-- The operator of an edge with a label is found, and none that is looked for earlier. -/
theorem findToken_edgeLine (hsource : Text.isIdent source = true)
    (htarget : Text.isIdent target = true)
    (hquiet : ∀ entry ∈ earlierTokens style, ¬entry.1 <:+: label) :
    Text.findToken edgeTokens (edgeLine style source label target before between after) =
      some (source ++ List.replicate before ' ', style,
        labelledTarget label target between after) := by
  have hmem := mem_edgeTokens style
  have hcut : Text.cut style.operator.toList
      ([] ++ edgeLine style source label target before between after) =
        some (source ++ List.replicate before ' ', labelledTarget label target between after) := by
    rw [edgeLine, Text.cut_append_of_disjoint (edgeTokens_chars _ hmem).1
      (source_ne_nil hsource before) (disjoint_of_isBeside hmem (isBeside_source hsource before))
      (not_infix_nil hmem), Text.cut_append_pattern, Option.map_some, List.append_nil,
      List.nil_append]
  exact Text.findToken_eq_some nodup_edgeTokens hmem
    (not_infix_edgeLine hsource htarget hquiet) hcut

/-- The text behind the operator gives the label and the target. -/
theorem ofEdge_labelledTarget (left : List Char) (htarget : Text.isIdent target = true)
    (hbar : '|' ∉ label) :
    Statement.ofEdge left style (labelledTarget label target between after) =
      Statement.join left (List.replicate after ' ' ++ target)
        ((Text.trimmed? label).map String.ofList) style := by
  have htrim : Text.trim (labelledTarget label target between after) =
      '|' :: (label ++ ('|' :: (List.replicate after ' ' ++ target))) := by
    have hend := Text.trim_cons_append (c := '|') (by decide)
      (label ++ '|' :: List.replicate after ' ') (Text.ne_nil_of_isIdent htarget)
      (Text.trimEnd_of_trim_eq (Text.trim_of_isIdent htarget))
    rw [labelledTarget, List.append_assoc, Text.trim_append_left Text.isBlank_of_mem_replicate]
    simpa using hend
  exact Statement.ofEdge_of_label htrim (Text.cut_append_self hbar _) left style

/-- The line starts with its source, some spaces and a sign. -/
theorem edgeLine_eq (style : EdgeStyle) (source label target : List Char)
    (before between after : Nat) : ∃ c rest,
      edgeLine style source label target before between after =
        source ++ (List.replicate before ' ' ++ c :: rest) ∧
      Text.isIdentChar c = false ∧ c ≠ ' ' := by
  obtain ⟨c, operator, hoperator, hc⟩ := exists_operator_eq_cons style
  simp only [isBeside, Bool.or_eq_false_iff, beq_eq_false_iff_ne] at hc
  rw [edgeLine, hoperator, List.append_assoc]
  exact ⟨c, _, rfl, hc.1⟩

/-- Nothing is taken off the ends of the line. -/
theorem trim_edgeLine (hsource : Text.isIdent source = true) (htarget : Text.isIdent target = true) :
    Text.trim (edgeLine style source label target before between after) =
      edgeLine style source label target before between after := by
  have htrim := Text.trim_append_append hsource (List.replicate before ' ' ++
    (style.operator.toList ++ ((List.replicate between ' ' ++ ['|']) ++
      (label ++ '|' :: List.replicate after ' ')))) (Text.ne_nil_of_isIdent htarget)
    (Text.trim_of_isIdent htarget)
  simpa [edgeLine, labelledTarget] using htrim

/-- An edge line ends with a name, so no semicolon is dropped. -/
theorem bare_edgeLine (hsource : Text.isIdent source = true)
    (htarget : Text.isIdent target = true) :
    Statement.bare (edgeLine style source label target before between after) =
      edgeLine style source label target before between after := by
  -- A name has no semicolon.
  have hsemicolon : ∀ c ∈ target, (c == ';') = false := by
    intro c hc
    rw [beq_eq_false_iff_ne]
    rintro rfl
    exact absurd (Text.isIdentChar_of_mem htarget _ hc) (by decide)
  have hdrop := Text.dropEndWhile_append (Text.ne_nil_of_isIdent htarget) hsemicolon
    (source ++ List.replicate before ' ' ++ (style.operator.toList ++
      ((List.replicate between ' ' ++ ['|']) ++ (label ++ '|' :: List.replicate after ' '))))
  have hline : Text.dropEndWhile (· == ';')
      (edgeLine style source label target before between after) =
        edgeLine style source label target before between after := by
    simpa [edgeLine, labelledTarget] using hdrop
  rw [Statement.bare, hline, trim_edgeLine hsource htarget]

/-- An edge line is significant and stays as it is. -/
theorem significant?_edgeLine (hsource : Text.isIdent source = true)
    (htarget : Text.isIdent target = true) :
    Text.significant? (edgeLine style source label target before between after) =
      some (edgeLine style source label target before between after) := by
  have htrim : Text.trim (edgeLine style source label target before between after) =
      edgeLine style source label target before between after := trim_edgeLine hsource htarget
  obtain ⟨c, rest, hline, -⟩ := edgeLine_eq style source label target before between after
  rw [hline] at htrim ⊢
  exact Text.significant?_of_trim_eq hsource htrim

/-- An edge line with a one-line label is one line. -/
theorem not_isLineBreak_of_mem_edgeLine (hsource : Text.isIdent source = true)
    (htarget : Text.isIdent target = true) (hlabel : ∀ c ∈ label, Text.isLineBreak c = false) :
    ∀ c ∈ edgeLine style source label target before between after, Text.isLineBreak c = false := by
  have hspaces : ∀ {n : Nat}, ∀ c ∈ List.replicate n ' ', Text.isLineBreak c = false :=
    Text.not_isLineBreak_of_mem_replicate
  have hoperator : ∀ c ∈ style.operator.toList, Text.isLineBreak c = false := by
    cases style <;> decide
  simp only [edgeLine, labelledTarget, List.forall_mem_append, List.forall_mem_cons]
  exact ⟨⟨Text.not_isLineBreak_of_mem hsource, hspaces⟩, hoperator,
    ⟨hspaces, by decide⟩, hlabel, ⟨by decide, hspaces⟩, Text.not_isLineBreak_of_mem htarget⟩

end

/-! ## What such a line says -/

/-- The words that make a line say something else than an edge if a space follows. -/
def keywords : List String := ["subgraph", "classDef", "style", "direction", "linkStyle", "click"]

/-- The openings of other statements are keywords with a space behind them. -/
theorem exists_keyword_eq : ∀ opening ∈ ["subgraph ", "classDef ", "style "] ++ ignoredOpenings,
    ∃ keyword ∈ keywords, Text.isIdent keyword.toList = true ∧
      opening.toList = keyword.toList ++ [' '] := by
  decide

section

variable {source label target : String} {before between after : Nat} {style : EdgeStyle}

/-- The line holds an operator and does not start like any other kind of line. -/
theorem isEdgeLine_edgeLine (hsource : Text.isIdent source.toList = true)
    (htarget : Text.isIdent target.toList = true) (hname : before = 0 ∨ source ∉ keywords)
    (hquiet : ∀ entry ∈ earlierTokens style, ¬entry.1 <:+: label.toList) :
    Statement.IsEdgeLine
      (edgeLine style source.toList label.toList target.toList before between after) := by
  refine ⟨?_, ?_⟩
  · rw [← Text.findToken_isSome_iff, findToken_edgeLine hsource htarget hquiet]
    rfl
  · intro opening hopening
    obtain ⟨keyword, hmem, hkeyword, heq⟩ := exists_keyword_eq opening hopening
    obtain ⟨c, rest, hline, hc, hspace⟩ := edgeLine_eq style source.toList label.toList
      target.toList before between after
    rw [heq, hline]
    refine Text.not_keyword_prefix hkeyword hsource hc hspace (hname.imp_right ?_) rest
    exact fun hother h => hother (String.toList_injective h ▸ hmem)

/-- A line with an edge between two names joins them. -/
theorem ofLine_edgeLine (hsource : Text.isIdent source.toList = true)
    (htarget : Text.isIdent target.toList = true)
    (htrim : Text.trim label.toList = label.toList) (hne : label ≠ "") (hbar : '|' ∉ label.toList)
    (hname : before = 0 ∨ source ∉ keywords)
    (hquiet : ∀ entry ∈ earlierTokens style, ¬entry.1 <:+: label.toList) :
    Statement.ofLine
        (edgeLine style source.toList label.toList target.toList before between after) =
      .edge ⟨source, none, none, none⟩ ⟨target, none, none, none⟩ (some label) style := by
  have hleft : NodeRef.ofText? (source.toList ++ List.replicate before ' ') =
      some ⟨source, none, none, none⟩ := by
    rw [NodeRef.ofText?_of_isIdent hsource, String.ofList_toList]
    rw [Text.trim_append_right Text.isBlank_of_mem_replicate, Text.trim_of_isIdent hsource]
  have hright : NodeRef.ofText? (List.replicate after ' ' ++ target.toList) =
      some ⟨target, none, none, none⟩ := by
    rw [NodeRef.ofText?_of_isIdent htarget, String.ofList_toList]
    rw [Text.trim_append_left Text.isBlank_of_mem_replicate, Text.trim_of_isIdent htarget]
  have hlabel : (Text.trimmed? label.toList).map String.ofList = some label := by
    simp [Text.trimmed?, htrim, hne]
  rw [Statement.ofLine, bare_edgeLine hsource htarget,
    (isEdgeLine_edgeLine hsource htarget hname hquiet).ofBareLine_eq, Statement.ofNodeLine,
    findToken_edgeLine hsource htarget hquiet]
  simp only [ofEdge_labelledTarget _ htarget hbar, Statement.join, hleft, hright, hlabel]

end

/-! ## What it adds to a flowchart -/

/-- An id is declared as a node of its own name, unless it is known. -/
theorem mentionNode_id (nodes : List FlowNode) (id : String) :
    Draft.mentionNode nodes ⟨id, none, none, none⟩ = Keyed.ensure ⟨id, id, .rectangle⟩ nodes := by
  have hkey : Keyed.key (⟨id, id, .rectangle⟩ : FlowNode) = id := rfl
  rw [Draft.mentionNode, Keyed.ensure, hkey]
  by_cases hmem : Keyed.has nodes id = true
  · simp [hmem]
  · rw [if_neg (fun h => hmem h.1), if_neg hmem]
    exact Keyed.put_eq_append fun h => hmem ((Keyed.has_iff_mem_keys nodes id).2 h)

/-- An edge with a label as it is written. -/
def edgeText (style : EdgeStyle) (source label target : String) (before between after : Nat) :
    String :=
  source ++ String.ofList (List.replicate before ' ') ++ style.operator ++
    String.ofList (List.replicate between ' ') ++ "|" ++ label ++ "|" ++
    String.ofList (List.replicate after ' ') ++ target

/-- The characters of an edge line. -/
theorem toList_edgeText (style : EdgeStyle) (source label target : String)
    (before between after : Nat) : (edgeText style source label target before between after).toList =
      edgeLine style source.toList label.toList target.toList before between after := by
  have hbar : "|".toList = ['|'] := rfl
  simp [edgeText, edgeLine, labelledTarget, hbar]

/-- A flowchart is read from the lines below its header. -/
theorem exists_ofText_of_parse {text : String} {chart : Flowchart}
    (h : Diagram.parse text = .ok (.flowchart chart)) :
    ∃ header lines, Text.significantLines text.toList = header :: lines ∧
      chart = ofLines header lines ∧
      Reading.ofText text = .ok (.flowchart ((Direction.ofLine? header).getD .topDown)
        (Draft.empty.readLines lines)) := by
  obtain ⟨kind, header, lines, hlines, hchart⟩ := Diagram.exists_significantLines_of_parse h
  obtain ⟨s, hs, hfinish⟩ := Diagram.exists_ofText_of_parse h
  have hkind : s.kind = .flowchart := by
    rw [← Reading.kind_finish, hfinish]
    rfl
  cases kind with
  | flowchart =>
    refine ⟨header, lines, hlines, Diagram.flowchart.inj hchart, ?_⟩
    have hread : s = (Reading.start s.kind header).readLines lines := by
      rw [Reading.ofText, hlines] at hs
      exact Reading.eq_readLines_start hs
    rw [hs, hread, hkind]
    exact congrArg Except.ok (Reading.readLines_flowchart _ _ lines)
  | _ => cases hchart

/-- A line that is an edge neither opens a block nor closes one. -/
theorem isPlain_of_ofLine_eq_edge {line : Line} {source target : NodeRef} {label : Option String}
    {style : EdgeStyle} (h : Statement.ofLine line = .edge source target label style) :
    ¬IsEnd line ∧ ¬IsOpening line := by
  constructor
  · intro hend
    rw [ofLine_of_isEnd hend] at h
    cases h
  · intro hopening
    rw [ofLine_of_isOpening hopening] at h
    cases h

/-- A line with a labelled edge between two names adds one edge to the flowchart of the text above it,
with this source, target, label and style, and declares the two nodes and no other. Where no block is
open, the blocks stay as they are. Otherwise the innermost open block, which stands behind all those
that the text has closed, lists the two nodes, each unless it does so already, and all other blocks
stay as they are. Nothing else changes. -/
theorem parse_labelled_edge {text : String} {chart : Flowchart}
    (hparse : Diagram.parse text = .ok (.flowchart chart)) (style : EdgeStyle)
    (source label target : String) (before between after : Nat)
    (hsource : Text.isIdent source.toList = true) (htarget : Text.isIdent target.toList = true)
    (htrim : Text.trim label.toList = label.toList) (hne : label ≠ "") (hbar : '|' ∉ label.toList)
    (hbreak : ∀ c ∈ label.toList, Text.isLineBreak c = false)
    (hname : before = 0 ∨ source ∉ keywords)
    (hquiet : ∀ entry ∈ earlierTokens style, ¬entry.1 <:+: label.toList) :
    let lines := (Text.significantLines text.toList).tail
    ∃ subgraphs,
      ((∀ opening inner, ¬EndsInside lines opening inner) → subgraphs = chart.subgraphs) ∧
      (∀ opening inner, EndsInside lines opening inner →
        let closed := (Draft.empty.readLines lines).subgraphs
        let block := Body.record opening (Body.ofLines inner)
        ∃ others, chart.subgraphs = closed ++ block :: others ∧
          subgraphs = closed ++ withNodes block [source, target] :: others) ∧
      Diagram.parse (text ++ "\n" ++ edgeText style source label target before between after) =
        .ok (.flowchart { chart with
          nodes := Keyed.ensure ⟨target, target, .rectangle⟩
            (Keyed.ensure ⟨source, source, .rectangle⟩ chart.nodes)
          edges := chart.edges ++ [⟨source, target, some label, style⟩]
          subgraphs := subgraphs }) := by
  intro lines
  obtain ⟨header, below, hbelow, rfl, hs⟩ := exists_ofText_of_parse hparse
  obtain rfl : lines = below := congrArg List.tail hbelow
  have hline := toList_edgeText style source label target before between after
  have hwhole : ∀ c ∈ (edgeText style source label target before between after).toList,
      Text.isLineBreak c = false := by
    rw [hline]
    exact not_isLineBreak_of_mem_edgeLine hsource htarget hbreak
  have hsignificant : Text.significant?
      (edgeText style source label target before between after).toList =
        some (edgeText style source label target before between after).toList := by
    rw [hline]
    exact significant?_edgeLine hsource htarget
  have hedge : Statement.ofLine
      (edgeLine style source.toList label.toList target.toList before between after) =
        .edge ⟨source, none, none, none⟩ ⟨target, none, none, none⟩ (some label) style :=
    ofLine_edgeLine hsource htarget htrim hne hbar hname hquiet
  -- The line is read last, so the blocks are those of the lines with this one behind them.
  let line : PlainLine := ⟨_, isPlain_of_ofLine_eq_edge hedge⟩
  obtain ⟨hnone, hopen⟩ := subgraphs_ofLines_snoc header lines line
  have hmentioned : (Statement.ofLine line.1).mentioned = [source, target] :=
    congrArg Statement.mentioned hedge
  rw [hmentioned] at hopen
  refine ⟨_, hnone, hopen, ?_⟩
  rw [Reading.parse_append_line hs hwhole hsignificant, hline, Reading.readLine, Reading.finish]
  -- Apart from its blocks the chart is what the draft holds, so the line changes it by one
  -- statement.
  obtain ⟨subgraphs, hd⟩ := Reading.exists_finish_eq (Draft.empty.readLines lines)
  obtain ⟨subgraphs', hd'⟩ := Reading.exists_finish_eq
    ((Draft.empty.readLines lines).apply (Statement.ofLine line.1))
  rw [subgraphs_ofLines_concat, ofLines, hd, hd', hedge]
  simp only [Draft.chart, Draft.apply, Draft.mention, mentionNode_id]

/-- A label with the operator of its own edge, names that are words of the language elsewhere, and an
open block inside another one. -/
theorem parse_labelled_edge_from_class :
    Text.isIdent "class".toList = true ∧ Text.isIdent "end".toList = true ∧
      (∀ entry ∈ earlierTokens .solid, ¬entry.1 <:+: "x --> y ~~ [z]".toList) ∧
      Diagram.parse "flowchart LR\nsubgraph one\nsubgraph two\nclass -->|x --> y ~~ [z]| end" =
        .ok (.flowchart ⟨.leftRight, [⟨"class", "class", .rectangle⟩, ⟨"end", "end", .rectangle⟩],
          [⟨"class", "end", some "x --> y ~~ [z]", .solid⟩],
          [⟨"two", "two", ["class", "end"], []⟩, ⟨"one", "one", [], ["two"]⟩], [], []⟩) := by
  have hparse : Diagram.parse "flowchart LR\nsubgraph one\nsubgraph two" = .ok (.flowchart
      ⟨.leftRight, [], [], [⟨"two", "two", [], []⟩, ⟨"one", "one", [], ["two"]⟩], [], []⟩) := rfl
  have hcuts : ∀ entry ∈ earlierTokens .solid,
      Text.cut entry.1 "x --> y ~~ [z]".toList = none := by decide
  have hquiet : ∀ entry ∈ earlierTokens .solid, ¬entry.1 <:+: "x --> y ~~ [z]".toList :=
    fun entry hentry => Text.cut_eq_none_iff.1 (hcuts entry hentry)
  have hbreak : ∀ c ∈ "x --> y ~~ [z]".toList, Text.isLineBreak c = false := by decide
  obtain ⟨subgraphs, -, hopen, hedge⟩ := parse_labelled_edge hparse .solid "class" "x --> y ~~ [z]"
    "end" 1 0 1 (by decide) (by decide) (by decide) (by decide) (by decide) hbreak (by decide) hquiet
  have hopening : IsOpening "subgraph two".toList := by decide
  -- The text ends inside the inner of two open blocks, which is recorded first.
  obtain ⟨others, hothers, rfl⟩ :=
    hopen ⟨_, hopening⟩ [] ⟨.nil, ["subgraph one".toList], rfl⟩
  obtain rfl : [⟨"one", "one", [], ["two"]⟩] = others := (List.cons.inj hothers).2
  have htext : "flowchart LR\nsubgraph one\nsubgraph two" ++ "\n" ++
      edgeText .solid "class" "x --> y ~~ [z]" "end" 1 0 1 =
        "flowchart LR\nsubgraph one\nsubgraph two\nclass -->|x --> y ~~ [z]| end" := by
    decide +kernel
  rw [htext] at hedge
  exact ⟨by decide, by decide, hquiet, hedge⟩

/-- A source that is a keyword before a space, and a label with an operator that is looked for
earlier. -/
theorem labelled_edges_skipped :
    Diagram.parse "flowchart TD\ndirection --> |x| B" =
        .ok (.flowchart ⟨.topDown, [], [], [], [], []⟩) ∧
      Diagram.parse "flowchart TD\nA --> |a ==> b| B" =
        .ok (.flowchart ⟨.topDown, [], [], [], [], []⟩) :=
  ⟨rfl, rfl⟩

end Flowchart

end TextDiagram
