import Mathlib.Data.List.Infix
import TextDiagram.Proofs.Completeness
import TextDiagram.Proofs.Reading
import TextDiagram.Proofs.Text.Cut
import TextDiagram.Proofs.Text.Lines
/-!
# Styles do not change the drawing

A flowchart says in lines of their own how its nodes look. Such a line changes nothing but the
styles of the draft, and a layout reads the styles for nothing but the looks of its nodes. Two texts
that differ in such lines only are therefore drawn alike, up to those looks.

Main statements:

* `Statement.isAboutStyles_ofLine`: what a styling line says, whatever else stands in it.
* `Draft.plain_apply`, `Draft.plain_readLines`: drafts that differ in their styles only stay so when
  one statement is applied, and when lines are read.
* `layout_plain`: the layout of a chart without styles.
* `drawn_alike`: texts with the same lines, styling lines apart.
-/

namespace TextDiagram

namespace Flowchart

/-! ## Lines about styles -/

/-- Whether a line is about styles only. A line that starts with `class` and a blank may be an edge
that starts at a node of that name. -/
def IsStyling (line : Line) : Prop :=
  "classDef ".toList <+: Statement.bare line ∨ "style ".toList <+: Statement.bare line ∨
    ("class ".toList <+: Statement.bare line ∧
      ∀ entry ∈ edgeTokens, ¬entry.1 <:+: Statement.bare line)

instance (line : Line) : Decidable (IsStyling line) := inferInstanceAs (Decidable (_ ∨ _ ∨ _))

/-- The lines of a text that are not about styles. -/
def withoutStyling (lines : List Line) : List Line :=
  lines.filter fun line => ¬IsStyling (Text.trim line)

/-- Whether a statement can change styles only. -/
def Statement.IsAboutStyles : Statement → Prop
  | .defineStyle _ _ | .styleNode _ _ | .attachStyle _ _ | .skip => True
  | _ => False

namespace Statement

variable {line : Line}

/-- A `classDef` line defines a style or is skipped. -/
theorem ofLine_of_classDef (h : "classDef ".toList <+: bare line) :
    ofLine line = (Text.secondAndRest? (bare line)).elim .skip fun (name, text) =>
      .defineStyle (String.ofList name) (NodeStyle.ofText text) := by
  obtain ⟨rest, hline⟩ := h
  rw [ofLine, ← hline]
  have hend : "classDef ".toList ++ rest ≠ "end".toList := by
    intro h
    cases h
  have hsubgraph : Text.after? "subgraph " ("classDef ".toList ++ rest) = none := rfl
  have hclassDef : Text.after? "classDef " ("classDef ".toList ++ rest) = some rest := rfl
  unfold ofBareLine
  rw [if_neg hend, hsubgraph, hclassDef]
  cases Text.secondAndRest? ("classDef ".toList ++ rest) <;> rfl

/-- A `style` line styles a node or is skipped. -/
theorem ofLine_of_style (h : "style ".toList <+: bare line) :
    ofLine line = (Text.secondAndRest? (bare line)).elim .skip fun (id, text) =>
      .styleNode (String.ofList id) (NodeStyle.ofText text) := by
  obtain ⟨rest, hline⟩ := h
  rw [ofLine, ← hline]
  have hend : "style ".toList ++ rest ≠ "end".toList := by
    intro h
    cases h
  have hsubgraph : Text.after? "subgraph " ("style ".toList ++ rest) = none := rfl
  have hclassDef : Text.after? "classDef " ("style ".toList ++ rest) = none := rfl
  have hstyle : Text.after? "style " ("style ".toList ++ rest) = some rest := rfl
  unfold ofBareLine
  rw [if_neg hend, hsubgraph, hclassDef, hstyle]
  cases Text.secondAndRest? ("style ".toList ++ rest) <;> rfl

/-- A `class` line without an operator attaches styles or is skipped. -/
theorem ofLine_of_class (h : "class ".toList <+: bare line)
    (htokens : ∀ entry ∈ edgeTokens, ¬entry.1 <:+: bare line) :
    ofLine line = ofClassLine (bare line) := by
  -- With an operator the line would be an edge from a node called `class`.
  have hnone : (Text.findToken edgeTokens (bare line)).isNone = true :=
    Option.isNone_iff_eq_none.2 (Text.findToken_eq_none htokens)
  obtain ⟨rest, hline⟩ := h
  rw [ofLine]
  rw [← hline] at hnone ⊢
  have hclass : (Text.after? "class " ("class ".toList ++ rest)).isSome = true ∧
      (Text.findToken edgeTokens ("class ".toList ++ rest)).isNone = true := ⟨rfl, hnone⟩
  exact if_pos hclass

/-- A styling line defines a style or attaches one, or it is no statement. -/
theorem isAboutStyles_ofLine (h : IsStyling line) : (ofLine line).IsAboutStyles := by
  rcases h with hclassDef | hstyle | ⟨hclass, htokens⟩
  · rw [ofLine_of_classDef hclassDef]
    cases Text.secondAndRest? (bare line) <;> trivial
  · rw [ofLine_of_style hstyle]
    cases Text.secondAndRest? (bare line) <;> trivial
  · rw [ofLine_of_class hclass htokens, ofClassLine]
    split <;> trivial

end Statement

/-- Leaving out styling lines before or after trimming is the same. -/
theorem significant_withoutStyling (lines : List Line) :
    Text.significant (withoutStyling lines) =
      (Text.significant lines).filter fun line => ¬IsStyling line := by
  induction lines with
  | nil => rfl
  | cons line lines ih =>
    rw [Text.significant_cons, List.filter_append, ← ih]
    -- A styling line is not blank, so it is left out on both sides.
    by_cases hstyling : IsStyling (Text.trim line)
    · have hdrop : withoutStyling (line :: lines) = withoutStyling lines :=
        List.filter_cons_of_neg (by simpa using hstyling)
      rw [hdrop]
      unfold Text.significant?
      split <;> simp [hstyling]
    · have hkeep : withoutStyling (line :: lines) = line :: withoutStyling lines :=
        List.filter_cons_of_pos (by simpa using hstyling)
      rw [hkeep, Text.significant_cons]
      unfold Text.significant?
      split <;> simp [hstyling]

/-! ## Reading -/

namespace Draft

/-- A draft without its styles. -/
def plain (d : Draft) : Draft := { d with classDefs := [], nodeClasses := [] }

/-- Statements about styles change nothing but styles. -/
theorem plain_eq_of_isAboutStyles {s : Statement} (h : s.IsAboutStyles) (d : Draft) :
    (d.apply s).plain = d.plain := by
  cases s with
  | defineStyle | styleNode | attachStyle | skip => rfl
  | closeBlock | openBlock | mention | edge => cases h

/-- No statement looks at the styles in order to change anything else. -/
theorem plain_apply (d : Draft) (s : Statement) : (d.apply s).plain = (d.plain.apply s).plain := by
  cases s with
  | closeBlock =>
    show d.close.plain = d.plain.close.plain
    rcases d with ⟨nodes, edges, openBlocks, subgraphs, classDefs, nodeClasses⟩
    cases openBlocks <;> rfl
  | openBlock | defineStyle | styleNode | attachStyle | mention | edge | skip => rfl

variable {d d' : Draft}

/-- What a statement does to the rest does not depend on styles. -/
theorem plain_apply_congr (h : d.plain = d'.plain) (s : Statement) :
    (d.apply s).plain = (d'.apply s).plain := by
  rw [plain_apply, h, ← plain_apply]

/-- So does what a list of lines does. -/
theorem plain_readLines_congr (h : d.plain = d'.plain) (lines : List Line) :
    (d.readLines lines).plain = (d'.readLines lines).plain := by
  induction lines generalizing d d' with
  | nil => exact h
  | cons line lines ih => exact ih (plain_apply_congr h (Statement.ofLine line))

/-- Without the styling lines the same is read, styles apart. -/
theorem plain_readLines (d : Draft) (lines : List Line) :
    (d.readLines lines).plain =
      (d.readLines (lines.filter fun line => ¬IsStyling line)).plain := by
  induction lines generalizing d with
  | nil => rfl
  | cons line lines ih =>
    by_cases hstyling : IsStyling line
    · rw [List.filter_cons_of_neg (by simpa using hstyling), ← ih]
      have hline := plain_eq_of_isAboutStyles (Statement.isAboutStyles_ofLine hstyling) d
      exact plain_readLines_congr hline lines
    · rw [List.filter_cons_of_pos (by simpa using hstyling)]
      exact ih (d.apply (Statement.ofLine line))

/-- Closing the open blocks does not depend on styles. -/
theorem plain_finish (h : d.plain = d'.plain) : d.finish.plain = d'.finish.plain := by
  have hblocks : d.plain.openBlocks = d'.plain.openBlocks := congrArg Draft.openBlocks h
  exact finish_congr (f := plain) (fun h => plain_apply_congr h .closeBlock)
    (congrArg List.length hblocks) h

end Draft

/-- A chart without its styles. -/
def plain (chart : Flowchart) : Flowchart := { chart with classDefs := [], nodeClasses := [] }

/-- Charts that agree apart from their styles agree in all other parts. -/
theorem plain_eq_iff {chart chart' : Flowchart} :
    chart.plain = chart'.plain ↔ chart.direction = chart'.direction ∧ chart.nodes = chart'.nodes ∧
      chart.edges = chart'.edges ∧ chart.subgraphs = chart'.subgraphs := by
  simp only [plain, Flowchart.mk.injEq, and_true]

/-- Lines that agree apart from styling lines are read as charts that do. -/
theorem plain_ofLines (header : Line) {lines lines' : List Line}
    (h : (lines.filter fun line => ¬IsStyling line) =
      lines'.filter fun line => ¬IsStyling line) :
    (ofLines header lines).plain = (ofLines header lines').plain := by
  have hlines : (Draft.empty.readLines lines).plain = (Draft.empty.readLines lines').plain := by
    rw [Draft.plain_readLines, h, ← Draft.plain_readLines]
  exact congrArg (Draft.chart · ((Direction.ofLine? header).getD .topDown))
    (Draft.plain_finish hlines)

end Flowchart

/-! ## Drawing -/

section

variable {α : Type}

/-- A placed node without its style. -/
def PositionedNode.plain (placed : PositionedNode α) : PositionedNode α :=
  { placed with style := none }

/-- A layout without the styles of its nodes. -/
def FlowchartLayout.plain (l : FlowchartLayout α) : FlowchartLayout α :=
  { l with nodes := l.nodes.map PositionedNode.plain }

end

namespace Flowchart

variable {α : Type} [Scalar α] {config : Config}

/-- Frames of nodes do not depend on styles. -/
theorem nodeFrames_plain (chart : Flowchart) :
    nodeFrames α config chart.plain = nodeFrames α config chart := rfl

/-- Frames of blocks do not depend on styles. -/
theorem subgraphFrames_plain (chart : Flowchart) :
    subgraphFrames α config chart.plain = subgraphFrames α config chart := rfl

omit [Scalar α] in
/-- A node is placed without its style as it is with it. -/
theorem placeNode_plain {chart : Flowchart} {frames : List (String × Rect α)}
    {layers : List (String × Nat)} {node : FlowNode} {placed : PositionedNode α}
    (h : placeNode chart frames layers node = .ok placed) :
    placeNode chart.plain frames layers node = .ok placed.plain := by
  rcases placeNode_eq_ok_iff.1 h with ⟨frame, hframe, layer, hlayer, rfl⟩
  exact placeNode_eq_ok_iff.2 ⟨frame, hframe, layer, hlayer, rfl⟩

/-- A chart without styles has the same layout, without styles. -/
theorem layout_plain {chart : Flowchart} {l : FlowchartLayout α}
    (h : chart.layout config = .ok l) : chart.plain.layout config = .ok l.plain := by
  rcases layout_eq_ok_iff.1 h with ⟨edges, hedges, nodes, hnodes, hl⟩
  have hplain : chart.plain.nodes.mapM (placeNode chart.plain (nodeFrames α config chart.plain)
      (placement α config chart.plain).layerNumbers) = .ok (nodes.map PositionedNode.plain) := by
    rw [mapM_eq_ok_iff, List.forall₂_map_right_iff]
    exact (mapM_eq_ok_iff.1 hnodes).imp fun _ _ hplaced => placeNode_plain hplaced
  -- The frames and the edges of a chart do not depend on its styles.
  refine layout_eq_ok_iff.2 ⟨edges, hedges, _, hplain, ?_⟩
  rw [← hl, nodeFrames_plain, subgraphFrames_plain]
  simp only [FlowchartLayout.plain, plain]

/-- Charts that differ in their styles only are drawn alike. -/
theorem layout_plain_congr {chart chart' : Flowchart} (h : chart.plain = chart'.plain)
    {l l' : FlowchartLayout α} (hl : chart.layout config = .ok l)
    (hl' : chart'.layout config = .ok l') : l.plain = l'.plain := by
  have hplain := layout_plain hl
  rw [h, layout_plain hl'] at hplain
  exact (Except.ok.inj hplain).symm

end Flowchart

namespace Diagram

/-- When a text is read as a given flowchart. -/
theorem parse_eq_ok_flowchart_iff {t : String} {chart : Flowchart} :
    parse t = .ok (.flowchart chart) ↔ ∃ header lines,
      Text.significant (Text.splitLines t.toList) = header :: lines ∧
      DiagramKind.ofKeyword? (String.ofList (Text.firstWord header)) = some .flowchart ∧
      Flowchart.ofLines header lines = chart := by
  rw [parse, Text.significantLines_eq]
  cases hlines : Text.significant (Text.splitLines t.toList) with
  | nil => simp [parseLines]
  | cons header lines =>
    simp only [parseLines]
    constructor
    · intro h
      split at h
      · next kind hkind =>
        have hofLines := Except.ok.inj h
        have hflow : kind = .flowchart := by rw [← kind_ofLines kind header lines, hofLines]; rfl
        subst hflow
        exact ⟨header, lines, rfl, hkind, Diagram.flowchart.inj hofLines⟩
      · cases h
    · rintro ⟨_, _, heq, hkind, rfl⟩
      cases heq
      rw [hkind]
      rfl

end Diagram

namespace Flowchart

/-- Texts with the same lines after the header, styling lines apart: the charts differ in their
styles only, and the drawings in the styles of the nodes. -/
theorem drawn_alike {before after₁ after₂ : List Line} {t₁ t₂ : String}
    (h₁ : Text.splitLines t₁.toList = before ++ after₁)
    (h₂ : Text.splitLines t₂.toList = before ++ after₂)
    (hheader : Text.significant before ≠ [])
    (hlines : withoutStyling after₁ = withoutStyling after₂)
    {chart₁ : Flowchart} (hparse : Diagram.parse t₁ = .ok (.flowchart chart₁)) :
    ∃ chart₂ : Flowchart, Diagram.parse t₂ = .ok (.flowchart chart₂) ∧
      chart₂.direction = chart₁.direction ∧ chart₂.nodes = chart₁.nodes ∧
      chart₂.edges = chart₁.edges ∧ chart₂.subgraphs = chart₁.subgraphs ∧
      ∀ (α : Type) [Scalar α] (config : Config), ∃ l₁ l₂ : FlowchartLayout α,
        chart₁.layout config = .ok l₁ ∧ chart₂.layout config = .ok l₂ ∧ l₂.plain = l₁.plain := by
  rcases Diagram.parse_eq_ok_flowchart_iff.1 hparse with ⟨header, lines₁, hsig₁, hkind, rfl⟩
  -- The header stands among the lines that the texts share.
  obtain ⟨others, hbefore⟩ : ∃ others, Text.significant before = header :: others := by
    rw [h₁, Text.significant_append] at hsig₁
    cases hbefore : Text.significant before with
    | nil => exact absurd hbefore hheader
    | cons first others =>
      rw [hbefore] at hsig₁
      exact ⟨others, by rw [(List.cons.inj hsig₁).1]⟩
  have hlines₁ : lines₁ = others ++ Text.significant after₁ := by
    rw [h₁, Text.significant_append, hbefore] at hsig₁
    exact (List.cons.inj hsig₁).2.symm
  have hsig₂ : Text.significant (Text.splitLines t₂.toList) =
      header :: (others ++ Text.significant after₂) := by
    rw [h₂, Text.significant_append, hbefore]
    rfl
  -- The lines differ in styling lines only, so the drafts agree apart from styles.
  have hplain : (ofLines header (others ++ Text.significant after₂)).plain =
      (ofLines header lines₁).plain := by
    refine plain_ofLines header ?_
    rw [hlines₁, List.filter_append, List.filter_append, ← significant_withoutStyling,
      ← significant_withoutStyling, hlines]
  rcases plain_eq_iff.1 hplain with ⟨hdirection, hnodes, hedges, hsubgraphs⟩
  refine ⟨_, Diagram.parse_eq_ok_flowchart_iff.2 ⟨header, _, hsig₂, hkind, rfl⟩, hdirection,
    hnodes, hedges, hsubgraphs, ?_⟩
  intro α _ config
  rcases exists_layout α config (wellReferenced_ofLines header lines₁) with ⟨l₁, hl₁, -⟩
  rcases exists_layout α config (wellReferenced_ofLines header
    (others ++ Text.significant after₂)) with ⟨l₂, hl₂, -⟩
  exact ⟨l₁, l₂, hl₁, hl₂, layout_plain_congr hplain hl₂ hl₁⟩

/-- Styles of all kinds in and around a block, two of them for names that are no nodes, and an edge
from a node that is called `class`. -/
theorem drawn_alike_in_two_styles :
    ∃ before after₁ after₂ : List Line, ∃ t₁ t₂ : String, ∃ chart₁ : Flowchart,
      t₁ = "flowchart TD\nclassDef hot fill:#f00\nsubgraph one\nclass -->A[start]\nend" ∧
      t₂ = "flowchart TD\nsubgraph one\nstyle C fill:red;\nclass -->A[start]\nclass A,D hot\nend" ∧
      Text.splitLines t₁.toList = before ++ after₁ ∧
      Text.splitLines t₂.toList = before ++ after₂ ∧
      Text.significant before ≠ [] ∧ withoutStyling after₁ = withoutStyling after₂ ∧
      Diagram.parse t₁ = .ok (.flowchart chart₁) ∧ chart₁.nodes.length = 2 ∧
      ∃ chart₂ : Flowchart, Diagram.parse t₂ = .ok (.flowchart chart₂) ∧
        chart₂.direction = chart₁.direction ∧ chart₂.nodes = chart₁.nodes ∧
        chart₂.edges = chart₁.edges ∧ chart₂.subgraphs = chart₁.subgraphs ∧
        ∀ (α : Type) [Scalar α] (config : Config), ∃ l₁ l₂ : FlowchartLayout α,
          chart₁.layout config = .ok l₁ ∧ chart₂.layout config = .ok l₂ ∧ l₂.plain = l₁.plain := by
  have h₁ : Text.splitLines
      "flowchart TD\nclassDef hot fill:#f00\nsubgraph one\nclass -->A[start]\nend".toList =
        ["flowchart TD".toList] ++ ["classDef hot fill:#f00".toList, "subgraph one".toList,
          "class -->A[start]".toList, "end".toList] := by decide
  have h₂ : Text.splitLines
      "flowchart TD\nsubgraph one\nstyle C fill:red;\nclass -->A[start]\nclass A,D hot\nend".toList =
        ["flowchart TD".toList] ++ ["subgraph one".toList, "style C fill:red;".toList,
          "class -->A[start]".toList, "class A,D hot".toList, "end".toList] := by decide
  have hheader : Text.significant ["flowchart TD".toList] ≠ [] := by decide
  have hlines : withoutStyling ["classDef hot fill:#f00".toList, "subgraph one".toList,
      "class -->A[start]".toList, "end".toList] =
        withoutStyling ["subgraph one".toList, "style C fill:red;".toList,
          "class -->A[start]".toList, "class A,D hot".toList, "end".toList] := by decide
  have hparse : Diagram.parse
      "flowchart TD\nclassDef hot fill:#f00\nsubgraph one\nclass -->A[start]\nend" =
        .ok (.flowchart ⟨.topDown, [⟨"class", "class", .rectangle⟩, ⟨"A", "start", .rectangle⟩],
          [⟨"class", "A", none, .solid⟩], [⟨"one", "one", ["class", "A"], []⟩],
          [("hot", ⟨some "#f00", none, none, none⟩)], []⟩) := rfl
  exact ⟨_, _, _, _, _, _, rfl, rfl, h₁, h₂, hheader, hlines, hparse, rfl,
    drawn_alike h₁ h₂ hheader hlines hparse⟩

end Flowchart

end TextDiagram
