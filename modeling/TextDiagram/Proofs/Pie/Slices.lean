import TextDiagram.Proofs.Number.Decimal
import TextDiagram.Proofs.Reading
import TextDiagram.Proofs.Rejection
import TextDiagram.Proofs.Text.Cut
/-!
# Slices as they are written

A slice line is a label in double quotes, a colon and a number, with blanks between them. The label may
have double quotes and colons of its own; as nothing of the kind stands behind it, it ends at the last
double quote of the line.

Main statements:

* `Statement.slice?_eq_some_iff`: the lines that are slices, and which.
* `slices_readLines`: every slice line adds its own slice behind the others.
* `slices_read_back`: what a line of this form adds to the chart of a text.
-/

namespace TextDiagram.PieChart

/-! ## Slice lines -/

/-- The line has the label in double quotes, a colon and the text for a number, with blanks around
them. -/
def Spells (line label number : List Char) : Prop :=
  ∃ before middle space after : List Char,
    line = before ++ '"' :: (label ++ '"' :: (middle ++ ':' :: (space ++ (number ++ after)))) ∧
      (∀ c ∈ before, Text.isBlank c = true) ∧ (∀ c ∈ middle, Text.isBlank c = true) ∧
      (∀ c ∈ space, Text.isBlank c = true) ∧ ∀ c ∈ after, Text.isBlank c = true

variable {line label number : List Char}

theorem bounds_of_numeral {c : Char} (h : c.isDigit = true ∨ c = '.') :
    46 ≤ c.toNat ∧ c.toNat ≤ 57 := by
  obtain h | rfl := h
  · obtain ⟨hlow, hhigh⟩ := Char.isDigit_iff_toNat.1 h
    exact ⟨Nat.le_trans (by decide) hlow, hhigh⟩
  · decide

theorem not_isBlank_of_numeral {c : Char} (h : c.isDigit = true ∨ c = '.') :
    Text.isBlank c = false := by
  have hbounds := bounds_of_numeral h
  simp only [Text.isBlank, Bool.or_eq_false_iff, Bool.and_eq_false_iff, decide_eq_false_iff_not,
    beq_eq_false_iff_ne]
  omega

namespace Statement

/-- The number behind the colon is read, whatever blanks stand around it. -/
theorem value?_spelled {middle space after : List Char}
    (hmiddle : ∀ c ∈ middle, Text.isBlank c = true) (hspace : ∀ c ∈ space, Text.isBlank c = true)
    (hnumber : ∀ c ∈ number, c.isDigit = true ∨ c = '.')
    (hafter : ∀ c ∈ after, Text.isBlank c = true) :
    value? (middle ++ ':' :: (space ++ (number ++ after))) = Decimal.ofText? number := by
  have hcolon : Text.trimStart (middle ++ ':' :: (space ++ (number ++ after))) =
      ':' :: (space ++ (number ++ after)) := by
    rw [Text.trimStart_append_left hmiddle]
    rfl
  have htrim : Text.trim (space ++ (number ++ after)) = number := by
    rw [Text.trim_append_left hspace, Text.trim_append_right hafter]
    exact Text.trim_of_forall_not_isBlank fun c hc => not_isBlank_of_numeral (hnumber c hc)
  rw [value?, hcolon]
  exact congrArg Decimal.ofText? htrim

/-- Behind the label of a slice line there is no double quote. -/
theorem quote_not_mem {middle space after : List Char}
    (hmiddle : ∀ c ∈ middle, Text.isBlank c = true) (hspace : ∀ c ∈ space, Text.isBlank c = true)
    (hnumber : ∀ c ∈ number, c.isDigit = true ∨ c = '.')
    (hafter : ∀ c ∈ after, Text.isBlank c = true) :
    '"' ∉ middle ++ ':' :: (space ++ (number ++ after)) := by
  have hblank : ∀ {blanks : List Char}, (∀ c ∈ blanks, Text.isBlank c = true) → '"' ∉ blanks := by
    intro blanks h hquote
    exact absurd (h '"' hquote) (by decide)
  have hdigits : '"' ∉ number := by
    intro hquote
    exact absurd (bounds_of_numeral (hnumber '"' hquote)) (by decide)
  simp only [List.mem_append, List.mem_cons, not_or]
  exact ⟨hblank hmiddle, by decide, hblank hspace, hdigits, hblank hafter⟩

/-- A line of the form is read as a slice with its label, if there is a label and the number is one. -/
theorem slice?_of_spells (h : Spells line label number)
    (hnumber : ∀ c ∈ number, c.isDigit = true ∨ c = '.') :
    slice? line = if label = [] ∨ '\n' ∈ label then none
      else (Decimal.ofText? number).map fun value => ⟨String.ofList label, value⟩ := by
  obtain ⟨before, middle, space, after, rfl, hbefore, hmiddle, hspace, hafter⟩ := h
  have hstart : Text.trimStart (before ++
      '"' :: (label ++ '"' :: (middle ++ ':' :: (space ++ (number ++ after))))) =
        '"' :: (label ++ '"' :: (middle ++ ':' :: (space ++ (number ++ after)))) := by
    rw [Text.trimStart_append_left hbefore]
    rfl
  have hcut := Text.cutLast_singleton_append (quote_not_mem hmiddle hspace hnumber hafter) label
  have hlabel : (label.isEmpty || label.contains '\n') = true ↔ label = [] ∨ '\n' ∈ label := by
    rw [Bool.or_eq_true, List.isEmpty_iff, List.contains_iff_mem]
  rw [slice?, hstart]
  simp only [hcut, Option.bind_some, hlabel, value?_spelled hmiddle hspace hnumber hafter]

theorem exists_of_value? {t : List Char} {value : Decimal} (h : value? t = some value) :
    ∃ middle space number after : List Char,
      t = middle ++ ':' :: (space ++ (number ++ after)) ∧
        (∀ c ∈ middle, Text.isBlank c = true) ∧ (∀ c ∈ space, Text.isBlank c = true) ∧
        (∀ c ∈ after, Text.isBlank c = true) ∧ Decimal.ofText? number = some value := by
  obtain ⟨middle, ht, hmiddle⟩ := Text.exists_eq_append_trimStart t
  unfold value? at h
  split at h
  · next rest hcolon =>
    obtain ⟨space, after, hrest, hspace, hafter⟩ := Text.exists_eq_append_trim rest
    refine ⟨middle, space, Text.trim rest, after, ?_, hmiddle, hspace, hafter, h⟩
    rw [← hrest, ← hcolon, ← ht]
  · cases h

/-- A line is a slice exactly if it spells the label and a number of the value of the slice. -/
theorem slice?_eq_some_iff {s : PieSlice} : slice? line = some s ↔
    ∃ number, Spells line s.label.toList number ∧ s.label.toList ≠ [] ∧ '\n' ∉ s.label.toList ∧
      Decimal.IsNumeral number ∧ s.value = Decimal.ofNumeral number := by
  constructor
  · intro h
    obtain ⟨before, hline, hbefore⟩ := Text.exists_eq_append_trimStart line
    unfold slice? at h
    split at h
    · next rest hquote =>
      obtain ⟨⟨label, tail⟩, hcut, h⟩ := Option.bind_eq_some_iff.1 h
      simp only at h
      split at h
      · cases h
      · next hlabel =>
        -- The label is not empty and has no line feed, or the line would not be a slice.
        rw [Bool.or_eq_true, List.isEmpty_iff, List.contains_iff_mem, not_or] at hlabel
        obtain ⟨value, hvalue, rfl⟩ := Option.map_eq_some_iff.1 h
        obtain ⟨middle, space, number, after, rfl, hmiddle, hspace, hafter, hread⟩ :=
          exists_of_value? hvalue
        obtain ⟨_, hrest, htail⟩ := Text.eq_of_cutLast hcut
        obtain rfl := Option.some.inj htail
        obtain ⟨hnumeral, hsame⟩ := Decimal.ofText?_eq_some_iff.1 hread
        simp only [String.toList_ofList]
        refine ⟨number, ⟨before, middle, space, after, ?_, hbefore, hmiddle, hspace, hafter⟩,
          hlabel.1, hlabel.2, hnumeral, hsame⟩
        rw [hline, hquote, hrest, List.append_assoc]
        rfl
    · cases h
  · rintro ⟨number, hspells, hne, hfeed, hnumeral, hvalue⟩
    have hread := Decimal.ofText?_eq_some_iff.2 ⟨hnumeral, hvalue⟩
    rw [slice?_of_spells hspells hnumeral.chars, if_neg (not_or.2 ⟨hne, hfeed⟩), hread,
      Option.map_some, String.ofList_toList]

end Statement

/-- Trimming takes only blanks off a line that are around what it spells. -/
theorem Spells.trim (h : Spells line label number)
    (hnumber : ∀ c ∈ number, c.isDigit = true ∨ c = '.') :
    Spells (Text.trim line) label number := by
  obtain ⟨before, middle, space, after, rfl, hbefore, hmiddle, hspace, hafter⟩ := h
  have hcolon : Text.isBlank ':' = false := by decide
  have htrim : Text.trim (before ++
      '"' :: (label ++ '"' :: (middle ++ ':' :: (space ++ (number ++ after))))) =
        '"' :: (label ++ '"' :: (middle ++ ':' :: Text.trimEnd (space ++ (number ++ after)))) := by
    have hend := Text.trimEnd_append_cons hcolon ('"' :: (label ++ '"' :: middle))
      (space ++ (number ++ after))
    simp only [List.cons_append, List.append_assoc] at hend
    rw [Text.trim_append_left hbefore, Text.trim, Text.trimStart_cons (by decide), hend]
  have hdigits : Text.trimEnd (number ++ after) = number := by
    rw [Text.trimEnd_append, if_pos (Text.trimEnd_eq_nil hafter)]
    exact Text.trimEnd_of_trim_eq
      (Text.trim_of_forall_not_isBlank fun c hc => not_isBlank_of_numeral (hnumber c hc))
  have hnone : ∀ c ∈ [], Text.isBlank c = true := List.forall_mem_nil _
  rw [htrim, Text.trimEnd_append, hdigits]
  split
  · next hempty =>
    -- Without a number all the blanks behind the colon are taken off.
    subst hempty
    rw [Text.trimEnd_eq_nil hspace]
    exact ⟨[], middle, [], [], rfl, hnone, hmiddle, hnone, hnone⟩
  · refine ⟨[], middle, space, [], ?_, hnone, hmiddle, hspace, hnone⟩
    rw [List.append_nil]
    rfl

theorem Spells.exists_trim_eq (h : Spells line label number)
    (hnumber : ∀ c ∈ number, c.isDigit = true ∨ c = '.') :
    ∃ rest, Text.trim line = '"' :: rest := by
  obtain ⟨before, middle, space, after, hline, hbefore, -, -, -⟩ := h.trim hnumber
  cases before with
  | nil => exact ⟨_, hline⟩
  | cons c before =>
    have hc := (Text.trim_eq_self_iff.1 (Text.trim_trim line)).1 c (by rw [hline]; rfl)
    rw [hbefore c List.mem_cons_self] at hc
    cases hc

/-- A line that starts with a double quote is read below the header. -/
theorem significant?_of_quote {rest : List Char} (h : Text.trim line = '"' :: rest) :
    Text.significant? line = some (Text.trim line) ∧
      DiagramKind.ofKeyword? (String.ofList (Text.firstWord (Text.trim line))) = none := by
  rw [Text.significant?, h]
  refine ⟨rfl, ?_⟩
  -- No kind of diagram has a name with a double quote.
  have hnames : ∀ entry ∈ DiagramKind.keywords, entry.1.toList.head? ≠ some '"' := by decide
  rw [DiagramKind.ofKeyword?, List.lookup_eq_none_iff]
  intro entry hentry
  rw [bne_iff_ne]
  intro heq
  refine hnames entry hentry ?_
  rw [← heq, String.toList_ofList]
  rfl

/-! ## Reading -/

/-- The chart with other slices. -/
def withSlices (chart : PieChart) (slices : List PieSlice) : PieChart :=
  { chart with slices := slices }

/-- A line adds the slice that it is, and what else it does has nothing to do with slices. -/
theorem apply_withSlices (chart : PieChart) (slices : List PieSlice) (line : Line) :
    Statement.apply (chart.withSlices slices) (Statement.ofLine line) =
      (Statement.apply chart (Statement.ofLine line)).withSlices
        (slices ++ (Statement.slice? line).toList) := by
  unfold Statement.ofLine
  split
  · next hline =>
    have hslice : Statement.slice? line = none := by
      rw [hline]
      rfl
    rw [hslice, Option.toList_none, List.append_nil]
    rfl
  split
  · next rest hrest =>
    have hslice : Statement.slice? line = none := by
      rw [Text.eq_append_of_isPrefixOf? hrest]
      rfl
    rw [hslice, Option.toList_none, List.append_nil]
    rfl
  · cases Statement.slice? line with
    | none =>
      rw [Option.toList_none, List.append_nil]
      rfl
    | some s => rfl

/-- Slices that are there already stay in front of those that are read. -/
theorem readLines_withSlices (chart : PieChart) (slices : List PieSlice) (lines : List Line) :
    readLines (chart.withSlices slices) lines =
      (readLines chart lines).withSlices (slices ++ lines.filterMap Statement.slice?) := by
  induction lines generalizing chart slices with
  | nil => exact congrArg chart.withSlices (List.append_nil slices).symm
  | cons line lines ih =>
    have hslices : slices ++ (line :: lines).filterMap Statement.slice? =
        slices ++ (Statement.slice? line).toList ++ lines.filterMap Statement.slice? := by
      rw [List.filterMap_cons, List.append_assoc]
      cases Statement.slice? line <;> rfl
    rw [hslices, readLines, List.foldl_cons, apply_withSlices, ← readLines]
    exact ih _ _

/-- Every slice line adds its own slice behind those that are there. -/
theorem slices_readLines (chart : PieChart) (lines : List Line) :
    (readLines chart lines).slices = chart.slices ++ lines.filterMap Statement.slice? :=
  congrArg slices (readLines_withSlices chart chart.slices lines)

/-- A line that is a slice adds it before those of later lines. -/
theorem readLines_cons_slice {rest : List Char} (hquote : line = '"' :: rest) {s : PieSlice}
    (h : Statement.slice? line = some s) (chart : PieChart) (lines : List Line) :
    readLines chart (line :: lines) = (readLines chart lines).withSlices
      (chart.slices ++ s :: lines.filterMap Statement.slice?) := by
  have hline : Statement.IsSliceLine line := ⟨rest, by rw [hquote]; rfl⟩
  have hadded := readLines_withSlices chart (chart.slices ++ [s]) lines
  rw [List.append_assoc, List.singleton_append] at hadded
  rw [readLines, List.foldl_cons, hline.ofLine_eq, h]
  exact hadded

theorem readLines_cons_skipped {rest : List Char} (hquote : line = '"' :: rest)
    (h : Statement.slice? line = none) (chart : PieChart) (lines : List Line) :
    readLines chart (line :: lines) = readLines chart lines := by
  have hline : Statement.IsSliceLine line := ⟨rest, by rw [hquote]; rfl⟩
  rw [readLines, List.foldl_cons, hline.ofLine_eq, h]
  rfl

theorem slices_ofHeader (header : Line) : (ofHeader header).slices = [] := by
  unfold ofHeader
  split <;> rfl

/-- The slices that have been read are those of the lines below the header. -/
theorem slices_of_reading {lines : List Line} {chart : PieChart}
    (h : Reading.ofLines lines = .ok (.pie chart)) :
    chart.slices = lines.tail.filterMap Statement.slice? := by
  cases lines with
  | nil => cases h
  | cons header lines =>
    have hstart := Reading.eq_readLines_start h
    have hchart : chart = readLines (ofHeader header) lines :=
      Reading.pie.inj (hstart.trans (Reading.readLines_pie _ lines))
    rw [hchart, slices_readLines, slices_ofHeader]
    rfl

/-- The slices of a chart are those of its slice lines, each by itself and in order; what is such a line
is told by its form alone. A line with a label in double quotes, a colon and a text of digits and points
adds one slice with the label and the value of the number, between those of the lines before and after
it. It is as if the line were not there if it has no digit or several points. -/
theorem slices_read_back {text : String} {chart : PieChart}
    (h : Diagram.parse text = .ok (.pie chart)) :
    chart.slices = (Text.significantLines text.toList).tail.filterMap Statement.slice? ∧
    (∀ line s, Statement.slice? line = some s ↔
      ∃ number, Spells line s.label.toList number ∧ s.label.toList ≠ [] ∧ '\n' ∉ s.label.toList ∧
        Decimal.IsNumeral number ∧ s.value = Decimal.ofNumeral number) ∧
    (∀ number, (Decimal.ofNumeral number).toRat = Decimal.valueOf number) ∧
    ∀ before line after label number,
      Text.splitLines text.toList = before ++ line :: after → Spells line label number →
      label ≠ [] → (∀ c ∈ label, Text.isLineBreak c = false) →
      (∀ c ∈ number, c.isDigit = true ∨ c = '.') →
      ∀ t : String, Text.splitLines t.toList = before ++ after →
        (Decimal.IsNumeral number →
          chart.slices = (Text.significant before).tail.filterMap Statement.slice? ++
            ⟨String.ofList label, Decimal.ofNumeral number⟩ ::
              (Text.significant after).filterMap Statement.slice? ∧
          Diagram.parse t = .ok (.pie (chart.withSlices
            ((Text.significant before).tail.filterMap Statement.slice? ++
              (Text.significant after).filterMap Statement.slice?)))) ∧
        (¬Decimal.IsNumeral number → Diagram.parse t = .ok (.pie chart)) := by
  refine ⟨?_, fun _ _ => Statement.slice?_eq_some_iff, Decimal.toRat_ofNumeral,
    fun before line after label number hsplit hspells hne hwhole hnumber t ht => ?_⟩
  · obtain ⟨s, hs, hfinish⟩ := Diagram.exists_ofText_of_parse h
    obtain rfl : s = .pie chart := by
      cases s <;> first | exact congrArg Reading.pie (Diagram.pie.inj hfinish) | cases hfinish
    exact slices_of_reading hs
  · -- A slice line starts with a quote, so it is significant and no header.
    obtain ⟨rest, hquote⟩ := hspells.exists_trim_eq hnumber
    obtain ⟨hsignificant, hkeyword⟩ := significant?_of_quote hquote
    have hheader := Reading.significant_ne_nil_of_parse h hsplit hsignificant hkeyword
    obtain ⟨s, hs, hkind, hfinish⟩ := Reading.exists_of_parse h hsplit hheader
    cases s with
    | pie known =>
      -- What stands before the line is read first, then the line and what follows it.
      have hslices := slices_of_reading hs
      have hparse := Reading.parse_of_splitLines hs ht
      rw [Text.significant_cons, hsignificant, Reading.readLines_pie] at hfinish
      rw [Reading.readLines_pie] at hparse
      obtain rfl := Diagram.pie.inj hfinish
      have hfeed : '\n' ∉ label := fun hmem => absurd (hwhole '\n' hmem) (by decide)
      have hread := Statement.slice?_of_spells (hspells.trim hnumber) hnumber
      rw [if_neg (not_or.2 ⟨hne, hfeed⟩)] at hread
      rw [Option.toList_some, List.singleton_append, ← hslices]
      constructor
      · intro hnumeral
        rw [Decimal.ofText?_eq_some_iff.2 ⟨hnumeral, rfl⟩] at hread
        have hrest := readLines_withSlices known known.slices (Text.significant after)
        rw [readLines_cons_slice hquote hread]
        refine ⟨rfl, hparse.trans ?_⟩
        exact congrArg (fun chart => Except.ok (Diagram.pie chart)) hrest
      · intro hnumeral
        have hnone : Decimal.ofText? number = none := by
          cases hvalue : Decimal.ofText? number with
          | none => rfl
          | some value => exact absurd (Decimal.ofText?_eq_some_iff.1 hvalue).1 hnumeral
        rw [hnone] at hread
        rw [readLines_cons_skipped hquote hread]
        exact hparse
    | _ => cases hkind

/-- Two slices with one label, which has double quotes and a colon, and a line with two points between
them. -/
theorem slices_read_back_of_quotes :
    ∃ chart : PieChart,
      Diagram.parse "pie\n \"a\" : \"b\"  :1.50\n\"a\" : 1.2.3\n\"a\" : \"b\" : .5" = .ok (.pie chart) ∧
      chart.slices = [⟨"a\" : \"b", ⟨150, -2⟩⟩, ⟨"a\" : \"b", ⟨5, -1⟩⟩] ∧
      Diagram.parse "pie\n\"a\" : 1.2.3\n\"a\" : \"b\" : .5" =
        .ok (.pie (chart.withSlices [⟨"a\" : \"b", ⟨5, -1⟩⟩])) ∧
      Diagram.parse "pie\n \"a\" : \"b\"  :1.50\n\"a\" : \"b\" : .5" = .ok (.pie chart) := by
  have hparse : Diagram.parse
      "pie\n \"a\" : \"b\"  :1.50\n\"a\" : 1.2.3\n\"a\" : \"b\" : .5" =
        .ok (.pie ⟨none, [⟨"a\" : \"b", ⟨150, -2⟩⟩, ⟨"a\" : \"b", ⟨5, -1⟩⟩], false⟩) := rfl
  obtain ⟨-, -, -, hline⟩ := slices_read_back hparse
  have hslice : Spells " \"a\" : \"b\"  :1.50".toList "a\" : \"b".toList "1.50".toList :=
    ⟨[' '], [' ', ' '], [], [], rfl, by decide, by decide, by decide, by decide⟩
  have hfault : Spells "\"a\" : 1.2.3".toList "a".toList "1.2.3".toList :=
    ⟨[], [' '], [' '], [], rfl, by decide, by decide, by decide, by decide⟩
  have hnumeral : Decimal.IsNumeral "1.50".toList :=
    ⟨by decide, ⟨'1', by decide, by decide⟩, by decide⟩
  have htwice : ¬Decimal.IsNumeral "1.2.3".toList := fun h => absurd h.point (by decide)
  have hadded := (hline ["pie".toList] " \"a\" : \"b\"  :1.50".toList
    ["\"a\" : 1.2.3".toList, "\"a\" : \"b\" : .5".toList] "a\" : \"b".toList "1.50".toList
    (by decide) hslice (by decide) (by decide) (by decide)
    "pie\n\"a\" : 1.2.3\n\"a\" : \"b\" : .5" (by decide)).1 hnumeral
  have hskipped := (hline ["pie".toList, " \"a\" : \"b\"  :1.50".toList]
    "\"a\" : 1.2.3".toList ["\"a\" : \"b\" : .5".toList] "a".toList "1.2.3".toList
    (by decide) hfault (by decide) (by decide) (by decide)
    "pie\n \"a\" : \"b\"  :1.50\n\"a\" : \"b\" : .5" (by decide)).2 htwice
  exact ⟨_, hparse, hadded.1, hadded.2, hskipped⟩

end TextDiagram.PieChart
