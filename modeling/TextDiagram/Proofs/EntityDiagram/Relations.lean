import Mathlib.Data.List.Infix
import TextDiagram.Proofs.Mention
import TextDiagram.Proofs.Rejection
import TextDiagram.Proofs.Text.Ident
import TextDiagram.Proofs.Text.Quoted
/-!
# Relationships of entities as they are written

A relationship is written as its source, an operator, its target, a colon and a label, with spaces
around the operator and the colon if wanted. An operator is made of two dashes between two end markers,
and each marker denotes the cardinality of its end. Names may hold hyphens and the letter that some
markers start with, and yet no name runs together with the operator beside it: a marker has a sign that
stands in no name, and an operator ends with one.

Main statements:

* `not_prefix_beside`: no operator starts in a name in front of an operator.
* `findToken_relationLine`: which operator is found in the line, and where.
* `ofLine_relationLine`: what the line says.
* `relationships_read_back`: what the line does below any text and by itself.
-/

namespace TextDiagram.EntityDiagram

/-! ## The table of operators -/

/-- What the end markers of an operator denote. -/
def endMarkers : List (List Char × Cardinality) :=
  [("||".toList, .exactlyOne), ("|o".toList, .zeroOrOne), ("o|".toList, .zeroOrOne),
    ("\x7do".toList, .zeroOrMore), ("o\x7b".toList, .zeroOrMore), ("\x7d|".toList, .oneOrMore),
    ("|\x7b".toList, .oneOrMore)]

/-- An operator is made of two dashes between two markers, which denote its cardinalities. -/
theorem markers_of_mem : ∀ entry ∈ cardinalityTokens,
    entry.1 = entry.1.take 2 ++ "--".toList ++ entry.1.drop 4 ∧
      (entry.1.take 2, entry.2.source) ∈ endMarkers ∧
      (entry.1.drop 4, entry.2.target) ∈ endMarkers := by
  decide

/-- No token is listed twice. -/
theorem nodup_cardinalityTokens : (cardinalityTokens.map Prod.fst).Nodup := by decide

/-- No operator that is looked for earlier stands in an operator. -/
theorem earlier_cardinalityTokens : ∀ entry ∈ cardinalityTokens,
    ∀ other ∈ Text.earlier cardinalityTokens entry.1, ¬other.1 <:+: entry.1 := by
  decide

/-- A character that stands beside operators: one of a name or a space. -/
def isBeside (c : Char) : Bool := isNameChar c || c == ' '

/-- An operator ends with a sign. -/
theorem nil_of_suffix : ∀ entry ∈ cardinalityTokens, ∀ s ∈ entry.1.tails,
    (∀ c ∈ s, isBeside c = true) → s = [] := by
  decide

/-- It may start with a letter, but not with more of a name. -/
theorem letter_of_prefix : ∀ entry ∈ cardinalityTokens, ∀ s ∈ entry.1.inits,
    (∀ c ∈ s, isBeside c = true) → s = [] ∨ s = ['o'] := by
  decide

/-- What follows that letter in one operator does not start another one. -/
theorem not_prefix_tail : ∀ entry ∈ cardinalityTokens, ∀ other ∈ cardinalityTokens,
    other.1.head? = some 'o' → ¬other.1.tail <+: entry.1 := by
  decide

/-- Every token has six characters: a marker, a line and a marker. -/
theorem length_of_mem : ∀ entry ∈ cardinalityTokens, entry.1.length = 6 := by decide

/-- Tokens have no colons, no spaces and no line breaks. -/
theorem cardinalityTokens_chars : ∀ entry ∈ cardinalityTokens,
    ∀ c ∈ entry.1, c ≠ ':' ∧ c ≠ ' ' ∧ Text.isLineBreak c = false := by
  decide

section

variable {entry other : List Char × Ends}

/-- No token occurs beside an operator. -/
theorem not_infix_beside (hentry : entry ∈ cardinalityTokens) {t : List Char}
    (h : ∀ c ∈ t, isBeside c = true) : ¬entry.1 <:+: t := by
  intro hoccurs
  have hempty := nil_of_suffix entry hentry entry.1 ((List.mem_tails _ _).2 (List.suffix_refl _))
    fun c hc => h c (hoccurs.subset hc)
  have hlength := length_of_mem entry hentry
  rw [hempty] at hlength
  cases hlength

/-- No operator starts in a name, or in spaces, in front of an operator. -/
theorem not_prefix_beside (hentry : entry ∈ cardinalityTokens) (hother : other ∈ cardinalityTokens)
    {s : List Char} (hne : s ≠ []) (h : ∀ c ∈ s, isBeside c = true) (rest : List Char) :
    ¬other.1 <+: s ++ (entry.1 ++ rest) := by
  intro hprefix
  obtain hinside | hover := List.prefix_or_prefix_of_prefix hprefix (List.prefix_append s _)
  · exact not_infix_beside hother (fun c hc => h c (hinside.subset hc)) (List.infix_refl _)
  · obtain rfl | rfl := letter_of_prefix other hother s ((List.mem_inits _ _).2 hover) h
    · exact hne rfl
    · -- Only the letter is shared, so the rest of the operator would have to start anew.
      obtain ⟨tail, htail⟩ := hover
      rw [← htail, List.prefix_append_right_inj] at hprefix
      have hlength : tail.length ≤ entry.1.length := by
        have hparts := congrArg List.length htail
        rw [length_of_mem other hother] at hparts
        rw [length_of_mem entry hentry]
        simp at hparts
        omega
      have hinside : tail <+: entry.1 :=
        List.prefix_of_prefix_length_le hprefix (List.prefix_append _ _) hlength
      exact not_prefix_tail entry hentry other hother (htail ▸ rfl) (htail ▸ hinside)

/-- Between names only what stands in the operator itself is found. -/
theorem infix_of_infix_beside (hentry : entry ∈ cardinalityTokens)
    (hother : other ∈ cardinalityTokens) {left right : List Char}
    (hleft : ∀ c ∈ left, isBeside c = true) (hright : ∀ c ∈ right, isBeside c = true)
    (h : other.1 <:+: left ++ (entry.1 ++ right)) : other.1 <:+: entry.1 := by
  rw [List.infix_append_iff] at h
  obtain h | h | ⟨s, r, hsplit, hs, hr⟩ := h
  · exact absurd h (not_infix_beside hother hleft)
  · rw [List.infix_append_iff] at h
    obtain h | h | ⟨s, r, hsplit, hs, hr⟩ := h
    · exact h
    · exact absurd h (not_infix_beside hother hright)
    · -- What would reach into the name behind the operator ends with a sign.
      have hempty : r = [] := nil_of_suffix other hother r
        ((List.mem_tails _ _).2 (hsplit ▸ List.suffix_append s r))
        fun c hc => hright c (hr.subset hc)
      rw [hsplit, hempty, List.append_nil]
      exact hs.isInfix
  · -- What would reach out to the left begins with an end of the name there, or right at the
    -- operator.
    by_cases hne : s = []
    · subst hne
      rw [List.nil_append] at hsplit
      rw [hsplit]
      have hprefix : r <+: entry.1 ++ right := hr
      -- All tokens are equally long, so one that begins with the operator ends with it.
      have hle : r.length ≤ entry.1.length := by
        rw [← hsplit, length_of_mem other hother, length_of_mem entry hentry]
      exact (List.prefix_of_prefix_length_le hprefix (List.prefix_append _ _) hle).isInfix
    · have hprefix : other.1 <+: s ++ (entry.1 ++ right) := by
        rw [hsplit, List.prefix_append_right_inj]
        exact hr
      exact absurd hprefix (not_prefix_beside hentry hother hne
        (fun c hc => hleft c (hs.subset hc)) right)

end

/-! ## How a relationship is written -/

/-- A name of an entity. -/
structure IsName (name : String) : Prop where
  ne_nil : name.toList ≠ []
  chars : ∀ c ∈ name.toList, isNameChar c = true

/-- A label of one line without an operator in it. -/
structure IsLabel (label : String) : Prop where
  line : ∀ c ∈ label.toList, Text.isLineBreak c = false
  operator : ∀ entry ∈ cardinalityTokens, ¬entry.1 <:+: label.toList

/-- Some spaces. -/
def spaces (n : Nat) : List Char := List.replicate n ' '

/-- A relationship with some spaces before and after its operator and its colon. -/
def relationText (source operator target label : String) (before after between last : Nat) :
    String :=
  source ++ String.ofList (spaces before) ++ operator ++ String.ofList (spaces after) ++ target ++
    String.ofList (spaces between) ++ ":" ++ String.ofList (spaces last) ++ label

/-- The line of a relationship, with the text after its colon. -/
def relationLine (source operator target tail : List Char) (before after between : Nat) : Line :=
  (source ++ spaces before) ++
    (operator ++ ((spaces after ++ target ++ spaces between) ++ ':' :: tail))

/-- The characters of the line of a relationship. -/
theorem toList_relationText (source operator target label : String)
    (before after between last : Nat) :
    (relationText source operator target label before after between last).toList =
      relationLine source.toList operator.toList target.toList (spaces last ++ label.toList)
        before after between := by
  have hcolon : ":".toList = [':'] := rfl
  simp [relationText, relationLine, hcolon]

/-- Names have no blanks. -/
theorem isBlank_of_isNameChar {c : Char} (h : isNameChar c = true) : Text.isBlank c = false := by
  rw [isNameChar, Bool.or_eq_true, beq_iff_eq] at h
  obtain h | rfl := h
  · exact Text.isBlank_of_isIdentChar h
  · decide

/-- No colon stands beside an operator. -/
theorem ne_colon_of_isBeside {c : Char} (h : isBeside c = true) : c ≠ ':' := by
  rintro rfl
  exact absurd h (by decide)

/-- Names may stand beside an operator. -/
theorem isBeside_of_isNameChar {c : Char} (h : isNameChar c = true) : isBeside c = true := by
  rw [isBeside, h]
  rfl

/-- Spaces may stand beside an operator. -/
theorem isBeside_spaces {n : Nat} : ∀ c ∈ spaces n, isBeside c = true := by
  intro c hc
  rw [List.eq_of_mem_replicate hc]
  decide

/-- Spaces are blanks. -/
theorem isBlank_spaces {n : Nat} : ∀ c ∈ spaces n, Text.isBlank c = true :=
  Text.isBlank_of_mem_replicate

/-- Spaces in front of a text bring no operator into it. -/
theorem not_infix_spaces_append {entry : List Char × Ends} (hentry : entry ∈ cardinalityTokens)
    {n : Nat} {t : List Char} (h : ¬entry.1 <:+: t) : ¬entry.1 <:+: spaces n ++ t := by
  cases n with
  | zero => exact h
  | succ n =>
    have hspace : (spaces (n + 1)).Disjoint entry.1 := by
      intro c hc hmem
      exact (cardinalityTokens_chars entry hentry c hmem).2.1 (List.eq_of_mem_replicate hc)
    have hne : spaces (n + 1) ≠ [] := List.cons_ne_nil _ _
    have hempty : ¬entry.1 <:+: [] := not_infix_beside hentry nofun
    rw [← List.nil_append (spaces (n + 1) ++ t), Text.infix_append_iff_of_disjoint hne hspace]
    exact fun hoccurs => hoccurs.elim hempty h

section

variable {source operator target : String} {ends : Ends} {tail : List Char}
variable {before after between : Nat}

/-- What is on the left may stand beside an operator. -/
theorem isBeside_left (hsource : IsName source) :
    ∀ c ∈ source.toList ++ spaces before, isBeside c = true :=
  List.forall_mem_append.2
    ⟨fun c hc => isBeside_of_isNameChar (hsource.chars c hc), isBeside_spaces⟩

/-- What is on the right, up to the colon, may stand beside an operator. -/
theorem isBeside_right (htarget : IsName target) :
    ∀ c ∈ spaces after ++ target.toList ++ spaces between, isBeside c = true := by
  rw [List.forall_mem_append, List.forall_mem_append]
  exact ⟨⟨isBeside_spaces, fun c hc => isBeside_of_isNameChar (htarget.chars c hc)⟩,
    isBeside_spaces⟩

/-! ## Which operator is found -/

/-- No operator that is looked for earlier stands in the line unless it stands behind the colon. -/
theorem not_infix_relationLine (hmem : (operator.toList, ends) ∈ cardinalityTokens)
    (hsource : IsName source) (htarget : IsName target)
    (htail : ∀ entry ∈ cardinalityTokens, ¬entry.1 <:+: tail) :
    ∀ entry ∈ Text.earlier cardinalityTokens operator.toList, ¬entry.1 <:+:
      relationLine source.toList operator.toList target.toList tail before after between := by
  intro entry hentry hoccurs
  have hin := Text.mem_of_mem_earlier hentry
  -- No operator has a colon in it, so none reaches across that of the line.
  have hcolon : [':'].Disjoint entry.1 := by
    intro c hc hmem
    exact (cardinalityTokens_chars entry hin c hmem).1 (List.mem_singleton.1 hc)
  have hline : relationLine source.toList operator.toList target.toList tail before after between =
      ((source.toList ++ spaces before) ++ (operator.toList ++
        (spaces after ++ target.toList ++ spaces between))) ++ ([':'] ++ tail) := by
    simp [relationLine]
  rw [hline, Text.infix_append_iff_of_disjoint (List.cons_ne_nil _ _) hcolon] at hoccurs
  obtain hoccurs | hoccurs := hoccurs
  · exact earlier_cardinalityTokens _ hmem entry hentry
      (infix_of_infix_beside hmem hin (isBeside_left hsource) (isBeside_right htarget) hoccurs)
  · exact htail entry hin hoccurs

/-- The operator that was written is found where it was written. -/
theorem findToken_relationLine (hmem : (operator.toList, ends) ∈ cardinalityTokens)
    (hsource : IsName source) (htarget : IsName target)
    (htail : ∀ entry ∈ cardinalityTokens, ¬entry.1 <:+: tail) :
    Text.findToken cardinalityTokens
        (relationLine source.toList operator.toList target.toList tail before after between) =
      some (source.toList ++ spaces before, ends,
        (spaces after ++ target.toList ++ spaces between) ++ ':' :: tail) := by
  have hcut : Text.cut operator.toList
      (relationLine source.toList operator.toList target.toList tail before after between) =
        some (source.toList ++ spaces before,
          (spaces after ++ target.toList ++ spaces between) ++ ':' :: tail) := by
    have hstart : ∀ s, s <:+ source.toList ++ spaces before → s ≠ [] → ¬operator.toList <+:
        s ++ (operator.toList ++ ((spaces after ++ target.toList ++ spaces between) ++ ':' :: tail)) :=
      fun s hs hne => not_prefix_beside hmem hmem hne
        (fun c hc => isBeside_left hsource c (hs.subset hc)) _
    rw [relationLine, Text.cut_append hstart, Text.cut_append_pattern, Option.map_some,
      List.append_nil]
  exact Text.findToken_eq_some nodup_cardinalityTokens hmem
    (not_infix_relationLine hmem hsource htarget htail) hcut

/-! ## How the line is read -/

/-- A name is read back, whatever blanks stand around it. -/
theorem wholeName?_append (hsource : IsName source) {left right : List Char}
    (hleft : ∀ c ∈ left, Text.isBlank c = true) (hright : ∀ c ∈ right, Text.isBlank c = true) :
    wholeName? (left ++ source.toList ++ right) = some source := by
  have hname : Text.trim source.toList = source.toList :=
    Text.trim_of_forall_not_isBlank fun c hc => isBlank_of_isNameChar (hsource.chars c hc)
  have htrim : Text.trim (left ++ source.toList ++ right) = source.toList := by
    rw [Text.trim_append_right hright, Text.trim_append_left hleft, hname]
  have hall : source.toList.all isNameChar = true := List.all_eq_true.2 hsource.chars
  rw [wholeName?, htrim]
  simp [hall, hsource.ne_nil]

/-- A line is read as the relationship that it was written for. -/
theorem relationship?_relationLine (hmem : (operator.toList, ends) ∈ cardinalityTokens)
    (hsource : IsName source) (htarget : IsName target)
    (htail : ∀ entry ∈ cardinalityTokens, ¬entry.1 <:+: tail) :
    relationship? (relationLine source.toList operator.toList target.toList tail
        before after between) =
      some ⟨source, target, String.ofList (Text.unquote tail), ends.source, ends.target⟩ := by
  have hcolon : Text.cut [':'] ((spaces after ++ target.toList ++ spaces between) ++ ':' :: tail) =
      some (spaces after ++ target.toList ++ spaces between, tail) :=
    Text.cut_append_self (fun hmem => ne_colon_of_isBeside (isBeside_right htarget _ hmem) rfl) tail
  have hleft : wholeName? ([] ++ source.toList ++ spaces before) = some source :=
    wholeName?_append hsource (by simp) isBlank_spaces
  rw [List.nil_append] at hleft
  have hright := wholeName?_append htarget (isBlank_spaces (n := after))
    (isBlank_spaces (n := between))
  simp only [relationship?, findToken_relationLine hmem hsource htarget htail, Option.bind_some,
    hcolon, hleft, hright, Option.map_some]

/-- A line with a colon opens no block. -/
theorem blockName?_eq_none {line : Line} (h : ':' ∈ line) : blockName? line = none := by
  cases hrun : Text.run? isNameChar line with
  | none => rw [blockName?, hrun, Option.bind_none]
  | some parts =>
    -- The colon stands behind the name, and there it is no blank and no brace.
    obtain ⟨name, rest⟩ := parts
    have hrest : ':' ∈ rest := by
      rw [Text.eq_append_of_run? hrun, List.mem_append] at h
      exact h.resolve_left fun hmem => absurd (Text.forall_of_run? hrun _ hmem) (by decide)
    have hstart : Text.trimStart rest ≠ ['\x7b'] := by
      intro hbrace
      have hkept : ':' ∈ Text.trimStart rest := Text.mem_trimStart hrest (by decide)
      rw [hbrace] at hkept
      exact absurd hkept (by decide)
    rw [blockName?, hrun, Option.bind_some]
    exact if_neg hstart

/-- What is written as a relationship is one, and opens no block. -/
theorem ofLine_relationLine (hmem : (operator.toList, ends) ∈ cardinalityTokens)
    (hsource : IsName source) (htarget : IsName target)
    (htail : ∀ entry ∈ cardinalityTokens, ¬entry.1 <:+: tail) :
    Statement.ofLine (relationLine source.toList operator.toList target.toList tail
        before after between) =
      .relate ⟨source, target, String.ofList (Text.unquote tail), ends.source, ends.target⟩ := by
  have hcolon : ':' ∈ relationLine source.toList operator.toList target.toList tail
      before after between := by
    simp [relationLine]
  rw [Statement.ofLine, blockName?_eq_none hcolon,
    relationship?_relationLine hmem hsource htarget htail]

/-- The line loses only blanks after its colon when it is trimmed. -/
theorem significant?_relationLine (hsource : IsName source) (operator target : List Char) :
    Text.significant? (relationLine source.toList operator target tail before after between) =
      some (relationLine source.toList operator target (Text.trimEnd tail)
        before after between) := by
  obtain ⟨c, rest, hchars⟩ := List.exists_cons_of_ne_nil hsource.ne_nil
  have hc : isNameChar c = true := hsource.chars c (hchars ▸ List.mem_cons_self)
  have hcomment : c ≠ '%' := by
    rintro rfl
    exact absurd hc (by decide)
  have hline : ∀ tail, relationLine source.toList operator target tail before after between =
      c :: ((rest ++ spaces before ++ operator ++ (spaces after ++ target ++ spaces between)) ++
        ':' :: tail) := by
    intro tail
    simp [relationLine, hchars]
  rw [hline, hline]
  exact Text.significant?_cons_append (isBlank_of_isNameChar hc) hcomment (by decide) _ _

/-- The line of a relationship is one line. -/
theorem not_isLineBreak_of_mem_relationLine (hmem : (operator.toList, ends) ∈ cardinalityTokens)
    (hsource : IsName source) (htarget : IsName target)
    (htail : ∀ c ∈ tail, Text.isLineBreak c = false) :
    ∀ c ∈ relationLine source.toList operator.toList target.toList tail before after between,
      Text.isLineBreak c = false := by
  have hname : ∀ {name : String}, IsName name → ∀ c ∈ name.toList, Text.isLineBreak c = false := by
    intro name h c hc
    rw [← Bool.not_eq_true]
    intro hbreak
    have hblank := isBlank_of_isNameChar (h.chars c hc)
    rw [Text.isBlank_of_isLineBreak hbreak] at hblank
    cases hblank
  have hspaces : ∀ {n : Nat}, ∀ c ∈ spaces n, Text.isLineBreak c = false :=
    Text.not_isLineBreak_of_mem_replicate
  simp only [relationLine, List.forall_mem_append, List.forall_mem_cons]
  exact ⟨⟨hname hsource, hspaces⟩, fun c hc => (cardinalityTokens_chars _ hmem c hc).2.2,
    ⟨⟨hspaces, hname htarget⟩, hspaces⟩, by decide, htail⟩

end

/-! ## What a line does outside a block -/

/-- The draft with one relationship more. The two entities that it names are declared. -/
def Draft.related (d : Draft) (r : EntityRelationship) : Draft :=
  { d with
    entities := declared (declared d.entities r.source) r.target
    relationships := d.relationships ++ [r] }

/-- The line says the relationship and nothing else: read outside a block it declares the two entities
and relates them, and so it does at the end of a text in which no block is open there. It is one line,
whatever its names and its label. -/
structure Spells (line : String) (r : EntityRelationship) : Prop where
  whole : ∀ c ∈ line.toList, Text.isLineBreak c = false
  effect : Reading.HasEffect Reading.entities (fun d => d.current = none) (fun d => d.related r) line

/-- A line spells a relationship if it is read as one, trimmed or not. -/
theorem Spells.of_ofLine {line : String} {kept : Line} {r : EntityRelationship}
    (hwhole : ∀ c ∈ line.toList, Text.isLineBreak c = false)
    (hsignificant : Text.significant? line.toList = some kept)
    (hline : Statement.ofLine line.toList = .relate r) (hkept : Statement.ofLine kept = .relate r) :
    Spells line r := by
  have hreads : ∀ {line : Line}, Statement.ofLine line = .relate r → ∀ d : Draft, d.current = none →
      (Reading.entities d).readLine line = .entities (d.related r) := by
    intro line hline d hd
    rw [Reading.readLine, Draft.readLine, hd, hline]
    rfl
  exact ⟨hwhole, .of_significant hsignificant (hreads hline) (hreads hkept)⟩

/-- By itself the line makes a diagram of one relationship between the entities that it names. -/
theorem Spells.parse_alone {line : String} {r : EntityRelationship} (h : Spells line r) :
    Diagram.parse ("erDiagram\n" ++ line) = .ok (.entities
      ⟨Keyed.sorted ([r.source, r.target].eraseDups.map fun name => ⟨name, []⟩), [r]⟩) := by
  have hheader : "erDiagram\n" = "erDiagram" ++ "\n" := by decide
  have hempty : Reading.ofText "erDiagram" = .ok (.entities .empty) := rfl
  have hends : Draft.declared (Draft.declared [] r.source) r.target =
      [r.source, r.target].eraseDups.map fun name => ⟨name, []⟩ :=
    Keyed.ensure_ensure_nil (f := fun name => (⟨name, []⟩ : Entity)) (fun _ => rfl) r.source r.target
  rw [hheader, h.effect.parses h.whole "erDiagram" .empty hempty rfl, ← hends]
  rfl

/-- A relationship is read back from what it is written as, whatever the names and the label and with
any numbers of spaces: with its source, its target and its label, without blanks and quotes around it,
and with the cardinalities that the two markers of its operator denote. It declares its two entities
and no others. -/
theorem relationships_read_back {operator : String} {ends : Ends}
    (hmem : (operator.toList, ends) ∈ cardinalityTokens) {source target label : String}
    (hsource : IsName source) (htarget : IsName target) (hlabel : IsLabel label)
    (before after between last : Nat) :
    (operator.toList.take 2, ends.source) ∈ endMarkers ∧
      (operator.toList.drop 4, ends.target) ∈ endMarkers ∧
      Spells (relationText source operator target label before after between last)
        ⟨source, target, String.ofList (Text.unquote label.toList), ends.source, ends.target⟩ ∧
      Diagram.parse
          ("erDiagram\n" ++ relationText source operator target label before after between last) =
        .ok (.entities ⟨Keyed.sorted ([source, target].eraseDups.map fun name => ⟨name, []⟩),
          [⟨source, target, String.ofList (Text.unquote label.toList), ends.source,
            ends.target⟩]⟩) := by
  obtain ⟨-, hstart, hend⟩ := markers_of_mem _ hmem
  -- The label has no token, and the spaces before it add none.
  have hspaced : ∀ entry ∈ cardinalityTokens, ¬entry.1 <:+: spaces last ++ label.toList :=
    fun entry hentry => not_infix_spaces_append hentry (hlabel.operator entry hentry)
  -- The label may end with blanks, which the trimmed line has lost.
  have hkept : ∀ entry ∈ cardinalityTokens,
      ¬entry.1 <:+: Text.trimEnd (spaces last ++ label.toList) :=
    fun entry hentry hoccurs =>
      hspaced entry hentry (hoccurs.trans (Text.isPrefix_trimEnd _).isInfix)
  have hlabelled : Text.unquote (spaces last ++ label.toList) = Text.unquote label.toList :=
    Text.unquote_congr (Text.trim_append_left isBlank_spaces _)
  have hspells : Spells (relationText source operator target label before after between last)
      ⟨source, target, String.ofList (Text.unquote label.toList), ends.source, ends.target⟩ := by
    refine .of_ofLine ?_ ((congrArg Text.significant? (toList_relationText ..)).trans
      (significant?_relationLine hsource operator.toList target.toList)) ?_ ?_
    · rw [toList_relationText]
      exact not_isLineBreak_of_mem_relationLine hmem hsource htarget
        (List.forall_mem_append.2 ⟨Text.not_isLineBreak_of_mem_replicate, hlabel.line⟩)
    · rw [toList_relationText, ofLine_relationLine hmem hsource htarget hspaced, hlabelled]
    · rw [ofLine_relationLine hmem hsource htarget hkept,
        Text.unquote_congr (Text.trim_trimEnd _), hlabelled]
  exact ⟨hstart, hend, hspells, hspells.parse_alone⟩

/-- Names of hyphens that end and start with the letter of the markers beside them, and a label in quotes
with a colon. -/
theorem relationships_read_back_of_hyphens :
    ("\x7do--o\x7b".toList, ⟨.zeroOrMore, .zeroOrMore⟩) ∈ cardinalityTokens ∧ IsName "--o" ∧
      IsName "o-1" ∧ IsLabel "\"x : y\"" ∧
      Spells "--o\x7do--o\x7bo-1 : \"x : y\""
        ⟨"--o", "o-1", "x : y", .zeroOrMore, .zeroOrMore⟩ := by
  have hmem : ("\x7do--o\x7b".toList, ⟨.zeroOrMore, .zeroOrMore⟩) ∈ cardinalityTokens := by decide
  have hsource : IsName "--o" := ⟨by decide, by decide⟩
  have htarget : IsName "o-1" := ⟨by decide, by decide⟩
  have hnone : ∀ entry ∈ cardinalityTokens, Text.cut entry.1 "\"x : y\"".toList = none := by decide
  have hlabel : IsLabel "\"x : y\"" :=
    ⟨by decide, fun entry hentry => Text.cut_eq_none_iff.1 (hnone entry hentry)⟩
  have hread := relationships_read_back hmem hsource htarget hlabel 0 0 1 1
  have htext : relationText "--o" "\x7do--o\x7b" "o-1" "\"x : y\"" 0 0 1 1 =
      "--o\x7do--o\x7bo-1 : \"x : y\"" := by decide +kernel
  have hunquoted : String.ofList (Text.unquote "\"x : y\"".toList) = "x : y" := by decide +kernel
  rw [htext, hunquoted] at hread
  exact ⟨hmem, hsource, htarget, hlabel, hread.2.2.1⟩

end TextDiagram.EntityDiagram
