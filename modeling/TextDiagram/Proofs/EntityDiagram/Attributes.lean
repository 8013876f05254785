import TextDiagram.EntityDiagram.Attribute
import TextDiagram.Proofs.Text.Ident
import TextDiagram.Proofs.Text.Quoted
/-!
# Attribute lines are read back

An attribute line is a type, a name, keys and a comment with blanks between them; keys and comment may be
missing. A reader takes each part as far as it goes. No part can go further than it was written, as a
blank ends the type and the name, no key starts with a quote and no comma follows the last key. So a line
is read in one way, even if its type or its name looks like a key, a comment or several keys.

Main statements:

* `afterMoreKeys_append`: the keys after the first are skipped, and nothing else is.
* `keys_append`, `comment?_of_spells`: what is read behind the name.
* `attributes_read_back`: the line gives the parts that it was written from.
-/

namespace TextDiagram.EntityAttribute

/-! ## How a line is written -/

/-- A text without blanks. -/
structure IsWord (t : List Char) : Prop where
  ne_nil : t ≠ []
  chars : ∀ c ∈ t, Text.isBlank c = false

/-- Some blanks, at least one. -/
structure IsGap (t : List Char) : Prop where
  ne_nil : t ≠ []
  blanks : ∀ c ∈ t, Text.isBlank c = true

/-- Keys with a comma before each but the first, and any blanks around the commas. -/
inductive SpellsKeys : List AttributeKey → List Char → Prop where
  | last (key : AttributeKey) : SpellsKeys [key] key.code.toList
  | comma (key : AttributeKey) {keys : List AttributeKey} {t : List Char} (before after : List Char)
      (hbefore : ∀ c ∈ before, Text.isBlank c = true) (hafter : ∀ c ∈ after, Text.isBlank c = true)
      (hkeys : SpellsKeys keys t) :
      SpellsKeys (key :: keys) (key.code.toList ++ (before ++ ',' :: (after ++ t)))

/-- What stands between the name and the comment: nothing, or keys behind a gap. -/
inductive SpellsKeyPart : List AttributeKey → List Char → Prop where
  | none : SpellsKeyPart [] []
  | some {keys : List AttributeKey} {gap t : List Char} (hgap : IsGap gap) (hkeys : SpellsKeys keys t) :
      SpellsKeyPart keys (gap ++ t)

/-- What stands at the end: nothing, or a text without quotes in quotes behind a gap. -/
inductive SpellsComment : Option String → List Char → Prop where
  | none : SpellsComment none []
  | some {text : String} {gap : List Char} (hgap : IsGap gap) (hquote : '"' ∉ text.toList) :
      SpellsComment (some text) (gap ++ Text.quote text.toList)

/-- The line is written from a type, a name, keys and a comment. -/
inductive Spells (attributeType name : String) (keys : List AttributeKey) (comment : Option String) :
    List Char → Prop where
  | line {gap keyPart commentPart : List Char} (htype : IsWord attributeType.toList)
      (hgap : IsGap gap) (hname : IsWord name.toList) (hkeys : SpellsKeyPart keys keyPart)
      (hcomment : SpellsComment comment commentPart) :
      Spells attributeType name keys comment
        (attributeType.toList ++ (gap ++ (name.toList ++ (keyPart ++ commentPart))))

/-! ## Words and gaps -/

variable {gap t rest : List Char}

/-- A text behind a gap starts with a blank. -/
theorem IsGap.head_isBlank (h : IsGap gap) (rest : List Char) :
    ∀ c ∈ (gap ++ rest).head?, Text.isBlank c = true := by
  obtain ⟨d, more, rfl⟩ := List.exists_cons_of_ne_nil h.ne_nil
  intro c hc
  obtain rfl := Option.some.inj hc
  exact h.blanks _ List.mem_cons_self

/-- A gap is skipped. -/
theorem afterBlank?_append (h : IsGap gap) (rest : List Char) :
    afterBlank? (gap ++ rest) = some (Text.trimStart rest) := by
  obtain ⟨c, more, rfl⟩ := List.exists_cons_of_ne_nil h.ne_nil
  have hc : Text.isBlank c = true := h.blanks c List.mem_cons_self
  have hmore : ∀ d ∈ more, Text.isBlank d = true := fun d hd => h.blanks d (List.mem_cons_of_mem c hd)
  rw [List.cons_append, afterBlank?, if_pos hc, Text.trimStart_append_left hmore]

/-- A word is read up to the next blank. -/
theorem word?_append (h : IsWord t) (hrest : ∀ c ∈ rest.head?, Text.isBlank c = true) :
    word? (t ++ rest) = some (t, rest) := by
  refine Text.run?_append h.ne_nil ?_ ?_
  · intro c hc
    rw [h.chars c hc]
    rfl
  · intro c hc
    rw [hrest c hc]
    rfl

/-- A word does not start with blanks. -/
theorem IsWord.trimStart_append (h : IsWord t) (rest : List Char) :
    Text.trimStart (t ++ rest) = t ++ rest := by
  obtain ⟨c, more, rfl⟩ := List.exists_cons_of_ne_nil h.ne_nil
  exact Text.trimStart_cons (h.chars c List.mem_cons_self) (more ++ rest)

/-- The code of a key is a word. -/
theorem isWord_code (key : AttributeKey) : IsWord key.code.toList := by
  cases key <;> exact ⟨by decide, by decide⟩

/-! ## Keys -/

variable {keys : List AttributeKey} {comment : Option String} {keyPart commentPart : List Char}

/-- The text behind a list of keys starts with no comma that could belong to a further key. -/
def NoComma (t : List Char) : Prop := (Text.trimStart t).head? ≠ some ','

/-- Without a comma no further key is read. -/
theorem afterMoreKeys_of_noComma (h : NoComma rest) (n : Nat) : afterMoreKeys n rest = rest := by
  cases n with
  | zero => rfl
  | succ n =>
    rw [afterMoreKeys]
    split
    next more htrim => exact absurd (by rw [htrim]; rfl) h
    next => rfl

/-- There are no blanks before the code of a key. -/
theorem trimStart_code_append (key : AttributeKey) (rest : List Char) :
    Text.trimStart (key.code.toList ++ rest) = key.code.toList ++ rest :=
  (isWord_code key).trimStart_append rest

/-- All keys behind the first are skipped, and what follows them is left. -/
theorem afterMoreKeys_append (h : SpellsKeys keys t) :
    ∃ key more, keys.head? = some key ∧ t = key.code.toList ++ more ∧
      ∀ rest, NoComma rest → ∀ n, more.length ≤ n → afterMoreKeys n (more ++ rest) = rest := by
  -- Each round of the reader takes the text that one comma and one key were written as.
  induction h with
  | last key =>
    refine ⟨key, [], rfl, (List.append_nil _).symm, ?_⟩
    intro rest hrest n _
    exact afterMoreKeys_of_noComma hrest n
  | @comma key keys t before after hbefore hafter _ ih =>
    obtain ⟨next, more, -, rfl, hmore⟩ := ih
    refine ⟨key, _, rfl, rfl, ?_⟩
    intro rest hrest n hn
    -- The reader has a round left, as the comma has not been read.
    obtain ⟨n, rfl⟩ : ∃ m, n = m + 1 := ⟨n - 1, by simp at hn; omega⟩
    have hcomma : Text.trimStart ((before ++ ',' :: (after ++ (next.code.toList ++ more))) ++ rest) =
        ',' :: (after ++ (next.code.toList ++ (more ++ rest))) := by
      rw [List.append_assoc, Text.trimStart_append_left hbefore, List.cons_append,
        Text.trimStart_cons (by decide), List.append_assoc, List.append_assoc]
    have hkey : AttributeKey.ofText? (Text.trimStart (after ++ (next.code.toList ++ (more ++ rest)))) =
        some (next, more ++ rest) := by
      rw [Text.trimStart_append_left hafter, trimStart_code_append, AttributeKey.ofText?_code]
    simp only [afterMoreKeys, hcomma, hkey]
    exact hmore rest hrest n (by simp at hn; omega)

/-! ## The comment -/

/-- There are no blanks before a quote. -/
theorem trimStart_quote (t : List Char) : Text.trimStart (Text.quote t) = Text.quote t :=
  Text.trimStart_cons (by decide) _

/-- A comment starts with no comma. -/
theorem noComma_of_spells (h : SpellsComment comment t) : NoComma t := by
  cases h with
  | none => exact nofun
  | @some text gap hgap _ =>
    -- Behind the gap there is a quote.
    rw [NoComma, Text.trimStart_append_left hgap.blanks, trimStart_quote]
    intro hhead
    exact absurd (Option.some.inj hhead) (by decide)

/-- A comment starts with no key. -/
theorem noKey_of_spells (h : SpellsComment comment t) :
    (afterBlank? t).bind AttributeKey.ofText? = none := by
  cases h with
  | none => rfl
  | some hgap _ =>
    rw [afterBlank?_append hgap, trimStart_quote]
    rfl

/-- A comment is read back. -/
theorem comment?_of_spells (h : SpellsComment comment t) : comment? t = some comment := by
  cases h with
  | none => rfl
  | @some text gap hgap hquote =>
    -- Something stands behind the name, so a comment is looked for.
    have hgo : ¬isEnd (gap ++ Text.quote text.toList) = true := by
      obtain ⟨c, more, rfl⟩ := List.exists_cons_of_ne_nil hgap.ne_nil
      simp [isEnd, Text.quote]
    have hread : Text.quoted? (Text.quote text.toList) = some (text.toList, []) := by
      simpa using Text.quoted?_quote hquote []
    rw [comment?, if_neg hgo, afterBlank?_append hgap, trimStart_quote, Option.bind_some, hread]
    simp [isEnd]

/-! ## What stands behind the name -/

/-- The first key is kept, and the comment is left. A line without keys has none in its comment. -/
theorem keys_append (hkeys : SpellsKeyPart keys keyPart) (hcomment : SpellsComment comment commentPart) :
    EntityAttribute.keys (keyPart ++ commentPart) = (keys.head?, commentPart) := by
  cases hkeys with
  | none =>
    rw [EntityAttribute.keys, List.nil_append, noKey_of_spells hcomment]
    rfl
  | @some _ gap t hgap hkeys =>
    obtain ⟨key, more, hhead, rfl, hmore⟩ := afterMoreKeys_append hkeys
    have hfirst : (afterBlank? (gap ++ (key.code.toList ++ more) ++ commentPart)).bind
        AttributeKey.ofText? = some (key, more ++ commentPart) := by
      rw [List.append_assoc, List.append_assoc, afterBlank?_append hgap, trimStart_code_append,
        Option.bind_some, AttributeKey.ofText?_code]
    have hrest := hmore commentPart (noComma_of_spells hcomment) (more ++ commentPart).length (by simp)
    simp only [EntityAttribute.keys, hfirst, hrest, hhead]

/-- Whatever stands behind the name starts with a blank. -/
theorem head_isBlank_of_parts (hkeys : SpellsKeyPart keys keyPart)
    (hcomment : SpellsComment comment commentPart) :
    ∀ c ∈ (keyPart ++ commentPart).head?, Text.isBlank c = true := by
  cases hkeys with
  | some hgap _ =>
    rw [List.append_assoc]
    exact hgap.head_isBlank _
  | none =>
    cases hcomment with
    | some hgap _ => exact hgap.head_isBlank _
    | none => exact nofun

/-! ## The line -/

/-- Type and name may be any texts without blanks, such as a key code or a text in quotes. -/
theorem attributes_read_back {attributeType name : String} {line : List Char}
    (h : Spells attributeType name keys comment line) :
    ofText? line = some ⟨attributeType, name, keys.head?, comment⟩ := by
  obtain ⟨htype, hgap, hname, hkeys, hcomment⟩ := h
  have hname' := word?_append hname (head_isBlank_of_parts hkeys hcomment)
  simp only [ofText?, word?_append htype (hgap.head_isBlank _), afterBlank?_append hgap,
    hname.trimStart_append, hname', keys_append hkeys hcomment, comment?_of_spells hcomment,
    Option.bind_some, Option.map_some, String.ofList_toList]

/-- The type is a key code, the name looks like the start of a list of keys, and the comment looks like
a list of keys too. -/
theorem attributes_read_back_of_look_alikes :
    ofText? "PK\t\"FK\", FK ,UK  \"PK, FK\"".toList =
      some ⟨"PK", "\"FK\",", some .foreign, some "PK, FK"⟩ := by
  have hkeys : SpellsKeys [.foreign, .unique] "FK ,UK".toList :=
    .comma .foreign [' '] [] (by decide) (by decide) (.last .unique)
  have htab : IsGap ['\t'] := ⟨by decide, by decide⟩
  have hblank : IsGap [' '] := ⟨by decide, by decide⟩
  have hblanks : IsGap [' ', ' '] := ⟨by decide, by decide⟩
  have htype : IsWord "PK".toList := ⟨by decide, by decide⟩
  have hname : IsWord "\"FK\",".toList := ⟨by decide, by decide⟩
  have hcomment : SpellsComment (some "PK, FK") ([' ', ' '] ++ Text.quote "PK, FK".toList) :=
    .some hblanks (by decide)
  exact attributes_read_back (.line htype htab hname (.some hblank hkeys) hcomment)

end TextDiagram.EntityAttribute
