import TextDiagram.Flowchart.NodeRef
import TextDiagram.Proofs.Text.Cut
import TextDiagram.Proofs.Text.Ident
import TextDiagram.Proofs.Text.Quoted
/-!
# Mentions as they are written

A label in double quotes may hold brackets and quotes of its own: the bracket that opens it tells where
it starts, and the text ends where it ends. Only three colons in a label would be taken for those in
front of a style name.

Main statements:

* `bracketed?_quoted`: of the brackets in the table those that were written are found.
* `cut_quotedBody_append`: a mention is cut in front of its style name.
* `ofText?_quotedText`: what is written as a mention with a quoted label is read back.
-/

namespace TextDiagram

/-- The bracket in front of the label of a node of this shape. -/
def NodeShape.opening : NodeShape → String
  | .circle => "(("
  | .stadium => "(["
  | .hexagon => "\x7b\x7b"
  | .diamond => "\x7b"
  | .asymmetric => ">"
  | .rounded => "("
  | .rectangle => "["

/-- The bracket after the label of a node of this shape. -/
def NodeShape.closing : NodeShape → String
  | .circle => "))"
  | .stadium => "])"
  | .hexagon => "\x7d\x7d"
  | .diamond => "\x7d"
  | .asymmetric => "]"
  | .rounded => ")"
  | .rectangle => "]"

namespace NodeRef

/-! ## Brackets -/

theorem mem_brackets (shape : NodeShape) : (shape.opening, shape.closing, shape) ∈ brackets := by
  cases shape <;> decide

/-- A bracket that begins with another one stands before it. -/
theorem pairwise_brackets :
    brackets.Pairwise fun bracket later => ¬bracket.1.toList <+: later.1.toList := by
  decide

theorem opening_chars (shape : NodeShape) : ∀ c ∈ shape.opening.toList,
    Text.isIdentChar c = false ∧ c ≠ '"' ∧ c ≠ ':' := by
  cases shape <;> decide

theorem opening_ne_nil (shape : NodeShape) : shape.opening.toList ≠ [] := by
  cases shape <;> decide

theorem closing_chars (shape : NodeShape) : ∀ c ∈ shape.closing.toList,
    Text.isBlank c = false ∧ c ≠ ':' := by
  cases shape <;> decide

theorem closing_ne_nil (shape : NodeShape) : shape.closing.toList ≠ [] := by
  cases shape <;> decide

/-- No earlier bracket stands at the start of what follows the id: it would have to end before the
quote, as no bracket has a quote in it. -/
theorem between?_earlier {earlier later : List (String × String × NodeShape)} {shape : NodeShape}
    (htable : brackets = earlier ++ (shape.opening, shape.closing, shape) :: later)
    {bracket : String × String × NodeShape} (hbracket : bracket ∈ earlier) (rest : List Char) :
    Text.between? bracket.1 bracket.2.1 (shape.opening.toList ++ '"' :: rest) = none := by
  have hquote : ∀ bracket ∈ brackets, '"' ∉ bracket.1.toList := by decide
  have hmem : bracket ∈ brackets := htable ▸ List.mem_append_left _ hbracket
  have hpairs := pairwise_brackets
  rw [htable, List.pairwise_append] at hpairs
  have hother := hpairs.2.2 bracket hbracket _ List.mem_cons_self
  have hprefix : ¬bracket.1.toList <+: shape.opening.toList ++ '"' :: rest := by
    intro h
    have hdisjoint : ['"'].Disjoint bracket.1.toList := by simpa using hquote bracket hmem
    exact hother (Text.prefix_of_prefix_append (List.cons_ne_nil _ _) hdisjoint h)
  rw [Text.between?, Text.isPrefixOf?_eq_none_iff.2 hprefix, Option.bind_none]

/-- What follows the id of a mention with a quoted label is read as that label in its brackets, whatever
brackets the label holds. -/
theorem bracketed?_quoted (shape : NodeShape) {label : List Char} (hfeed : '\n' ∉ label) :
    bracketed? (shape.opening.toList ++ (Text.quote label ++ shape.closing.toList)) =
      some (Text.quote label, shape) := by
  obtain ⟨earlier, later, htable⟩ := List.append_of_mem (mem_brackets shape)
  have hlabel : ((Text.quote label).isEmpty || (Text.quote label).contains '\n') = false := by
    simp [Text.quote, hfeed]
  rw [bracketed?, htable, List.findSome?_append, List.findSome?_eq_none_iff.2, Option.none_or,
    List.findSome?_cons]
  · simp only [Text.between?_append, Option.bind_some, hlabel]
    rfl
  · intro bracket hmem
    simp only [Text.quote, List.cons_append, between?_earlier htable hmem, Option.bind_none]

/-! ## Mentions -/

/-- An id and what is written after it is read by the brackets. -/
theorem body?_append {id rest : List Char} (hid : Text.isIdent id = true)
    (hrest : Text.EndsIdent rest) (hne : rest ≠ []) (className : Option String) :
    body? (id ++ rest) className = (bracketed? rest).map fun (label, shape) =>
      ⟨String.ofList id, some (String.ofList (Text.unquote label)), some shape, className⟩ := by
  simp [body?, Text.ident?_append hid hrest, hne]

theorem body?_of_isIdent {id : List Char} (hid : Text.isIdent id = true)
    (className : Option String) :
    body? id className = some ⟨String.ofList id, none, none, className⟩ := by
  have hident := Text.ident?_append hid Text.endsIdent_nil
  rw [List.append_nil] at hident
  simp [body?, hident]

/-- An id mentions its node and says nothing of it. -/
theorem ofText?_of_isIdent {id t : List Char} (hid : Text.isIdent id = true)
    (htrim : Text.trim t = id) : ofText? t = some ⟨String.ofList id, none, none, none⟩ := by
  have hcolons : Text.cut ":::".toList id = none := by
    have hcolon : ':' ∉ id := fun hmem => absurd (Text.isIdentChar_of_mem hid _ hmem) (by decide)
    rw [Text.cut_eq_none_iff]
    exact fun hoccurs => hcolon (hoccurs.subset (by decide))
  rw [ofText?, htrim, hcolons]
  exact body?_of_isIdent hid none

/-- An id and a label in quotes and brackets. -/
def quotedBody (id : List Char) (shape : NodeShape) (label : List Char) : List Char :=
  id ++ (shape.opening.toList ++ (Text.quote label ++ shape.closing.toList))

/-- A style name as it is written after a mention. -/
def classSuffix : Option String → String
  | none => ""
  | some name => ":::" ++ name

/-- A mention with a quoted label as it is written. -/
def quotedText (id : String) (shape : NodeShape) (label : String) (className : Option String) :
    String :=
  id ++ shape.opening ++ "\"" ++ label ++ "\"" ++ shape.closing ++ classSuffix className

theorem toList_quotedText (id : String) (shape : NodeShape) (label : String)
    (className : Option String) : (quotedText id shape label className).toList =
      quotedBody id.toList shape label.toList ++ (classSuffix className).toList := by
  have hquote : "\"".toList = ['"'] := rfl
  simp only [quotedText, quotedBody, Text.quote, String.toList_append, hquote, List.append_assoc,
    List.cons_append, List.nil_append]

section

variable {id : List Char} (shape : NodeShape) (label : List Char) (hid : Text.isIdent id = true)

include hid

/-- An id with a quoted label in brackets is read back. -/
theorem body?_quotedBody (hfeed : '\n' ∉ label) (className : Option String) :
    body? (quotedBody id shape label) className =
      some ⟨String.ofList id, some (String.ofList label), some shape, className⟩ := by
  obtain ⟨c, rest, hopening⟩ := List.exists_cons_of_ne_nil (opening_ne_nil shape)
  -- The opening bracket ends the id.
  have hstop : Text.EndsIdent (shape.opening.toList ++ (Text.quote label ++ shape.closing.toList)) := by
    rw [hopening]
    exact Text.endsIdent_cons (opening_chars shape c (hopening ▸ List.mem_cons_self)).1 _
  rw [quotedBody, body?_append hid hstop (by simp [Text.quote]), bracketed?_quoted shape hfeed]
  simp only [Option.map_some, Text.unquote_quote]

/-- Nothing is taken off the ends of a mention. -/
theorem trim_quotedBody_append {t tail : List Char} (hne : tail ≠ [])
    (htail : Text.trim tail = tail) :
    Text.trim (quotedBody id shape label ++ (t ++ tail)) =
      quotedBody id shape label ++ (t ++ tail) := by
  have htrim := Text.trim_append_append hid
    (shape.opening.toList ++ (Text.quote label ++ shape.closing.toList) ++ t) hne htail
  simpa [quotedBody] using htrim

theorem trim_quotedBody : Text.trim (quotedBody id shape label) = quotedBody id shape label := by
  have hclosing : Text.trim shape.closing.toList = shape.closing.toList :=
    Text.trim_of_forall_not_isBlank fun c hc => (closing_chars shape c hc).1
  have htrim := Text.trim_append_append hid (shape.opening.toList ++ Text.quote label)
    (closing_ne_nil shape) hclosing
  simpa [quotedBody] using htrim

/-- Three colons are found after the label and its brackets or nowhere. -/
theorem cut_quotedBody_append (hcolons : ¬":::".toList <:+: label) (rest : List Char) :
    Text.cut ":::".toList (quotedBody id shape label ++ rest) =
      (Text.cut ":::".toList rest).map fun parts =>
        (quotedBody id shape label ++ parts.1, parts.2) := by
  have hcolon : ∀ {t : List Char}, ':' ∉ t → t.Disjoint ":::".toList := by
    intro t ht c hc hmem
    obtain rfl : c = ':' := List.eq_of_mem_replicate (n := 3) hmem
    exact ht hc
  have hopening : (id ++ shape.opening.toList ++ ['"']).Disjoint ":::".toList := by
    refine hcolon fun hmem => ?_
    simp only [List.mem_append, List.mem_singleton] at hmem
    obtain (hmem | hmem) | hmem := hmem
    · exact absurd (Text.isIdentChar_of_mem hid _ hmem) (by decide)
    · exact (opening_chars shape _ hmem).2.2 rfl
    · cases hmem
  have hclosing : ('"' :: shape.closing.toList).Disjoint ":::".toList := by
    refine hcolon fun hmem => ?_
    obtain hmem | hmem := List.mem_cons.1 hmem
    · cases hmem
    · exact (closing_chars shape _ hmem).2 rfl
  -- The label stands between two texts without colons.
  have hassoc : ∀ rest, quotedBody id shape label ++ rest =
      [] ++ ((id ++ shape.opening.toList ++ ['"']) ++
        (label ++ ('"' :: shape.closing.toList ++ rest))) := by
    intro rest
    simp [quotedBody, Text.quote]
  rw [hassoc, Text.cut_append_of_disjoint (by decide) (by simp) hopening (by decide),
    Text.cut_append_of_disjoint (by decide) (by simp) hclosing hcolons, Option.map_map]
  simp only [hassoc]
  rfl

end

/-- A mention with a label in double quotes is read back from what it is written as, with its id, its
label, its shape and the name of its style. The label may be empty and hold brackets, quotes and spaces,
but no line feed and no three colons. -/
theorem ofText?_quotedText (id : String) (shape : NodeShape) (label : String)
    (className : Option String) (hid : Text.isIdent id.toList = true) (hfeed : '\n' ∉ label.toList)
    (hcolons : ¬":::".toList <:+: label.toList)
    (hclass : ∀ name ∈ className, Text.trim name.toList = name.toList ∧ name ≠ "") :
    ofText? (quotedText id shape label className).toList =
      some ⟨id, some label, some shape, className⟩ := by
  have hbody : ∀ className, body? (quotedBody id.toList shape label.toList) className =
      some ⟨id, some label, some shape, className⟩ := by
    intro className
    rw [body?_quotedBody shape label.toList hid hfeed, String.ofList_toList, String.ofList_toList]
  rw [toList_quotedText]
  cases className with
  | none =>
    -- Without a class nothing is cut off.
    have hcut := cut_quotedBody_append shape label.toList hid hcolons []
    have hempty : (classSuffix none).toList = [] := rfl
    rw [hempty, List.append_nil]
    rw [List.append_nil] at hcut
    rw [ofText?, trim_quotedBody shape label.toList hid, hcut]
    exact hbody none
  | some name =>
    obtain ⟨hname, hne⟩ := hclass name rfl
    have hempty : name.toList ≠ [] := by simpa using hne
    have hsuffix : (classSuffix (some name)).toList = ":::".toList ++ name.toList :=
      String.toList_append
    -- The class is what stands behind the first three colons after the label.
    have htrim := trim_quotedBody_append (t := ":::".toList) shape label.toList hid hempty hname
    have hcut := cut_quotedBody_append shape label.toList hid hcolons (":::".toList ++ name.toList)
    rw [Text.cut_append_pattern, Option.map_some, List.append_nil] at hcut
    have hstyle : (Text.trimmed? name.toList).map String.ofList = some name := by
      simp [Text.trimmed?, hname, hne]
    rw [hsuffix, ofText?, htrim, hcut]
    simp only [trim_quotedBody shape label.toList hid, hstyle]
    exact hbody (some name)

/-- A label with brackets and quotes of its own, and a style name of two words. -/
theorem ofText?_quoted_brackets :
    Text.isIdent "a_1".toList = true ∧ '\n' ∉ "f(x)) \"]\" ([".toList ∧
      ¬":::".toList <:+: "f(x)) \"]\" ([".toList ∧
      ofText? "a_1((\"f(x)) \"]\" ([\")):::very hot".toList =
        some ⟨"a_1", some "f(x)) \"]\" ([", some .circle, some "very hot"⟩ := by
  have hcolons : ¬":::".toList <:+: "f(x)) \"]\" ([".toList :=
    Text.cut_eq_none_iff.1 (by decide)
  have hclass : ∀ name ∈ some "very hot", Text.trim name.toList = name.toList ∧ name ≠ "" := by
    intro name hname
    obtain rfl := Option.some.inj hname
    decide
  have hread := ofText?_quotedText "a_1" .circle "f(x)) \"]\" ([" (some "very hot") (by decide)
    (by decide) hcolons hclass
  have htext : quotedText "a_1" .circle "f(x)) \"]\" ([" (some "very hot") =
      "a_1((\"f(x)) \"]\" ([\")):::very hot" := by decide +kernel
  rw [htext] at hread
  exact ⟨by decide, by decide, hcolons, hread⟩

end NodeRef

end TextDiagram
