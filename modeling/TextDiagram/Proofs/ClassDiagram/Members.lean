import TextDiagram.ClassDiagram.Member
import TextDiagram.Proofs.Text.Cut
import TextDiagram.Proofs.Text.Words
/-!
# Members as they are displayed

A member is displayed the way it is written in a class body, with its sign always in front. What is
displayed is read as the same member again, with one exception. The name of a method reaches to the last
closing parenthesis. If every opening parenthesis stands behind that one, the name has none and the
member is taken for a property, whose type is displayed first.

Main statements:

* `ofText?_sigil_cons`: how a text with a sign in front is read.
* `ofMethodText_append`: how the text of a method is divided.
* `isMethod_ofBody`: which texts with an opening parenthesis are methods.
* `ofBody_written_method`, `ofBody_written_property`: what is displayed behind the sign is read back.
* `display_read_back`: which members are read back, and which texts are methods.
-/

namespace TextDiagram.ClassMember

/-! ## The text behind the sign -/

/-- The text of a member without the sign in front of it. -/
def body (t : List Char) : List Char := (splitSigil (Text.trim t)).2

/-- The member that a text without a sign stands for. -/
def ofBody (visibility : Visibility) (t : List Char) : ClassMember :=
  if t.contains '(' then ofMethodText visibility t else ofPropertyText visibility t

/-- A member is read from its sigil and from what follows. -/
theorem ofText?_eq (t : List Char) : ofText? t =
    if (body t).isEmpty then none else some (ofBody (splitSigil (Text.trim t)).1 (body t)) := by
  unfold ofText? ofBody body
  simp only
  split
  · rfl
  · split <;> rfl

/-- The text behind the sigil is trimmed. -/
theorem trim_body (t : List Char) : Text.trim (body t) = body t := by
  have htrim : Text.trim (Text.trim t) = Text.trim t := Text.trim_trim t
  unfold body splitSigil
  split
  · split
    · exact Text.trim_trim _
    · exact htrim
  · rfl

/-- A sign in front of a text gives the visibility, whatever the text starts with. -/
theorem ofText?_sigil_cons (visibility : Visibility) {t : List Char} (hne : t ≠ [])
    (htrim : Text.trim t = t) :
    ofText? (visibility.sigil :: t) = some (ofBody visibility t) := by
  have hsign : Text.isBlank visibility.sigil = false := by cases visibility <;> decide
  have hline : Text.trim (visibility.sigil :: t) = visibility.sigil :: t :=
    Text.trim_cons_append hsign [] hne (Text.trimEnd_of_trim_eq htrim)
  have hsplit : splitSigil (Text.trim (visibility.sigil :: t)) = (visibility, t) := by
    rw [hline, splitSigil, Visibility.ofSigil?_sigil]
    exact congrArg (Prod.mk visibility) htrim
  rw [ofText?_eq, body, hsplit]
  exact if_neg (by simp [hne])

/-- What is displayed of a member behind its sign. -/
def written (m : ClassMember) : List Char :=
  if m.memberType.isEmpty then m.name.toList
  else if m.isMethod then m.name.toList ++ ' ' :: m.memberType.toList
  else m.memberType.toList ++ ' ' :: m.name.toList

section

variable {m : ClassMember}

/-- Without a type the name alone is written. -/
theorem written_untyped (htype : m.memberType.toList = []) : m.written = m.name.toList := by
  have hempty : m.memberType.isEmpty = true := by
    rwa [String.isEmpty_iff, ← String.toList_eq_nil_iff]
  rw [written, if_pos hempty]

/-- A method has its type behind the name. -/
theorem written_method (htype : m.memberType.toList ≠ []) (h : m.isMethod = true) :
    m.written = m.name.toList ++ ' ' :: m.memberType.toList := by
  have hempty : ¬m.memberType.isEmpty = true := by
    rwa [String.isEmpty_iff, ← String.toList_eq_nil_iff]
  rw [written, if_neg hempty, if_pos h]

/-- A property has its type before the name. -/
theorem written_property (htype : m.memberType.toList ≠ []) (h : m.isMethod = false) :
    m.written = m.memberType.toList ++ ' ' :: m.name.toList := by
  have hempty : ¬m.memberType.isEmpty = true := by
    rwa [String.isEmpty_iff, ← String.toList_eq_nil_iff]
  rw [written, if_neg hempty, h, if_neg Bool.false_ne_true]

end

/-- A member is displayed with its sigil in front. -/
theorem toList_display (m : ClassMember) : m.display.toList = m.visibility.sigil :: m.written := by
  have hspace : " ".toList = [' '] := rfl
  unfold display written
  simp only
  split
  · simp
  · split <;> simp [hspace]

/-! ## Methods -/

section

variable (visibility : Visibility) {t before after : List Char}

/-- Without a closing parenthesis all of the text is the name. -/
theorem ofMethodText_of_not_mem (h : ')' ∉ t) :
    ofMethodText visibility t = ⟨visibility, String.ofList t, ""⟩ := by
  rw [ofMethodText, Text.cutLast_singleton_eq_none_iff.2 h]

/-- The name ends with the last closing parenthesis, the type is what follows. -/
theorem ofMethodText_append (h : ')' ∉ after) :
    ofMethodText visibility (before ++ ')' :: after) =
      ⟨visibility, String.ofList (before ++ [')']), String.ofList (Text.trim after)⟩ := by
  rw [ofMethodText, Text.cutLast_singleton_append h]

/-- The text has parentheses of both kinds, but no closing one behind an opening one. -/
def IsInsideOut (t : List Char) : Prop := '(' ∈ t ∧ ')' ∈ t ∧ ¬['(', ')'].Sublist t

instance (t : List Char) : Decidable (IsInsideOut t) :=
  inferInstanceAs (Decidable (_ ∧ _ ∧ ¬_))

/-- Up to the last closing parenthesis an opening one is followed by a closing one. -/
theorem pair_sublist_iff (h : ')' ∉ after) :
    ['(', ')'].Sublist (before ++ ')' :: after) ↔ '(' ∈ before := by
  constructor
  · intro hpair
    obtain ⟨first, second, hsplit, hfirst, hsecond⟩ := List.sublist_append_iff.1 hpair
    cases first with
    | nil =>
      -- Behind the last closing parenthesis there is no further one.
      rw [List.nil_append] at hsplit
      rw [← hsplit] at hsecond
      have hbehind := List.Sublist.of_cons_of_ne (by decide) hsecond
      exact absurd (hbehind.subset (by decide)) h
    | cons c first =>
      obtain ⟨rfl, -⟩ := List.cons.inj hsplit
      exact hfirst.subset List.mem_cons_self
  · intro hmem
    have hopen : ['('].Sublist before := List.singleton_sublist.2 hmem
    have hclose : [')'].Sublist (')' :: after) := List.singleton_sublist.2 List.mem_cons_self
    exact hopen.append hclose

/-- A text with an opening parenthesis is read as a method. -/
theorem ofBody_of_mem (h : '(' ∈ t) : ofBody visibility t = ofMethodText visibility t :=
  if_pos (by simpa using h)

/-- A text with an opening parenthesis is a method unless the name has lost all of them. -/
theorem isMethod_ofBody (hopen : '(' ∈ t) :
    (ofBody visibility t).isMethod = true ↔ ¬IsInsideOut t := by
  rw [ofBody_of_mem visibility hopen]
  by_cases hclose : ')' ∈ t
  · obtain ⟨before, after, rfl, hafter⟩ := Text.exists_last_of_mem hclose
    have hname : (ofMethodText visibility (before ++ ')' :: after)).isMethod = true ↔
        '(' ∈ before := by
      simp [ofMethodText_append visibility hafter, isMethod]
    rw [hname, IsInsideOut, pair_sublist_iff hafter]
    simp [hopen]
  · have hname : (ofMethodText visibility t).isMethod = true := by
      simpa [ofMethodText_of_not_mem visibility hclose, isMethod] using hopen
    exact iff_of_true hname fun hinside => hclose hinside.2.1

/-- What is displayed of a method is the same method, and of a property with a parenthesis it is not. -/
theorem ofBody_written_method (hopen : '(' ∈ t) :
    ofBody visibility (written (ofBody visibility t)) = ofBody visibility t ↔
      (ofBody visibility t).isMethod = true := by
  rw [ofBody_of_mem visibility hopen]
  by_cases hclose : ')' ∈ t
  · obtain ⟨before, after, rfl, hafter⟩ := Text.exists_last_of_mem hclose
    have hlast : ')' ∉ Text.trim after := fun hmem => hafter (Text.trim_subset after hmem)
    rw [ofMethodText_append visibility hafter]
    generalize hm : (⟨visibility, String.ofList (before ++ [')']),
      String.ofList (Text.trim after)⟩ : ClassMember) = m
    have hname : m.name.toList = before ++ [')'] := by rw [← hm, String.toList_ofList]
    have htype : m.memberType.toList = Text.trim after := by rw [← hm, String.toList_ofList]
    -- The last closing parenthesis ends the name. The opening one may stand before it or behind it.
    by_cases hbefore : '(' ∈ before
    · have hmethod : m.isMethod = true := by simp [isMethod, hname, hbefore]
      refine iff_of_true ?_ hmethod
      by_cases hempty : Text.trim after = []
      · have hwritten : m.written = before ++ ')' :: [] := by
          rw [written_untyped (htype.trans hempty), hname]
        rw [hwritten, ofBody_of_mem visibility (by simp [hbefore]),
          ofMethodText_append visibility List.not_mem_nil, ← hm, hempty]
        rfl
      · -- The type is read back behind the last closing parenthesis.
        have hwritten : m.written = before ++ ')' :: ' ' :: Text.trim after := by
          rw [written_method (htype ▸ hempty) hmethod, hname, htype, List.append_assoc,
            List.singleton_append]
        rw [hwritten, ofBody_of_mem visibility (by simp [hbefore]),
          ofMethodText_append visibility (by simp [hlast]), Text.trim_cons (by decide),
          Text.trim_trim, hm]
    · have hproperty : m.isMethod = false := by simp [isMethod, hname, hbefore]
      have hbehind : '(' ∈ Text.trim after := by
        refine Text.mem_trim ?_ (by decide)
        simpa [hbefore] using hopen
      have hempty : Text.trim after ≠ [] := List.ne_nil_of_mem hbehind
      refine iff_of_false ?_ (by rw [hproperty]; exact Bool.false_ne_true)
      -- The type comes first, so now the name reaches over all of the text.
      have hwritten : m.written = (Text.trim after ++ ' ' :: before) ++ ')' :: [] := by
        rw [written_property (htype ▸ hempty) hproperty, hname, htype, List.append_assoc,
          List.cons_append]
      rw [hwritten, ofBody_of_mem visibility (by simp [hbehind]),
        ofMethodText_append visibility List.not_mem_nil]
      intro heq
      rw [← heq, String.toList_ofList] at htype
      exact hempty htype.symm
  · have hmethod : isMethod ⟨visibility, String.ofList t, ""⟩ = true := by
      simpa [isMethod] using hopen
    have hwritten : written ⟨visibility, String.ofList t, ""⟩ = t := by
      rw [written_untyped rfl, String.toList_ofList]
    -- All of the text is the name, and it is written as it is.
    rw [ofMethodText_of_not_mem visibility hclose, hwritten, ofBody_of_mem visibility hopen,
      ofMethodText_of_not_mem visibility hclose]
    exact iff_of_true rfl hmethod

end

/-! ## Properties -/

section

variable (visibility : Visibility) {t : List Char}

/-- A property is read back from what is written for it. -/
theorem ofBody_written_property (hne : t ≠ []) (htrim : Text.trim t = t) (hopen : '(' ∉ t) :
    ofBody visibility (written (ofBody visibility t)) = ofBody visibility t := by
  have hproperty : ofBody visibility t = ofPropertyText visibility t := if_neg (by simpa using hopen)
  have hword : ∀ c ∈ Text.firstWord t, Text.isBlank c = false := Text.not_isBlank_of_mem_firstWord
  have hfirst : Text.firstWord t ≠ [] := Text.firstWord_ne_nil hne htrim
  have hopenFirst : '(' ∉ Text.firstWord t := fun hmem => hopen ((Text.firstWord_sublist t).subset hmem)
  have hopenRest : '(' ∉ Text.afterFirstWord t := fun hmem =>
    hopen ((Text.afterFirstWord_suffix t).subset hmem)
  rw [hproperty, ofPropertyText]
  by_cases hrest : Text.afterFirstWord t = []
  · -- A name alone is one word.
    have hwritten : written ⟨visibility, String.ofList (Text.firstWord t), ""⟩ = Text.firstWord t := by
      rw [written_untyped rfl, String.toList_ofList]
    simp only [hrest, List.isEmpty_nil, if_true, hwritten]
    rw [ofBody, if_neg (by simpa using hopenFirst), ofPropertyText,
      Text.afterFirstWord_of_forall hword hfirst, Text.firstWord_of_forall hword hfirst]
    rfl
  · -- With a second word the first one is the type, and it is written first again.
    have hempty : (Text.afterFirstWord t).isEmpty = false := by simpa using hrest
    have hwritten : written ⟨visibility, String.ofList (Text.afterFirstWord t),
        String.ofList (Text.firstWord t)⟩ = Text.firstWord t ++ ' ' :: Text.afterFirstWord t := by
      rw [written_property (by rwa [String.toList_ofList]) (by simpa [isMethod] using hopenRest),
        String.toList_ofList, String.toList_ofList]
    simp only [hempty, Bool.false_eq_true, if_false, hwritten]
    rw [ofBody, if_neg (by simp [hopenFirst, hopenRest]), ofPropertyText,
      Text.afterFirstWord_append hword hfirst, Text.firstWord_append hword hfirst,
      Text.trimStart_afterFirstWord, hempty]
    rfl

end

/-! ## Members that are read back -/

/-- The name and the type have no blanks around them, and there is a name. -/
structure IsTrimmed (m : ClassMember) : Prop where
  ne_nil : m.name.toList ≠ []
  name : Text.trim m.name.toList = m.name.toList
  memberType : Text.trim m.memberType.toList = m.memberType.toList

/-- Something is written for every member that has a name. -/
theorem IsTrimmed.ne_nil_written {m : ClassMember} (h : m.IsTrimmed) : m.written ≠ [] := by
  unfold written
  split
  · exact h.ne_nil
  · split <;> simp

/-- There are no blanks around what is written. -/
theorem IsTrimmed.trim_written {m : ClassMember} (h : m.IsTrimmed) :
    Text.trim m.written = m.written := by
  by_cases htype : m.memberType.toList = []
  · rw [written_untyped htype]
    exact h.name
  · -- What is written starts and ends with parts that are trimmed themselves.
    cases hmethod : m.isMethod with
    | true =>
      rw [written_method htype hmethod]
      exact Text.trim_append_append_of_trim h.ne_nil h.name [' '] htype h.memberType
    | false =>
      rw [written_property htype hmethod]
      exact Text.trim_append_append_of_trim htype h.memberType [' '] h.ne_nil h.name

/-- What is read as a method has a trimmed name and a trimmed type. -/
theorem isTrimmed_ofMethodText (visibility : Visibility) {t : List Char} (hne : t ≠ [])
    (htrim : Text.trim t = t) : (ofMethodText visibility t).IsTrimmed := by
  by_cases hclose : ')' ∈ t
  · obtain ⟨before, after, rfl, hafter⟩ := Text.exists_last_of_mem hclose
    rw [ofMethodText_append visibility hafter]
    have hname : Text.trim (before ++ [')']) = before ++ [')'] := by
      -- The name starts as the text does and ends with the parenthesis.
      obtain ⟨hhead, -⟩ := Text.trim_eq_self_iff.1 htrim
      have hclosing : Text.isBlank ')' = false := by decide
      rw [Text.trim_eq_self_iff]
      simpa [List.head?_append, hclosing] using hhead
    exact ⟨by simp, by rwa [String.toList_ofList], by simp only [String.toList_ofList, Text.trim_trim]⟩
  · rw [ofMethodText_of_not_mem visibility hclose]
    exact ⟨by simpa using hne, by rwa [String.toList_ofList], rfl⟩

/-- So does what is read as a property. -/
theorem isTrimmed_ofPropertyText (visibility : Visibility) {t : List Char} (hne : t ≠ [])
    (htrim : Text.trim t = t) : (ofPropertyText visibility t).IsTrimmed := by
  have hword : Text.trim (Text.firstWord t) = Text.firstWord t :=
    Text.trim_of_forall_not_isBlank Text.not_isBlank_of_mem_firstWord
  have hfirst : Text.firstWord t ≠ [] := Text.firstWord_ne_nil hne htrim
  unfold ofPropertyText
  simp only
  split
  · exact ⟨by simpa using hfirst, by rwa [String.toList_ofList], rfl⟩
  · next hrest =>
    have hend : Text.trim (Text.afterFirstWord t) = Text.afterFirstWord t :=
      Text.trim_afterFirstWord htrim
    exact ⟨by simpa using hrest, by rwa [String.toList_ofList], by rwa [String.toList_ofList]⟩

/-- So does whatever is read. -/
theorem isTrimmed_ofBody (visibility : Visibility) {t : List Char} (hne : t ≠ [])
    (htrim : Text.trim t = t) : (ofBody visibility t).IsTrimmed := by
  unfold ofBody
  split
  · exact isTrimmed_ofMethodText visibility hne htrim
  · exact isTrimmed_ofPropertyText visibility hne htrim

/-- The visibility is the one of the sigil. -/
theorem visibility_ofBody (visibility : Visibility) (t : List Char) :
    (ofBody visibility t).visibility = visibility := by
  unfold ofBody ofMethodText ofPropertyText
  split
  · split <;> rfl
  · simp only
    split <;> rfl

/-- A member that is displayed is read as what stands behind its sign. -/
theorem ofText?_display {t : List Char} {m : ClassMember} (h : ofText? t = some m) :
    ∃ visibility, m = ofBody visibility (body t) ∧ body t ≠ [] ∧
      ofText? m.display.toList = some (ofBody visibility m.written) := by
  rw [ofText?_eq] at h
  split at h
  · cases h
  · next hbody =>
    have hne : body t ≠ [] := by simpa using hbody
    obtain rfl := Option.some.inj h
    have htrimmed := isTrimmed_ofBody (splitSigil (Text.trim t)).1 hne (trim_body t)
    refine ⟨_, rfl, hne, ?_⟩
    rw [toList_display, visibility_ofBody]
    exact ofText?_sigil_cons _ htrimmed.ne_nil_written htrimmed.trim_written

/-- A member is read back from what it is displayed as, unless every opening parenthesis of its text
stands behind the last closing one. Apart from such texts those with an opening parenthesis are
methods, and so they are when they are read back. -/
theorem display_read_back {t : List Char} {m : ClassMember} (h : ofText? t = some m) :
    (ofText? m.display.toList = some m ↔ ¬IsInsideOut (body t)) ∧
      ('(' ∈ body t → (m.isMethod = true ↔ ¬IsInsideOut (body t))) := by
  obtain ⟨visibility, rfl, hne, hdisplay⟩ := ofText?_display h
  rw [hdisplay, Option.some_inj]
  by_cases hopen : '(' ∈ body t
  · have hmethod := isMethod_ofBody visibility hopen
    exact ⟨(ofBody_written_method visibility hopen).trans hmethod, fun _ => hmethod⟩
  · have hback := ofBody_written_property visibility hne (trim_body t) hopen
    exact ⟨iff_of_true hback fun hinside => hopen hinside.1, fun hmem => absurd hmem hopen⟩

/-- A method with a blank in its parameters, more parentheses and a type of two words. -/
theorem display_read_back_of_method :
    ofText? "~ zip (a, f(b))  List of pairs ".toList =
        some ⟨.isPackage, "zip (a, f(b))", "List of pairs"⟩ ∧
      ofText? "~zip (a, f(b)) List of pairs".toList =
        some ⟨.isPackage, "zip (a, f(b))", "List of pairs"⟩ := by
  have hread : ofText? "~ zip (a, f(b))  List of pairs ".toList =
      some ⟨.isPackage, "zip (a, f(b))", "List of pairs"⟩ := by decide +kernel
  have hinside : ¬IsInsideOut (body "~ zip (a, f(b))  List of pairs ".toList) := by decide +kernel
  exact ⟨hread, (display_read_back hread).1.2 hinside⟩

/-- A closing parenthesis in front of an opening one: the member is displayed with its type first, and
what is displayed is a method of another name. -/
theorem display_told_apart :
    ofText? "foo) bar(".toList = some ⟨.isPublic, "foo)", "bar("⟩ ∧
      isMethod ⟨.isPublic, "foo)", "bar("⟩ = false ∧
      display ⟨.isPublic, "foo)", "bar("⟩ = "+bar( foo)" ∧
      ofText? "+bar( foo)".toList = some ⟨.isPublic, "bar( foo)", ""⟩ := by
  decide +kernel

end TextDiagram.ClassMember
