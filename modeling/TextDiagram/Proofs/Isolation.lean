import TextDiagram.Proofs.Integrity
import TextDiagram.Proofs.Keyed
import TextDiagram.Proofs.Reading
/-!
# Open blocks

The lines between the opening of a block and the brace that closes it belong to one class or entity.
Whatever they would say elsewhere, they add members to the class or attributes to the entity, or they
set the stereotype of the class. Nothing else changes, and what has been added stays.

Main statements:

* `Reading.readLines_eq_fill`: what lines inside a block do, in one equation.
* `Reading.openName?_eq_openBlock?`: which block is open can be told from the lines alone.
* `Reading.exists_continuedBy_readLines`: no line takes away from a class or an entity.
* `Diagram.open_block_isolates`: what a block in a text changes, and what is left of it at the end.
-/

namespace TextDiagram

/-! ## What lines inside a block add -/

namespace ClassDiagram

/-- The stereotype that a line inside a block gives to the class. -/
def bodyStereotype? (line : Line) : Option String :=
  (Text.between? "<<" ">>" line).map fun text => String.ofList (Text.trim text)

/-- The member that a line inside a block adds to the class. -/
def bodyMember? (line : Line) : Option ClassMember :=
  if (bodyStereotype? line).isSome then none else ClassMember.ofText? line

end ClassDiagram

/-- A class with what the lines of a block add to it: members behind those of their kind, in the order
of the lines, and the last stereotype. -/
def ClassDefinition.filled (c : ClassDefinition) (body : List Line) : ClassDefinition where
  name := c.name
  stereotype := (body.filterMap ClassDiagram.bodyStereotype?).getLast?.or c.stereotype
  properties := c.properties ++ (body.filterMap ClassDiagram.bodyMember?).filter (!·.isMethod)
  methods := c.methods ++ (body.filterMap ClassDiagram.bodyMember?).filter (·.isMethod)

/-- An entity with the attributes that the lines of a block add to it, in the order of the lines. -/
def Entity.filled (e : Entity) (body : List Line) : Entity where
  name := e.name
  attributes := e.attributes ++ body.filterMap EntityAttribute.ofText?

/-- Nothing is lost from one class to the other: members stay where they are, and a stereotype can only
be replaced by another one. -/
structure ClassDefinition.ContinuedBy (c later : ClassDefinition) : Prop where
  name : later.name = c.name
  stereotype : c.stereotype.isSome = true → later.stereotype.isSome = true
  properties : c.properties <+: later.properties
  methods : c.methods <+: later.methods

/-- Nothing is lost from one entity to the other. -/
structure Entity.ContinuedBy (e later : Entity) : Prop where
  name : later.name = e.name
  attributes : e.attributes <+: later.attributes

namespace ClassDefinition

theorem key_filled (body : List Line) (c : ClassDefinition) :
    Keyed.key (c.filled body) = Keyed.key c := rfl

theorem filled_nil (c : ClassDefinition) : c.filled [] = c := by
  rw [filled, List.filterMap_nil, List.filterMap_nil, List.filter_nil, List.filter_nil,
    List.append_nil, List.append_nil]
  rfl

/-- Lines may be added in two portions. -/
theorem filled_filled (c : ClassDefinition) (body more : List Line) :
    (c.filled body).filled more = c.filled (body ++ more) := by
  simp only [filled, List.filterMap_append, List.filter_append, List.append_assoc,
    List.getLast?_append, Option.or_assoc]

/-- A line with a stereotype sets it and adds no member. -/
theorem filled_stereotype {line : Line} {stereotype : String}
    (h : ClassDiagram.bodyStereotype? line = some stereotype) (c : ClassDefinition) :
    c.filled [line] = { c with stereotype := some stereotype } := by
  -- Where a stereotype is read no member is looked for.
  have hmember : ClassDiagram.bodyMember? line = none := by
    rw [ClassDiagram.bodyMember?, h]
    rfl
  simp [filled, h, hmember]

/-- A line with a member adds it. -/
theorem filled_member {line : Line} {m : ClassMember}
    (hstereotype : ClassDiagram.bodyStereotype? line = none)
    (h : ClassMember.ofText? line = some m) (c : ClassDefinition) :
    c.filled [line] = c.addMember m := by
  have hmember : ClassDiagram.bodyMember? line = some m := by
    rw [ClassDiagram.bodyMember?, hstereotype, h]
    rfl
  rw [addMember]
  -- The member goes to the methods or to the properties.
  by_cases hmethod : m.isMethod = true
  · simp [filled, hstereotype, hmember, hmethod]
  · simp [filled, hstereotype, hmember, hmethod]

/-- A line with neither changes nothing. -/
theorem filled_skipped {line : Line} (hstereotype : ClassDiagram.bodyStereotype? line = none)
    (h : ClassMember.ofText? line = none) (c : ClassDefinition) : c.filled [line] = c := by
  have hmember : ClassDiagram.bodyMember? line = none := by
    rw [ClassDiagram.bodyMember?, hstereotype, h]
    rfl
  simp [filled, hstereotype, hmember]

namespace ContinuedBy

variable {c later last : ClassDefinition}

theorem refl (c : ClassDefinition) : c.ContinuedBy c :=
  ⟨rfl, id, List.prefix_rfl, List.prefix_rfl⟩

/-- What is not lost on either of two ways is not lost on the whole. -/
theorem trans (h : c.ContinuedBy later) (h' : later.ContinuedBy last) : c.ContinuedBy last :=
  ⟨h'.name.trans h.name, fun hsome => h'.stereotype (h.stereotype hsome),
    h.properties.trans h'.properties, h.methods.trans h'.methods⟩

theorem stereotyped (c : ClassDefinition) (stereotype : String) :
    c.ContinuedBy { c with stereotype := some stereotype } :=
  ⟨rfl, fun _ => rfl, List.prefix_rfl, List.prefix_rfl⟩

/-- A member is added behind those of its kind. -/
theorem addMember (c : ClassDefinition) (m : ClassMember) : c.ContinuedBy (c.addMember m) := by
  unfold ClassDefinition.addMember
  split
  · exact ⟨rfl, id, List.prefix_rfl, List.prefix_append _ _⟩
  · exact ⟨rfl, id, List.prefix_append _ _, List.prefix_rfl⟩

end ContinuedBy

end ClassDefinition

namespace Entity

theorem key_filled (body : List Line) (e : Entity) : Keyed.key (e.filled body) = Keyed.key e := rfl

theorem filled_nil (e : Entity) : e.filled [] = e := by
  rw [filled, List.filterMap_nil, List.append_nil]

/-- Lines may be added to an entity in two portions. -/
theorem filled_filled (e : Entity) (body more : List Line) :
    (e.filled body).filled more = e.filled (body ++ more) := by
  simp only [filled, List.filterMap_append, List.append_assoc]

theorem ContinuedBy.refl (e : Entity) : e.ContinuedBy e := ⟨rfl, List.prefix_rfl⟩

theorem ContinuedBy.trans {e later last : Entity} (h : e.ContinuedBy later)
    (h' : later.ContinuedBy last) : e.ContinuedBy last :=
  ⟨h'.name.trans h.name, h.attributes.trans h'.attributes⟩

end Entity

/-- A line inside the block of a class fills the class, unless it closes the block. -/
theorem ClassDiagram.Draft.readLine_of_current {d : Draft} {name : String}
    (h : d.current = some name) {line : Line} (hline : line ≠ ['\x7d']) :
    d.readLine line = { d with classes := Keyed.modify name (·.filled [line]) d.classes } := by
  have hread : d.readLine line = d.applyBody name (BodyLine.ofLine line) := by
    rw [readLine, h]
  rw [hread, BodyLine.ofLine, if_neg hline]
  -- The reader looks for a stereotype first, then for a member.
  cases hstereotype : bodyStereotype? line with
  | some stereotype =>
    have hfilled : (fun c : ClassDefinition => c.filled [line]) =
        ({ · with stereotype := some stereotype }) :=
      funext (ClassDefinition.filled_stereotype hstereotype)
    obtain ⟨text, htext, rfl⟩ := Option.map_eq_some_iff.1 hstereotype
    rw [htext, hfilled]
    rfl
  | none =>
    rw [Option.map_eq_none_iff.1 hstereotype]
    cases hmember : ClassMember.ofText? line with
    | some m =>
      have hfilled : (fun c : ClassDefinition => c.filled [line]) = (·.addMember m) :=
        funext (ClassDefinition.filled_member hstereotype hmember)
      rw [hfilled]
      rfl
    | none =>
      rw [Keyed.modify_of_forall (ClassDefinition.filled_skipped hstereotype hmember)]
      rfl

/-- A line inside the block of an entity fills the entity, unless it closes the block. -/
theorem EntityDiagram.Draft.readLine_of_current {d : Draft} {name : String}
    (h : d.current = some name) {line : Line} (hline : line ≠ ['\x7d']) :
    d.readLine line = { d with entities := Keyed.modify name (·.filled [line]) d.entities } := by
  have hread : d.readLine line = d.applyBody name line := by
    rw [readLine, h]
  rw [hread, applyBody, if_neg hline]
  cases hattribute : EntityAttribute.ofText? line with
  | some a =>
    have hfilled : (fun e : Entity => e.filled [line]) =
        fun e => { e with attributes := e.attributes ++ [a] } := by
      funext e
      rw [Entity.filled, List.filterMap_cons, hattribute]
      rfl
    rw [hfilled]
  | none =>
    have hfilled : ∀ e : Entity, e.filled [line] = e := by
      intro e
      rw [Entity.filled, List.filterMap_cons, hattribute]
      exact Entity.filled_nil e
    rw [Keyed.modify_of_forall hfilled]

/-- A class or an entity. -/
inductive Record where
  | classDefinition (c : ClassDefinition)
  | entity (e : Entity)
  deriving DecidableEq, Repr, Inhabited

namespace Record

/-- The record with what the lines of a block add to it. -/
def filled : Record → List Line → Record
  | classDefinition c, body => classDefinition (c.filled body)
  | entity e, body => entity (e.filled body)

/-- Nothing is lost from one record to the other. -/
inductive ContinuedBy : Record → Record → Prop where
  | classDefinition {c later : ClassDefinition} (h : c.ContinuedBy later) :
    ContinuedBy (classDefinition c) (classDefinition later)
  | entity {e later : Entity} (h : e.ContinuedBy later) : ContinuedBy (entity e) (entity later)

theorem ContinuedBy.refl : (r : Record) → r.ContinuedBy r
  | .classDefinition c => .classDefinition (.refl c)
  | .entity e => .entity (.refl e)

theorem ContinuedBy.trans {r later last : Record} (h : r.ContinuedBy later)
    (h' : later.ContinuedBy last) : r.ContinuedBy last := by
  cases h with
  | classDefinition h =>
    cases h' with
    | classDefinition h' => exact .classDefinition (h.trans h')
  | entity h =>
    cases h' with
    | entity h' => exact .entity (h.trans h')

end Record

/-- The class or entity of a name. -/
def Diagram.record? : Diagram → String → Option Record
  | classes d, name => (Keyed.find? d.classes name).map .classDefinition
  | entities d, name => (Keyed.find? d.entities name).map .entity
  | _, _ => none

/-! ## Blocks -/

/-- The name of the class or entity whose block a line opens where no block is open. -/
def DiagramKind.opened? : DiagramKind → Line → Option String
  | classes, line =>
    match ClassDiagram.declaration? line with
    | some (.openBlock name) => some name
    | _ => none
  | entities, line => EntityDiagram.blockName? line
  | _, _ => none

/-- The block that is open after one more line. -/
def DiagramKind.openAfter (kind : DiagramKind) : Option String → Line → Option String
  | some name, line => if line = ['\x7d'] then none else some name
  | none, line => kind.opened? line

/-- The block that is open after some lines. -/
def DiagramKind.openBlock? (kind : DiagramKind) (lines : List Line) : Option String :=
  lines.foldl kind.openAfter none

namespace Reading

/-- The class or entity of a name as far as it has been read. -/
def record? : Reading → String → Option Record
  | classes d, name => (Keyed.find? d.classes name).map .classDefinition
  | entities d, name => (Keyed.find? d.entities name).map .entity
  | _, _ => none

/-- The name of the class or entity whose block is open. -/
def openName? : Reading → Option String
  | classes d => d.current
  | entities d => d.current
  | _ => none

/-- A reading with what some lines of a block add to one class or entity. -/
def fill (s : Reading) (name : String) (body : List Line) : Reading :=
  match s with
  | classes d => classes { d with classes := Keyed.modify name (·.filled body) d.classes }
  | entities d => entities { d with entities := Keyed.modify name (·.filled body) d.entities }
  | s => s

variable {s : Reading} {name : String}

/-- Inside a block a line fills the class or entity of the block, unless it closes the block. -/
theorem readLine_eq_fill (h : s.openName? = some name) {line : Line} (hline : line ≠ ['\x7d']) :
    s.readLine line = s.fill name [line] := by
  cases s with
  | classes d => exact congrArg classes (ClassDiagram.Draft.readLine_of_current h hline)
  | entities d => exact congrArg entities (EntityDiagram.Draft.readLine_of_current h hline)
  | _ => cases h

/-- No lines fill nothing in. -/
theorem fill_nil (s : Reading) (name : String) : s.fill name [] = s := by
  cases s with
  | classes d => simp only [fill, Keyed.modify_of_forall ClassDefinition.filled_nil]
  | entities d => simp only [fill, Keyed.modify_of_forall Entity.filled_nil]
  | _ => rfl

/-- Lines may be filled in in two portions. -/
theorem fill_fill (s : Reading) (name : String) (body more : List Line) :
    (s.fill name body).fill name more = s.fill name (body ++ more) := by
  cases s with
  | classes d =>
    simp only [fill, Keyed.modify_modify (ClassDefinition.key_filled body),
      ClassDefinition.filled_filled]
  | entities d =>
    simp only [fill, Keyed.modify_modify (Entity.key_filled body), Entity.filled_filled]
  | _ => rfl

/-- Filling in leaves the block open. -/
theorem openName?_fill (s : Reading) (name : String) (body : List Line) :
    (s.fill name body).openName? = s.openName? := by
  cases s <;> rfl

/-- It adds no relation. -/
theorem links_fill (s : Reading) (name : String) (body : List Line) :
    (s.fill name body).links = s.links := by
  cases s <;> rfl

/-- It adds no class and no entity. -/
theorem entityNames_fill (s : Reading) (name : String) (body : List Line) :
    (s.fill name body).entityNames = s.entityNames := by
  cases s with
  | classes d => exact Keyed.keys_modify (ClassDefinition.key_filled body) name d.classes
  | entities d => exact Keyed.keys_modify (Entity.key_filled body) name d.entities
  | _ => rfl

/-- What is filled in is found in the class or entity of the block. -/
theorem record?_fill_self (s : Reading) (name : String) (body : List Line) :
    (s.fill name body).record? name = (s.record? name).map (·.filled body) := by
  cases s with
  | classes d =>
    rw [fill, record?, record?, Keyed.find?_modify_self (ClassDefinition.key_filled body),
      Option.map_map, Option.map_map]
    rfl
  | entities d =>
    rw [fill, record?, record?, Keyed.find?_modify_self (Entity.key_filled body), Option.map_map,
      Option.map_map]
    rfl
  | _ => rfl

/-- All other classes and entities are as before. -/
theorem record?_fill_of_ne {other : String} (h : other ≠ name) (s : Reading) (body : List Line) :
    (s.fill name body).record? other = s.record? other := by
  cases s with
  | classes d =>
    rw [fill, record?, record?, Keyed.find?_modify_of_ne (ClassDefinition.key_filled body) h]
  | entities d =>
    rw [fill, record?, record?, Keyed.find?_modify_of_ne (Entity.key_filled body) h]
  | _ => rfl

/-- Lines inside a block fill the class or entity of the block and do nothing else. -/
theorem readLines_eq_fill (h : s.openName? = some name) {body : List Line}
    (hbody : ['\x7d'] ∉ body) : s.readLines body = s.fill name body := by
  induction body generalizing s with
  | nil => exact (fill_nil s name).symm
  | cons line body ih =>
    rw [List.mem_cons, not_or] at hbody
    have hopen : (s.readLine line).openName? = some name := by
      rw [readLine_eq_fill h (Ne.symm hbody.1), openName?_fill, h]
    have hrest := ih hopen hbody.2
    rw [readLine_eq_fill h (Ne.symm hbody.1), fill_fill] at hrest
    rw [readLines, List.foldl_cons, ← readLines, readLine_eq_fill h (Ne.symm hbody.1)]
    exact hrest

/-- The reading with no block open. -/
def closed : Reading → Reading
  | classes d => classes { d with current := none }
  | entities d => entities { d with current := none }
  | s => s

/-- The closing brace closes the block and does nothing else. -/
theorem readLine_brace (h : s.openName? = some name) : s.readLine ['\x7d'] = s.closed := by
  cases s with
  | classes d =>
    have hcurrent : d.current = some name := h
    have hread : d.readLine ['\x7d'] = { d with current := none } := by
      rw [ClassDiagram.Draft.readLine, hcurrent]
      rfl
    exact congrArg classes hread
  | entities d =>
    have hcurrent : d.current = some name := h
    have hread : d.readLine ['\x7d'] = { d with current := none } := by
      rw [EntityDiagram.Draft.readLine, hcurrent]
      rfl
    exact congrArg entities hread
  | _ => cases h

/-! ## Which block is open -/

/-- Whether a block is open after a line depends on the line and on whether one was open before. -/
theorem openName?_readLine (s : Reading) (line : Line) :
    (s.readLine line).openName? = s.kind.openAfter s.openName? line := by
  -- Inside a block only the brace matters, outside only the lines that open one.
  cases hopen : s.openName? with
  | some name =>
    rw [DiagramKind.openAfter]
    split
    · next hline =>
      rw [hline, readLine_brace hopen]
      cases s <;> rfl
    · next hline => rw [readLine_eq_fill hopen hline, openName?_fill, hopen]
  | none =>
    cases s with
    | classes d =>
      have hcurrent : d.current = none := hopen
      have hread : d.readLine line = d.apply (ClassDiagram.Statement.ofLine line) := by
        rw [ClassDiagram.Draft.readLine, hcurrent]
      -- Of all statements only a declaration with a brace opens a block.
      have hopened : (d.readLine line).current = DiagramKind.classes.opened? line := by
        rw [hread, ClassDiagram.Statement.ofLine, DiagramKind.opened?]
        cases ClassDiagram.declaration? line with
        | some declaration => cases declaration <;> first | rfl | exact hcurrent
        | none =>
          simp only
          split
          · exact hcurrent
          split
          · split <;> exact hcurrent
          · split <;> exact hcurrent
      exact hopened
    | entities d =>
      have hcurrent : d.current = none := hopen
      have hread : d.readLine line = d.apply (EntityDiagram.Statement.ofLine line) := by
        rw [EntityDiagram.Draft.readLine, hcurrent]
      have hopened : (d.readLine line).current = DiagramKind.entities.opened? line := by
        rw [hread, EntityDiagram.Statement.ofLine, DiagramKind.opened?]
        cases EntityDiagram.blockName? line with
        | some name => rfl
        | none =>
          simp only
          split <;> exact hcurrent
      exact hopened
    | _ => rfl

/-- So it can be told from the lines alone. -/
theorem openName?_readLines (s : Reading) (lines : List Line) :
    (s.readLines lines).openName? = lines.foldl s.kind.openAfter s.openName? := by
  induction lines generalizing s with
  | nil => rfl
  | cons line lines ih =>
    have hlines := ih (s.readLine line)
    rw [kind_readLine, openName?_readLine] at hlines
    exact hlines

/-- Which block is open can be told from the lines below the header. -/
theorem openName?_eq_openBlock? {header : Line} {lines : List Line}
    (h : ofLines (header :: lines) = .ok s) : s.openName? = s.kind.openBlock? lines := by
  have hstart : ∀ kind, (start kind header).openName? = none := by
    intro kind
    cases kind <;> rfl
  have hkind := congrArg kind (eq_readLines_start h)
  have hopen := congrArg openName? (eq_readLines_start h)
  rw [kind_readLines] at hkind
  rw [openName?_readLines, hstart, ← hkind] at hopen
  exact hopen

/-! ## Nothing is lost -/

end Reading

namespace ClassDiagram.Draft

variable {d : Draft} {name : String} {c : ClassDefinition}

/-- A line outside a block takes nothing away from a class. -/
theorem exists_continuedBy_apply (h : Keyed.find? d.classes name = some c) (s : Statement) :
    ∃ later, Keyed.find? (d.apply s).classes name = some later ∧ c.ContinuedBy later := by
  -- A statement declares, changes or relates classes, and it removes none.
  cases s with
  | openBlock other => exact ⟨c, Keyed.find?_ensure h _, .refl c⟩
  | declare other => exact ⟨c, Keyed.find?_ensure h _, .refl c⟩
  | stereotype other text =>
    exact Keyed.exists_find?_modify ClassDefinition.ContinuedBy.refl (.stereotyped · text)
      (fun _ => rfl) (Keyed.find?_ensure h _) other
  | addMember other m =>
    exact Keyed.exists_find?_modify ClassDefinition.ContinuedBy.refl (.addMember · m)
      (name_addMember · m) (Keyed.find?_ensure h _) other
  | relate r => exact ⟨c, Keyed.find?_ensure (Keyed.find?_ensure h _) _, .refl c⟩
  | skip => exact ⟨c, h, .refl c⟩

/-- Nor does a line inside a block. -/
theorem exists_continuedBy_applyBody (h : Keyed.find? d.classes name = some c) (current : String)
    (line : BodyLine) :
    ∃ later, Keyed.find? (d.applyBody current line).classes name = some later ∧
      c.ContinuedBy later := by
  cases line with
  | closeBlock => exact ⟨c, h, .refl c⟩
  | stereotype text =>
    exact Keyed.exists_find?_modify ClassDefinition.ContinuedBy.refl (.stereotyped · text)
      (fun _ => rfl) h current
  | member m =>
    exact Keyed.exists_find?_modify ClassDefinition.ContinuedBy.refl (.addMember · m)
      (name_addMember · m) h current
  | skip => exact ⟨c, h, .refl c⟩

end ClassDiagram.Draft

namespace EntityDiagram.Draft

variable {d : Draft} {name : String} {e : Entity}

/-- A line outside a block takes nothing away from an entity. -/
theorem exists_continuedBy_apply (h : Keyed.find? d.entities name = some e) (s : Statement) :
    ∃ later, Keyed.find? (d.apply s).entities name = some later ∧ e.ContinuedBy later := by
  cases s with
  | openBlock other => exact ⟨e, Keyed.find?_ensure h _, .refl e⟩
  | relate r => exact ⟨e, Keyed.find?_ensure (Keyed.find?_ensure h _) _, .refl e⟩
  | skip => exact ⟨e, h, .refl e⟩

/-- Nor does a line inside a block, which may add an attribute. -/
theorem exists_continuedBy_applyBody (h : Keyed.find? d.entities name = some e) (current : String)
    (line : Line) :
    ∃ later, Keyed.find? (d.applyBody current line).entities name = some later ∧
      e.ContinuedBy later := by
  unfold applyBody
  split
  · exact ⟨e, h, .refl e⟩
  · split
    · next a _ =>
      have hadded : ∀ e : Entity, e.ContinuedBy { e with attributes := e.attributes ++ [a] } :=
        fun e => ⟨rfl, List.prefix_append e.attributes [a]⟩
      exact Keyed.exists_find?_modify Entity.ContinuedBy.refl hadded (fun _ => rfl) h current
    · exact ⟨e, h, .refl e⟩

end EntityDiagram.Draft

namespace Reading

variable {s : Reading} {name : String} {r : Record}

/-- No line takes away from a class or an entity. -/
theorem exists_continuedBy_readLine (h : s.record? name = some r) (line : Line) :
    ∃ later, (s.readLine line).record? name = some later ∧ r.ContinuedBy later := by
  -- In the kinds without blocks there are no records to lose.
  cases s with
  | classes d =>
    obtain ⟨c, hc, rfl⟩ := Option.map_eq_some_iff.1 h
    have hread : ∃ later, Keyed.find? (d.readLine line).classes name = some later ∧
        c.ContinuedBy later := by
      unfold ClassDiagram.Draft.readLine
      split
      · next current _ => exact ClassDiagram.Draft.exists_continuedBy_applyBody hc current _
      · exact ClassDiagram.Draft.exists_continuedBy_apply hc _
    obtain ⟨later, hlater, hcontinued⟩ := hread
    exact ⟨_, congrArg (Option.map Record.classDefinition) hlater, .classDefinition hcontinued⟩
  | entities d =>
    obtain ⟨e, he, rfl⟩ := Option.map_eq_some_iff.1 h
    have hread : ∃ later, Keyed.find? (d.readLine line).entities name = some later ∧
        e.ContinuedBy later := by
      unfold EntityDiagram.Draft.readLine
      split
      · next current _ => exact EntityDiagram.Draft.exists_continuedBy_applyBody he current line
      · exact EntityDiagram.Draft.exists_continuedBy_apply he _
    obtain ⟨later, hlater, hcontinued⟩ := hread
    exact ⟨_, congrArg (Option.map Record.entity) hlater, .entity hcontinued⟩
  | _ => cases h

/-- By induction on the lines. -/
theorem exists_continuedBy_readLines (h : s.record? name = some r) (lines : List Line) :
    ∃ later, (s.readLines lines).record? name = some later ∧ r.ContinuedBy later := by
  induction lines generalizing s r with
  | nil => exact ⟨r, h, .refl r⟩
  | cons line lines ih =>
    obtain ⟨next, hnext, hcontinued⟩ := exists_continuedBy_readLine h line
    obtain ⟨later, hlater, hrest⟩ := ih hnext
    exact ⟨later, hlater, hcontinued.trans hrest⟩

/-- The class or entity of the open block, if there is one, has been read. -/
def KnowsOpen (s : Reading) : Prop := ∀ name, s.openName? = some name → ∃ r, s.record? name = some r

/-- A block that is opened has its class or entity, and a block that stays open keeps it. -/
theorem KnowsOpen.readLine (h : s.KnowsOpen) (line : Line) : (s.readLine line).KnowsOpen := by
  intro name hname
  rw [openName?_readLine] at hname
  cases hopen : s.openName? with
  | some current =>
    rw [hopen, DiagramKind.openAfter] at hname
    split at hname
    · cases hname
    · -- The block stays open, and its class or entity does not get lost.
      obtain rfl := Option.some.inj hname
      obtain ⟨r, hr⟩ := h current hopen
      obtain ⟨later, hlater, -⟩ := exists_continuedBy_readLine hr line
      exact ⟨later, hlater⟩
  | none =>
    rw [hopen] at hname
    cases s with
    | classes d =>
      have hcurrent : d.current = none := hopen
      have hopened : DiagramKind.classes.opened? line = some name := hname
      unfold DiagramKind.opened? at hopened
      simp only at hopened
      split at hopened
      · next other hdeclaration =>
        obtain rfl := Option.some.inj hopened
        have hread : d.readLine line = d.apply (.openBlock other) := by
          rw [ClassDiagram.Draft.readLine, hcurrent]
          simp only
          rw [ClassDiagram.Statement.ofLine, hdeclaration]
        -- The line that opens the block declares its class.
        obtain ⟨c, hc⟩ := Keyed.exists_find?_iff.2
          (Keyed.mem_keys_ensure.2 (.inl rfl) :
            other ∈ Keyed.keys (ClassDiagram.Draft.declared d.classes other))
        refine ⟨.classDefinition c, ?_⟩
        rw [Reading.readLine, hread]
        exact congrArg (Option.map Record.classDefinition) hc
      · cases hopened
    | entities d =>
      have hcurrent : d.current = none := hopen
      have hblock : EntityDiagram.blockName? line = some name := hname
      have hread : d.readLine line = d.apply (.openBlock name) := by
        rw [EntityDiagram.Draft.readLine, hcurrent]
        simp only
        rw [EntityDiagram.Statement.ofLine, hblock]
      -- And so it is with an entity.
      obtain ⟨e, he⟩ := Keyed.exists_find?_iff.2
        (Keyed.mem_keys_ensure.2 (.inl rfl) :
          name ∈ Keyed.keys (EntityDiagram.Draft.declared d.entities name))
      refine ⟨.entity e, ?_⟩
      rw [Reading.readLine, hread]
      exact congrArg (Option.map Record.entity) he
    | _ => cases hname

theorem KnowsOpen.readLines (h : s.KnowsOpen) (lines : List Line) : (s.readLines lines).KnowsOpen := by
  induction lines generalizing s with
  | nil => exact h
  | cons line lines ih => exact ih (h.readLine line)

/-- In whatever has been read, an open block has its class or entity. -/
theorem knowsOpen_of_ofLines {lines : List Line} (h : ofLines lines = .ok s) : s.KnowsOpen := by
  -- After the header no block is open.
  have hstart : ∀ kind header, (start kind header).KnowsOpen := by
    intro kind header name hname
    cases kind <;> cases hname
  cases lines with
  | nil => cases h
  | cons header lines =>
    rw [eq_readLines_start h]
    exact (hstart s.kind header).readLines lines

/-- Sorting does not matter to what stands under a name. -/
theorem record?_finish {lines : List Line} (h : ofLines lines = .ok s) (name : String) :
    s.finish.record? name = s.record? name := by
  cases lines with
  | nil => cases h
  | cons header lines =>
    have hstart := eq_readLines_start h
    cases s with
    | classes d =>
      have hd : d = ClassDiagram.Draft.empty.readLines lines :=
        Reading.classes.inj (hstart.trans (readLines_classes _ lines))
      have hempty : ClassDiagram.Draft.empty.IsLinked := Linked.nil
      have hlinked : d.IsLinked := hd ▸ ClassDiagram.Draft.linked_readLines hempty lines
      exact congrArg (Option.map Record.classDefinition) (Keyed.find?_sorted hlinked.nodup name)
    | entities d =>
      have hd : d = EntityDiagram.Draft.empty.readLines lines :=
        Reading.entities.inj (hstart.trans (readLines_entities _ lines))
      have hempty : EntityDiagram.Draft.empty.IsLinked := Linked.nil
      have hlinked : d.IsLinked := hd ▸ EntityDiagram.Draft.linked_readLines hempty lines
      exact congrArg (Option.map Record.entity) (Keyed.find?_sorted hlinked.nodup name)
    | _ => rfl

end Reading

/-- The lines inside a block are about one class or entity only. They add members or attributes to it
in their order, or they set its stereotype; the relations, the other classes or entities and the names
of all of them stay as they are, up to the brace that closes the block and does no more than that. What
has been added is there at the end, whatever follows. -/
theorem Diagram.open_block_isolates {text : String} {d : Diagram} (h : parse text = .ok d)
    {header : Line} {seen body rest : List Line}
    (hlines : Text.significantLines text.toList = header :: (seen ++ (body ++ rest)))
    {name : String} (hopen : d.kind.openBlock? seen = some name) (hbody : ['\x7d'] ∉ body) :
    ∃ s s' : Reading, Reading.ofLines (header :: seen) = .ok s ∧
      Reading.ofLines (header :: (seen ++ body)) = .ok s' ∧
      s'.links = s.links ∧ s'.entityNames = s.entityNames ∧
      (∀ other, other ≠ name → s'.record? other = s.record? other) ∧
      s'.readLine ['\x7d'] = s'.closed ∧
      ∃ r last, s.record? name = some r ∧ s'.record? name = some (r.filled body) ∧
        d.record? name = some last ∧ (r.filled body).ContinuedBy last := by
  obtain ⟨whole, hwhole, hfinish⟩ := exists_ofText_of_parse h
  rw [Reading.ofText, hlines] at hwhole
  rw [← List.cons_append] at hwhole
  obtain ⟨s, hs, hkind, hread⟩ :=
    Reading.exists_ofLines_of_append hwhole (List.cons_ne_nil header seen)
  -- The lines before the block tell that it is open.
  have hname : s.openName? = some name := by
    rw [Reading.openName?_eq_openBlock? hs, hkind, ← Reading.kind_finish, hfinish, hopen]
  obtain ⟨r, hr⟩ := Reading.knowsOpen_of_ofLines hs name hname
  -- Inside the block reading is filling in.
  have hfill := Reading.readLines_eq_fill hname hbody
  have hfilled : (s.fill name body).record? name = some (r.filled body) := by
    rw [Reading.record?_fill_self, hr]
    rfl
  -- The lines after those of the block cannot take anything away.
  rw [Reading.readLines_append, hfill] at hread
  obtain ⟨last, hlast, hcontinued⟩ := Reading.exists_continuedBy_readLines hfilled rest
  rw [hread, ← Reading.record?_finish hwhole, hfinish] at hlast
  have hbrace : (s.fill name body).readLine ['\x7d'] = (s.fill name body).closed :=
    Reading.readLine_brace ((Reading.openName?_fill s name body).trans hname)
  refine ⟨s, s.fill name body, hs, ?_, Reading.links_fill s name body,
    Reading.entityNames_fill s name body, fun other hother => Reading.record?_fill_of_ne hother s body,
    hbrace, r, last, hr, hfilled, hlast, hcontinued⟩
  rw [← List.cons_append, Reading.ofLines_append hs, hfill]

/-- A class that has been related before is filled, by a line among others that would be a relation
elsewhere, and its block is opened once more. -/
theorem Diagram.open_block_isolates_reopened :
    ∃ d : Diagram, ∃ s s' : Reading, ∃ r last : Record,
      parse "classDiagram\nA <|-- B\nclass A \x7b\n+x\nA --> C\n\x7d\nclass A \x7b\n+f()\n\x7d" = .ok d ∧
      Reading.ofLines ["classDiagram".toList, "A <|-- B".toList, "class A \x7b".toList] = .ok s ∧
      Reading.ofLines ["classDiagram".toList, "A <|-- B".toList, "class A \x7b".toList, "+x".toList,
        "A --> C".toList] = .ok s' ∧
      s'.links = s.links ∧ s'.entityNames = s.entityNames ∧ s'.record? "B" = s.record? "B" ∧
      s.record? "A" = some r ∧ s'.record? "A" = some (r.filled ["+x".toList, "A --> C".toList]) ∧
      d.record? "A" = some last ∧
      (r.filled ["+x".toList, "A --> C".toList]).ContinuedBy last := by
  have hparse : parse
      "classDiagram\nA <|-- B\nclass A \x7b\n+x\nA --> C\n\x7d\nclass A \x7b\n+f()\n\x7d" =
        .ok (.classes ⟨[⟨"A", none, [⟨.isPublic, "x", ""⟩, ⟨.isPublic, "--> C", "A"⟩],
            [⟨.isPublic, "f()", ""⟩]⟩, ⟨"B", none, [], []⟩],
          [⟨"B", "A", .inheritance, none, none, none⟩]⟩) := rfl
  have hlines : Text.significantLines
      "classDiagram\nA <|-- B\nclass A \x7b\n+x\nA --> C\n\x7d\nclass A \x7b\n+f()\n\x7d".toList =
        "classDiagram".toList :: (["A <|-- B".toList, "class A \x7b".toList] ++
          (["+x".toList, "A --> C".toList] ++
            ["\x7d".toList, "class A \x7b".toList, "+f()".toList, "\x7d".toList])) := by decide
  have hopen : DiagramKind.classes.openBlock? ["A <|-- B".toList, "class A \x7b".toList] =
      some "A" := by decide
  have hbody : ['\x7d'] ∉ ["+x".toList, "A --> C".toList] := by decide
  obtain ⟨s, s', hs, hs', hlinks, hnames, hother, -, r, last, hr, hr', hlast, hcontinued⟩ :=
    open_block_isolates hparse hlines hopen hbody
  exact ⟨_, s, s', r, last, hparse, hs, hs', hlinks, hnames, hother "B" (by decide), hr, hr', hlast,
    hcontinued⟩

end TextDiagram
