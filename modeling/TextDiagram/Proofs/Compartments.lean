import Mathlib.Tactic.Linarith
import Mathlib.Tactic.Positivity
import Mathlib.Tactic.Ring
import TextDiagram.ClassDiagram.Drawing
import TextDiagram.Proofs.ClassDiagram.Layout
import TextDiagram.Proofs.ClassDiagram.Members
import TextDiagram.Proofs.EntityDiagram.Layout
import TextDiagram.Proofs.Geometry.Containment
import TextDiagram.Proofs.Integrity
/-!
# Compartments tile their box

The height of a box, the borders of its compartments and the heights of the texts in them are computed in
three places, each of them from the number of members. Here they are brought together: compartments are
stacked from the top of their box down, and a compartment has a row for each of its members.

Main statements:

* `Rect.Stacked.append`, `Rect.stacked_rows`: stacks on stacks, and stacks of equal rows.
* `Rect.Stacked.contains`: what is stacked stays in the frame.
* `ClassDiagram.tiled_placeClass`: the compartments of a class box and the texts in them.
* `EntityDiagram.tiled_placeEntity`: the rows of an entity box.
* `Diagram.compartments_tile`: the boxes in the drawing of a text.
-/

namespace TextDiagram

/-! ## Stacks -/

namespace Rect

/-- Rectangles with the same left and right sides that follow one another, without gap or overlap, from
one height down to another. -/
inductive Stacked (left right : Rat) : Rat → List (Rect Rat) → Rat → Prop where
  | nil (height : Rat) : Stacked left right height [] height
  | cons {top bottom : Rat} {r : Rect Rat} {more : List (Rect Rat)}
      (sides : r.left = left ∧ r.right = right) (first : r.top = top) (valid : top ≤ r.bottom)
      (rest : Stacked left right r.bottom more bottom) : Stacked left right top (r :: more) bottom

namespace Stacked

variable {left right top bottom : Rat} {stack : List (Rect Rat)}

theorem append {more : List (Rect Rat)} {stop : Rat} (h : Stacked left right top stack bottom)
    (hmore : Stacked left right bottom more stop) :
    Stacked left right top (stack ++ more) stop := by
  induction h with
  | nil height => exact hmore
  | cons sides first valid rest ih => exact .cons sides first valid (ih hmore)

theorem le (h : Stacked left right top stack bottom) : top ≤ bottom := by
  induction h with
  | nil height => exact le_rfl
  | cons sides first valid rest ih => exact valid.trans ih

/-- What is stacked stays between the top of the first rectangle and the bottom of the last one. -/
theorem contains (h : Stacked left right top stack bottom) :
    ∀ r ∈ stack, (⟨left, top, right, bottom⟩ : Rect Rat).Contains r := by
  induction h with
  | nil height => exact List.forall_mem_nil _
  | cons sides first valid rest ih =>
    refine List.forall_mem_cons.2 ⟨?_, ?_⟩
    · exact ⟨sides.1.ge, first.ge, sides.2.le, rest.le⟩
    · intro later hlater
      obtain ⟨hleft, htop, hright, hbottom⟩ := ih later hlater
      exact ⟨hleft, valid.trans htop, hright, hbottom⟩

end Stacked

/-- Rows of one height below one another. -/
theorem stacked_rows (left top width : Rat) {height : Rat} (h : 0 ≤ height) (count : Nat) :
    Stacked left (left + width) top
      ((List.range count).map fun (row : Nat) =>
        ofSize left (top + (row : Rat) * height) ⟨width, height⟩)
      (top + (count : Rat) * height) := by
  induction count with
  | zero =>
    rw [Nat.cast_zero, zero_mul, add_zero]
    exact .nil top
  | succ count ih =>
    have hbottom : (ofSize left (top + (count : Rat) * height) ⟨width, height⟩).bottom =
        top + ((count + 1 : Nat) : Rat) * height := by
      simp only [ofSize]
      push_cast
      ring
    rw [List.range_succ, List.map_append]
    refine ih.append (.cons ⟨rfl, rfl⟩ rfl (le_add_of_nonneg_right h) ?_)
    rw [hbottom]
    exact .nil _

end Rect

/-- Room for the members of a box: headers and rows have no negative height. -/
structure Config.RoomForRows (config : Config) : Prop where
  classHeaderHeight : 0 ≤ config.classHeaderHeight
  classMemberHeight : 0 ≤ config.classMemberHeight
  entityHeaderHeight : 0 ≤ config.entityHeaderHeight
  entityAttributeHeight : 0 ≤ config.entityAttributeHeight

/-! ## Class boxes -/

namespace ClassLayout

/-- The strip of a compartment that the member at an index has for its text. -/
def memberRow (config : Config) (compartment : Rect Rat) (index : Nat) : Rect Rat where
  left := compartment.left
  top := compartment.top + config.classMemberHeight * (index : Rat)
  right := compartment.right
  bottom := compartment.top + config.classMemberHeight * ((index : Rat) + 1)

/-- The text of a member in its row: the ink begins eight units behind the left side of the row, and its
middle is at the height of the middle of the row. -/
def memberText (pen : Pen) (small : Font) (row : Rect Rat) (m : ClassMember) : Call Rat :=
  let ink := small.textBox m.display
  .text
    ⟨(row.left + 8) * pen.scale - ink.left,
      row.center.y * pen.scale - (ink.height : Rat) / 2 - ink.top⟩
    m.display pen.config.textColor small

/-- A compartment has a row for each of its members. What is drawn in it are their texts in order, each in
its row. -/
structure HasRows (config : Config) (compartment : Rect Rat) (members : List ClassMember) : Prop where
  inside : ∀ index < members.length, compartment.Contains (memberRow config compartment index)
  drawn : ∀ (scale : Int) (small : Font),
    drawMembers ⟨config, scale⟩ small compartment members = members.mapIdx fun index m =>
      memberText ⟨config, scale⟩ small (memberRow config compartment index) m

end ClassLayout

/-- The three compartments of a class box are stacked from its top to its bottom, and the members have
their rows. -/
structure PositionedClass.Tiled (config : Config) (c : PositionedClass Rat) : Prop where
  compartments : Rect.Stacked c.frame.left c.frame.right c.frame.top
    [c.headerFrame, c.propertiesFrame, c.methodsFrame] c.frame.bottom
  properties : ClassLayout.HasRows config c.propertiesFrame c.classDef.properties
  methods : ClassLayout.HasRows config c.methodsFrame c.classDef.methods

namespace ClassLayout

variable {config : Config} {compartment : Rect Rat} {members : List ClassMember}

/-- A text is anchored in the middle of its row. -/
theorem memberAnchor_eq (config : Config) (compartment : Rect Rat) (index : Nat) :
    memberAnchor config compartment index =
      ⟨compartment.left + 8, (memberRow config compartment index).center.y⟩ := by
  have hmiddle : compartment.top + (config.classMemberHeight : Rat) * (index : Rat) +
      (config.classMemberHeight : Rat) / 2 = (memberRow config compartment index).center.y := by
    simp only [memberRow, Rect.center]
    ring
  exact congrArg (Point.mk _) hmiddle

/-- What is displayed of a member begins with its sign, so there always is something to write. -/
theorem isEmpty_display (m : ClassMember) : m.display.isEmpty = false := by
  have hchars := m.toList_display
  rw [← Bool.not_eq_true, String.isEmpty_iff, ← String.toList_eq_nil_iff, hchars]
  exact List.cons_ne_nil _ _

/-- A member is written in its row. -/
theorem writeLeft_memberAnchor (pen : Pen) (small : Font) (compartment : Rect Rat) (index : Nat)
    (m : ClassMember) :
    pen.writeLeft (memberAnchor pen.config compartment index) m.display small =
      [memberText pen small (memberRow pen.config compartment index) m] := by
  rw [memberAnchor_eq, Pen.writeLeft, Pen.write, isEmpty_display]
  rfl

theorem drawMembers_eq (pen : Pen) (small : Font) (compartment : Rect Rat)
    (members : List ClassMember) :
    drawMembers pen small compartment members = members.mapIdx fun index m =>
      memberText pen small (memberRow pen.config compartment index) m := by
  simp only [drawMembers, writeLeft_memberAnchor]
  rw [flatten_mapIdx_eq_flatMap, List.mapIdx_eq_zipIdx_map, List.map_eq_flatMap]

/-- A compartment that is as high as its members ask for has their rows. -/
theorem hasRows_of_height (hmember : 0 ≤ config.classMemberHeight)
    (h : compartment.top + ClassDiagram.compartmentHeight config members ≤ compartment.bottom) :
    HasRows config compartment members where
  inside index hindex := by
    have hrow : (0 : Rat) ≤ config.classMemberHeight := Rat.intCast_nonneg.2 hmember
    have hcount : ((index : Rat) + 1) ≤ (Nat.max 1 members.length : Nat) := by
      exact_mod_cast le_trans hindex (Nat.le_max_right 1 members.length)
    have hheight : ((index : Rat) + 1) * config.classMemberHeight ≤
        ClassDiagram.compartmentHeight config members := mul_le_mul_of_nonneg_right hcount hrow
    have hstart : (0 : Rat) ≤ config.classMemberHeight * (index : Rat) := by positivity
    constructor
    case left => exact le_rfl
    case top => exact le_add_of_nonneg_right hstart
    case right => exact le_rfl
    case bottom =>
      simp only [memberRow]
      linarith
  drawn scale small := drawMembers_eq ⟨config, scale⟩ small compartment members

end ClassLayout

namespace ClassDiagram

variable {config : Config} (hroom : config.RoomForRows)

include hroom

theorem compartmentHeight_nonneg (members : List ClassMember) :
    (0 : Rat) ≤ compartmentHeight config members :=
  mul_nonneg (Nat.cast_nonneg _) (Rat.intCast_nonneg.2 hroom.classMemberHeight)

/-- A class box in a frame of its size. -/
theorem tiled_placeClass {c : ClassDefinition} {frame : Rect Rat}
    (h : Grid.Fits (boxSize config c) frame) : (placeClass config c frame).Tiled config := by
  obtain ⟨x, y, rfl⟩ := h
  have hheader : (0 : Rat) ≤ config.classHeaderHeight :=
    Rat.intCast_nonneg.2 hroom.classHeaderHeight
  have hproperties := compartmentHeight_nonneg hroom c.properties
  have hmethods := compartmentHeight_nonneg hroom c.methods
  -- The box is four units higher than what is in it; they are left to the methods.
  have hslack : y + config.classHeaderHeight + compartmentHeight config c.properties +
      compartmentHeight config c.methods ≤ (Rect.ofSize x y (boxSize config c)).bottom := by
    simp only [Rect.ofSize, boxSize]
    linarith
  constructor
  case compartments =>
    refine .cons ⟨rfl, rfl⟩ rfl (le_add_of_nonneg_right hheader) ?_
    refine .cons ⟨rfl, rfl⟩ rfl (le_add_of_nonneg_right hproperties) ?_
    exact .cons ⟨rfl, rfl⟩ rfl (le_trans (le_add_of_nonneg_right hmethods) hslack) (.nil _)
  case properties => exact ClassLayout.hasRows_of_height hroom.classMemberHeight le_rfl
  case methods => exact ClassLayout.hasRows_of_height hroom.classMemberHeight hslack

theorem exists_tiled_layout {diagram : ClassDiagram} (h : diagram.WellReferenced) :
    ∃ l : ClassLayout Rat, diagram.layout config = .ok l ∧
      l.classes.map (·.classDef) = diagram.classes ∧ ∀ c ∈ l.classes, c.Tiled config := by
  obtain ⟨l, hl, hclasses, -⟩ := exists_layout Rat config h
  refine ⟨l, hl, hclasses, fun c hc => ?_⟩
  obtain ⟨relationships, -, rfl⟩ := layout_eq_ok_iff.1 hl
  obtain ⟨definition, frame, hframe, rfl⟩ := Grid.exists_of_mem_zipWith hc
  exact tiled_placeClass hroom hframe

end ClassDiagram

/-! ## Entity boxes -/

/-- The header of an entity box and a row for each attribute are stacked from its top down, and they end
before the box does. -/
structure PositionedEntity.Tiled (config : Config) (e : PositionedEntity Rat) : Prop where
  length_eq : e.attributeFrames.length = e.entity.attributes.length
  heights : ∀ r ∈ e.attributeFrames, r.height = config.entityAttributeHeight
  rows : ∃ bottom, Rect.Stacked e.frame.left e.frame.right e.frame.top
    (e.headerFrame :: e.attributeFrames) bottom
  inside : ∀ r ∈ e.headerFrame :: e.attributeFrames, e.frame.Contains r

namespace EntityDiagram

variable {config : Config} (hroom : config.RoomForRows)

include hroom

/-- An entity box in a frame of its size. -/
theorem tiled_placeEntity {entity : Entity} {frame : Rect Rat}
    (h : Grid.Fits (boxSize config entity) frame) : (placeEntity config entity frame).Tiled config := by
  obtain ⟨x, y, rfl⟩ := h
  have hheader : (0 : Rat) ≤ config.entityHeaderHeight :=
    Rat.intCast_nonneg.2 hroom.entityHeaderHeight
  have hrow : (0 : Rat) ≤ config.entityAttributeHeight :=
    Rat.intCast_nonneg.2 hroom.entityAttributeHeight
  have hright : x + (Rect.ofSize x y (boxSize config entity)).width =
      (Rect.ofSize x y (boxSize config entity)).right := by
    simp only [Rect.width]
    exact add_sub_cancel _ _
  have hstack : Rect.Stacked x (Rect.ofSize x y (boxSize config entity)).right y
      ((placeEntity config entity (Rect.ofSize x y (boxSize config entity))).headerFrame ::
        (placeEntity config entity (Rect.ofSize x y (boxSize config entity))).attributeFrames)
      (y + config.entityHeaderHeight +
        (entity.attributes.length : Rat) * config.entityAttributeHeight) := by
    have hrows := Rect.stacked_rows x (y + config.entityHeaderHeight)
      (Rect.ofSize x y (boxSize config entity)).width hrow entity.attributes.length
    rw [hright] at hrows
    exact .cons ⟨rfl, rfl⟩ rfl (le_add_of_nonneg_right hheader) hrows
  constructor
  case length_eq => exact (List.length_map _).trans List.length_range
  case heights =>
    intro r hr
    obtain ⟨row, -, rfl⟩ := List.mem_map.1 hr
    exact add_sub_cancel_left _ _
  case rows => exact ⟨_, hstack⟩
  case inside =>
    intro r hr
    obtain ⟨hleft, htop, hright, hbottom⟩ := hstack.contains r hr
    refine ⟨hleft, htop, hright, hbottom.trans ?_⟩
    -- An empty box has room for one row more than it has attributes.
    have hcount : (entity.attributes.length : Rat) ≤ (Nat.max 1 entity.attributes.length : Nat) :=
      Nat.cast_le.2 (Nat.le_max_right _ _)
    have hheight := mul_le_mul_of_nonneg_right hcount hrow
    show _ ≤ y + (config.entityHeaderHeight +
      (Nat.max 1 entity.attributes.length : Rat) * config.entityAttributeHeight + 4)
    linarith

theorem exists_tiled_layout {diagram : EntityDiagram} (h : diagram.WellReferenced) :
    ∃ l : EntityLayout Rat, diagram.layout config = .ok l ∧
      l.entities.map (·.entity) = diagram.entities ∧ ∀ e ∈ l.entities, e.Tiled config := by
  obtain ⟨l, hl, hentities, -⟩ := exists_layout Rat config h
  refine ⟨l, hl, hentities, fun e he => ?_⟩
  obtain ⟨relationships, -, rfl⟩ := layout_eq_ok_iff.1 hl
  obtain ⟨entity, frame, hframe, rfl⟩ := Grid.exists_of_mem_zipWith he
  exact tiled_placeEntity hroom hframe

end EntityDiagram

/-! ## Drawings of texts -/

namespace Diagram

/-- In the drawing of any class or entity-relationship text every class and every entity has its box. The
compartments of a class box tile it and have a row for the text of each member; an entity box has a row
for each attribute below its header. -/
theorem compartments_tile {config : Config} (hroom : config.RoomForRows) (text : String) :
    (∀ diagram, parse text = .ok (.classes diagram) →
      ∃ l : ClassLayout Rat, diagram.layout config = .ok l ∧
        l.classes.map (·.classDef) = diagram.classes ∧ ∀ c ∈ l.classes, c.Tiled config) ∧
    ∀ diagram, parse text = .ok (.entities diagram) →
      ∃ l : EntityLayout Rat, diagram.layout config = .ok l ∧
        l.entities.map (·.entity) = diagram.entities ∧ ∀ e ∈ l.entities, e.Tiled config := by
  have hread : ∀ {d : Diagram}, parse text = .ok d → d.WellReferenced := by
    intro d hparse
    obtain ⟨kind, header, lines, rfl⟩ := exists_ofLines_of_parse hparse
    exact wellReferenced_ofLines kind header lines
  constructor
  · intro diagram hparse
    exact ClassDiagram.exists_tiled_layout hroom (hread hparse)
  · intro diagram hparse
    exact EntityDiagram.exists_tiled_layout hroom (hread hparse)

/-- A class with two properties and no method beside one with a method, and an entity without attributes
beside one with two. -/
theorem compartments_tile_of_few_members :
    Config.light.RoomForRows ∧
      (∃ diagram, parse "classDiagram\nclass A \x7b\nx\ny\n\x7d\nB : f()" = .ok (.classes diagram) ∧
        ∃ l : ClassLayout Rat, diagram.layout Config.light = .ok l ∧
          l.classes.map (fun c => [c.headerFrame, c.propertiesFrame, c.methodsFrame]) =
            [[⟨40, 40, 240, 75⟩, ⟨40, 75, 240, 119⟩, ⟨40, 119, 240, 145⟩],
              [⟨320, 40, 520, 75⟩, ⟨320, 75, 520, 97⟩, ⟨320, 97, 520, 123⟩]] ∧
          ∀ c ∈ l.classes, c.Tiled Config.light) ∧
      ∃ diagram, parse "erDiagram\nA \x7b\nint x\nint y\n\x7d\nA ||--|| B : has" =
          .ok (.entities diagram) ∧
        ∃ l : EntityLayout Rat, diagram.layout Config.light = .ok l ∧
          l.entities.map (fun e => e.headerFrame :: e.attributeFrames) =
            [[⟨40, 40, 220, 72⟩, ⟨40, 72, 220, 94⟩, ⟨40, 94, 220, 116⟩], [⟨320, 40, 500, 72⟩]] ∧
          ∀ e ∈ l.entities, e.Tiled Config.light := by
  have hroom : Config.light.RoomForRows := by
    constructor <;> decide
  have hparse : parse "classDiagram\nclass A \x7b\nx\ny\n\x7d\nB : f()" = .ok (.classes
      ⟨[⟨"A", none, [⟨.isPublic, "x", ""⟩, ⟨.isPublic, "y", ""⟩], []⟩,
        ⟨"B", none, [], [⟨.isPublic, "f()", ""⟩]⟩], []⟩) := rfl
  have hparse' : parse "erDiagram\nA \x7b\nint x\nint y\n\x7d\nA ||--|| B : has" = .ok (.entities
      ⟨[⟨"A", [⟨"int", "x", none, none⟩, ⟨"int", "y", none, none⟩]⟩, ⟨"B", []⟩],
        [⟨"A", "B", "has", .exactlyOne, .exactlyOne⟩]⟩) := rfl
  obtain ⟨l, hl, -, htiled⟩ := (compartments_tile hroom _).1 _ hparse
  obtain ⟨l', hl', -, htiled'⟩ := (compartments_tile hroom _).2 _ hparse'
  refine ⟨hroom, ⟨_, hparse, l, hl, ?_, htiled⟩, _, hparse', l', hl', ?_, htiled'⟩
  · cases hl
    decide +kernel
  · cases hl'
    decide +kernel

end Diagram

end TextDiagram
