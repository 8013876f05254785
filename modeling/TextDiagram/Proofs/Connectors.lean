import TextDiagram.Proofs.ClassDiagram.Layout
import TextDiagram.Proofs.EntityDiagram.Layout
import TextDiagram.Proofs.Geometry.Connector
/-!
# Relationships between boxes of a grid

The boxes of class and entity-relationship diagrams stand on a grid on which boxes of one row begin
at one height and grow with what they list. A relationship joins the sides of two of them that face each
other, which by definition are those on the axis on which their centres are further apart. A connector
so chosen stays out of both boxes unless they stand in one row and one of them is so much higher that its
centre is further down than it is aside. Then it leads from the lower side of the shorter box up to the
upper side of the higher one, through the inside of the shorter box.

Main statements:

* `Grid.onGrid_frames`: two boxes of a grid, both in the sense of lists and in that of geometry.
* `Connected.clearUnlessOvertopped`: the connectors between the named boxes of a grid.
* `Diagram.connectors_clear_iff`: the relationships in the drawing of any text.
* `Diagram.connector_enters_short_class`: a connector that runs through its own box.
-/

namespace TextDiagram

/-! ## Boxes of a grid -/

/-- Boxes of one width on a grid keep apart by row or by column. -/
theorem Grid.onGrid_frames {padding spacing width : Rat} {sizes : List (Size Rat)}
    (hspacing : 0 ≤ spacing) (hwidth : 0 < width)
    (hsizes : ∀ size ∈ sizes, size.width = width ∧ 0 < size.height) {i j : Nat} {a b : Rect Rat}
    (ha : (frames padding spacing sizes)[i]? = some a)
    (hb : (frames padding spacing sizes)[j]? = some b) (hne : i ≠ j) : a.OnGrid b := by
  have hextents : ∀ {k : Nat} {r : Rect Rat}, (frames padding spacing sizes)[k]? = some r →
      r.width = width ∧ 0 < r.height := by
    intro k r hr
    rcases extents_of_getElem?_frames hr with ⟨size, hsize, hw, hh⟩
    rw [hw, hh]
    exact hsizes size hsize
  have haheight : a.top < a.bottom := sub_pos.1 (hextents ha).2
  have hbheight : b.top < b.bottom := sub_pos.1 (hextents hb).2
  have hawidth : a.right - a.left = width := (hextents ha).1
  have hbwidth : b.right - b.left = width := (hextents hb).1
  have hrow := row_eq_or hspacing ha hb fun size hsize => (hsizes size hsize).2.le
  have hcolumn := column_eq_or hspacing ha hb fun size hsize => by
    rw [(hsizes size hsize).1]
    exact hwidth.le
  refine ⟨?_, ?_, ?_, hawidth.trans hbwidth.symm, by linarith, haheight, hbheight⟩
  · exact hrow.imp And.right (Or.imp (le_of_add_le_of_nonneg_left · hspacing)
      (le_of_add_le_of_nonneg_left · hspacing))
  · exact hcolumn.imp And.right (Or.imp (le_of_add_le_of_nonneg_left · hspacing)
      (le_of_add_le_of_nonneg_left · hspacing))
  · -- Boxes with one row and one column would have one number.
    intro htop hleft
    have hi : i / columns sizes.length = j / columns sizes.length := by
      rcases hrow with h | h | h
      · exact h.1
      · linarith
      · linarith
    have hj : i % columns sizes.length = j % columns sizes.length := by
      rcases hcolumn with h | h | h
      · exact h.1
      · linarith
      · linarith
    refine hne ?_
    rw [← Nat.div_add_mod i (columns sizes.length), hi, hj, Nat.div_add_mod]

/-- The link stays outside of the two boxes that it ties together, unless one of them overtops the
other; then it enters one of them. -/
def Link.ClearUnlessOvertopped (outlines : List (String × Outline Rat)) (link : Link Rat) : Prop :=
  ∃ a b, Keyed.value? outlines link.source = some (.box a) ∧
    Keyed.value? outlines link.target = some (.box b) ∧
    ((¬link.ends.Enters a ∧ ¬link.ends.Enters b) ↔ ¬a.Overtops b)

/-- Connectors between boxes of one width on a grid are clear unless one box overtops the other. -/
theorem Connected.clearUnlessOvertopped {β : Type} [Keyed β] {padding spacing width : Rat}
    {size : β → Size Rat} {entries : List β} {outlines : List (String × Outline Rat)}
    {links : List (Link Rat)}
    (h : Connected (Grid.namedFrames padding spacing size entries) outlines links)
    (hspacing : 0 ≤ spacing) (hwidth : 0 < width)
    (hsize : ∀ entry, (size entry).width = width ∧ 0 < (size entry).height) :
    ∀ link ∈ links, link.source ≠ link.target → link.ClearUnlessOvertopped outlines := by
  intro link hlink hne
  rcases h.connects link hlink with ⟨a, b, hsource, htarget, hends⟩
  refine ⟨a, b, ?_, ?_, ?_⟩
  · rw [h.outlines_eq, Keyed.value?_map, hsource]
    rfl
  · rw [h.outlines_eq, Keyed.value?_map, htarget]
    rfl
  · -- Boxes of different names have different numbers on the grid.
    rcases List.mem_iff_getElem?.1 (Keyed.mem_of_value? hsource) with ⟨i, hi⟩
    rcases List.mem_iff_getElem?.1 (Keyed.mem_of_value? htarget) with ⟨j, hj⟩
    rcases List.getElem?_zip_eq_some.1 hi with ⟨hiname, hiframe⟩
    rcases List.getElem?_zip_eq_some.1 hj with ⟨hjname, hjframe⟩
    have hij : i ≠ j := by
      rintro rfl
      exact hne (Option.some.inj (hiname.symm.trans hjname))
    have hsizes : ∀ s ∈ entries.map size, s.width = width ∧ 0 < s.height := by
      intro s hs
      rcases List.mem_map.1 hs with ⟨entry, -, rfl⟩
      exact hsize entry
    rw [hends]
    exact (Grid.onGrid_frames hspacing hwidth hsizes hiframe hjframe hij).connector_clear_iff

/-! ## Drawings of texts -/

/-- The boxes of classes and entities have a width, and no other size or spacing of theirs is
negative. -/
structure Config.ShowsBoxes (config : Config) : Prop where
  classBoxWidth : 0 < config.classBoxWidth
  classHeaderHeight : 0 ≤ config.classHeaderHeight
  classMemberHeight : 0 ≤ config.classMemberHeight
  classSpacing : 0 ≤ config.classSpacing
  entityWidth : 0 < config.entityWidth
  entityHeaderHeight : 0 ≤ config.entityHeaderHeight
  entityAttributeHeight : 0 ≤ config.entityAttributeHeight
  entitySpacing : 0 ≤ config.entitySpacing

theorem Config.showsBoxes_ofTheme (theme : Theme) : (ofTheme theme).ShowsBoxes := by
  cases theme <;> constructor <;> decide

section

variable {config : Config} (hconfig : config.ShowsBoxes)

include hconfig

theorem ClassDiagram.exists_clear_layout {diagram : ClassDiagram} (h : diagram.WellReferenced) :
    ∃ l : ClassLayout Rat, diagram.layout config = .ok l ∧
      l.relationships.map (·.relationship) = diagram.relationships ∧
      ∀ link ∈ l.links, link.source ≠ link.target → link.ClearUnlessOvertopped l.outlines := by
  rcases exists_layout Rat config h with ⟨l, hl, -, hlines, hconnected⟩
  refine ⟨l, hl, hlines, hconnected.clearUnlessOvertopped
    (Rat.intCast_nonneg.2 hconfig.classSpacing) (Rat.intCast_pos.2 hconfig.classBoxWidth)
    fun c => ⟨rfl, ?_⟩⟩
  exact height_boxSize_pos hconfig.classHeaderHeight hconfig.classMemberHeight c

theorem EntityDiagram.exists_clear_layout {diagram : EntityDiagram}
    (h : diagram.WellReferenced) :
    ∃ l : EntityLayout Rat, diagram.layout config = .ok l ∧
      l.relationships.map (·.relationship) = diagram.relationships ∧
      ∀ link ∈ l.links, link.source ≠ link.target → link.ClearUnlessOvertopped l.outlines := by
  rcases exists_layout Rat config h with ⟨l, hl, -, hlines, hconnected⟩
  refine ⟨l, hl, hlines, hconnected.clearUnlessOvertopped
    (Rat.intCast_nonneg.2 hconfig.entitySpacing) (Rat.intCast_pos.2 hconfig.entityWidth)
    fun entity => ⟨rfl, ?_⟩⟩
  exact height_boxSize_pos hconfig.entityHeaderHeight hconfig.entityAttributeHeight entity

end

namespace Diagram

/-- In the drawing of any class or entity-relationship text the relationships between different
boxes stay outside of both, except where the two boxes stand in one row and one overtops the
other. -/
theorem connectors_clear_iff {config : Config} (hconfig : config.ShowsBoxes) (text : String) :
    (∀ diagram, parse text = .ok (.classes diagram) →
      ∃ l : ClassLayout Rat, diagram.layout config = .ok l ∧
        l.relationships.map (·.relationship) = diagram.relationships ∧
        ∀ link ∈ l.links, link.source ≠ link.target → link.ClearUnlessOvertopped l.outlines) ∧
    ∀ diagram, parse text = .ok (.entities diagram) →
      ∃ l : EntityLayout Rat, diagram.layout config = .ok l ∧
        l.relationships.map (·.relationship) = diagram.relationships ∧
        ∀ link ∈ l.links, link.source ≠ link.target → link.ClearUnlessOvertopped l.outlines := by
  have hread : ∀ {d : Diagram}, parse text = .ok d → d.WellReferenced := by
    intro d hparse
    rcases exists_ofLines_of_parse hparse with ⟨kind, header, lines, rfl⟩
    exact wellReferenced_ofLines kind header lines
  constructor
  · intro diagram hparse
    exact ClassDiagram.exists_clear_layout hconfig (hread hparse)
  · intro diagram hparse
    exact EntityDiagram.exists_clear_layout hconfig (hread hparse)

/-- Two empty classes side by side, joined from side to side. -/
theorem connectors_clear_side_by_side :
    Config.light.ShowsBoxes ∧
      ∃ diagram, parse "classDiagram\nA --> B" = .ok (.classes diagram) ∧
        ∃ l : ClassLayout Rat, diagram.layout Config.light = .ok l ∧
          ∃ link ∈ l.links, link.source ≠ link.target ∧
            link.ClearUnlessOvertopped l.outlines := by
  have hconfig := Config.showsBoxes_ofTheme .light
  have hparse : parse "classDiagram\nA --> B" = .ok (.classes
      ⟨[⟨"A", none, [], []⟩, ⟨"B", none, [], []⟩],
        [⟨"A", "B", .association, none, none, none⟩]⟩) := rfl
  rcases (connectors_clear_iff hconfig "classDiagram\nA --> B").1 _ hparse with ⟨l, hl, -, hclear⟩
  have hlink : ∃ link ∈ l.links, link.source ≠ link.target := by
    cases hl
    decide
  rcases hlink with ⟨link, hmem, hne⟩
  exact ⟨hconfig, _, hparse, l, hl, link, hmem, hne, hclear link hmem hne⟩

/-- A class with many properties beside one without any. The boxes stand in one row, but the
connector leads from the lower side of the lower one to the upper side of the higher one and runs
through the lower one. -/
theorem connector_enters_short_class :
    ∃ diagram, parse ("classDiagram\nA --> B\nclass B \x7b\n" ++
        String.join (List.replicate 27 "a\n") ++ "\x7d") = .ok (.classes diagram) ∧
      ∃ l : ClassLayout Rat, diagram.layout Config.light = .ok l ∧
        ∃ link ∈ l.links, link.source ≠ link.target ∧
          ∃ a, (link.source, .box a) ∈ l.outlines ∧ link.ends.Enters a := by
  have hparse : parse ("classDiagram\nA --> B\nclass B \x7b\n" ++
      String.join (List.replicate 27 "a\n") ++ "\x7d") = .ok (.classes
        ⟨[⟨"A", none, [], []⟩, ⟨"B", none, List.replicate 27 ⟨.isPublic, "a", ""⟩, []⟩],
          [⟨"A", "B", .association, none, none, none⟩]⟩) := by decide +kernel
  -- A tenth of the way along, the connector is inside the box that it starts from.
  have hinside : ∃ l : ClassLayout Rat, ClassDiagram.layout Config.light
      ⟨[⟨"A", none, [], []⟩, ⟨"B", none, List.replicate 27 ⟨.isPublic, "a", ""⟩, []⟩],
        [⟨"A", "B", .association, none, none, none⟩]⟩ = .ok l ∧
      ∃ r ∈ l.relationships, r.relationship.source ≠ r.relationship.target ∧
        ∃ c ∈ l.classes, c.classDef.name = r.relationship.source ∧
          c.frame.Surrounds (r.line.pointAt (1 / 10)) := by
    refine ⟨_, rfl, ?_⟩
    decide +kernel
  rcases hinside with ⟨l, hl, r, hr, hne, c, hc, hname, hinside⟩
  refine ⟨_, hparse, l, hl, _, List.mem_map_of_mem hr, hne, c.frame, ?_, 1 / 10, by norm_num,
    by norm_num, hinside⟩
  rw [← hname]
  exact List.mem_map_of_mem hc

end Diagram

end TextDiagram
