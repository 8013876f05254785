import TextDiagram.Proofs.Attachment
import TextDiagram.Proofs.Grid
/-!
# Named boxes on a grid

Class diagrams and entity-relationship diagrams are placed alike. Each entry has a box on the grid, whose
frame is found under the name of the entry, and each relation is the connector of the two frames that
are found under its names. What an entry lists only has a bearing on the size of its box.

Main statements:

* `Grid.exists_named`, `Grid.valid_of_mem_namedFrames`: the frames under the names of the entries.
* `Grid.exists_of_mem_zipWith`: a box stands in a frame of its size.
* `Grid.connected`: the boxes and connectors that are made of entries and relations.
* `Connected.framed`: relations between boxes with distinct names have the frames of their ends.
-/

namespace TextDiagram

variable {α β π : Type} [Scalar α]

namespace Grid

section

variable [Keyed β]

/-- The frames of the boxes of some entries, under the names of the entries. -/
def namedFrames (padding spacing : α) (size : β → Size α) (entries : List β) :
    List (String × Rect α) :=
  (Keyed.keys entries).zip (frames padding spacing (entries.map size))

variable {padding spacing : α} {size : β → Size α} {entries : List β}

/-- There is a frame under the name of each entry. -/
theorem keys_namedFrames :
    Keyed.keys (namedFrames padding spacing size entries) = Keyed.keys entries := by
  refine List.map_fst_zip ?_
  -- As many frames are made as there are entries.
  rw [length_frames, List.length_map]
  exact (List.length_map Keyed.key).le

/-- What was entered is found. -/
theorem exists_named {name : String} (h : name ∈ Keyed.keys entries) :
    ∃ frame, Keyed.value? (namedFrames padding spacing size entries) name = some frame := by
  rw [Keyed.exists_value?_iff, keys_namedFrames]
  exact h

end

/-- In exact arithmetic the sides of the frames are in order if no box has a negative size. -/
theorem valid_of_mem_namedFrames [Keyed β] {padding spacing : Rat} {size : β → Size Rat}
    {entries : List β} (hsize : ∀ entry, 0 ≤ (size entry).width ∧ 0 ≤ (size entry).height)
    (name : String) (frame : Rect Rat)
    (h : (name, frame) ∈ namedFrames padding spacing size entries) : frame.Valid := by
  refine valid_of_mem_frames (fun s hs => ?_) (List.of_mem_zip h).2
  rcases List.mem_map.1 hs with ⟨entry, -, rfl⟩
  exact hsize entry

section

variable {padding spacing : α} {size : β → Size α} {entries : List β} {place : β → Rect α → π}

/-- Every entry is kept in its box. -/
theorem map_zipWith_frames {kept : π → β} (hkept : ∀ entry frame, kept (place entry frame) = entry) :
    (entries.zipWith place (frames padding spacing (entries.map size))).map kept = entries := by
  refine map_zipWith_eq_self hkept ?_
  rw [length_frames, List.length_map]

/-- Every box stands in a frame of its size. -/
theorem exists_of_mem_zipWith {box : π}
    (h : box ∈ entries.zipWith place (frames padding spacing (entries.map size))) :
    ∃ entry frame, Fits (size entry) frame ∧ place entry frame = box :=
  TextDiagram.exists_of_mem_zipWith
    (List.forall₂_map_left_iff.1 (forall₂_frames padding spacing (entries.map size))) h

end

end Grid

/-- The outlines are the named frames themselves, and all links are connectors between them. -/
structure Connected (named : List (String × Rect α)) (outlines : List (String × Outline α))
    (links : List (Link α)) : Prop where
  outlines_eq : outlines = named.map fun entry => (entry.1, .box entry.2)
  connects : ∀ link ∈ links, link.Connects named

/-- What is made of entries and relations is connected if an entry is drawn in its frame, under its
name, and a relation as the connector of the frames of its ends. -/
theorem Grid.connected [Keyed β] {ρ ζ : Type} {padding spacing : α} {size : β → Size α}
    {entries : List β} {place : β → Rect α → π} {outline : π → String × Outline α}
    (houtline : ∀ entry frame, outline (place entry frame) = (Keyed.key entry, .box frame))
    {relations : List ρ} {ends : ρ → String × String} {make : ρ → Rect α → Rect α → ζ}
    {link : ζ → Link α}
    (hlink : ∀ r a b, link (make r a b) = ⟨(ends r).1, (ends r).2, a.connector b⟩)
    {lines : List ζ} (hlines : relations.mapM (placeBy (namedFrames padding spacing size entries)
      (namedFrames padding spacing size entries) ends make) = .ok lines) :
    Connected (namedFrames padding spacing size entries)
      ((entries.zipWith place (frames padding spacing (entries.map size))).map outline)
      (lines.map link) where
  outlines_eq := map_zipWith_eq_map_zip houtline _ _
  connects := connects_of_placedBy hlink hlines

namespace Connected

variable {named : List (String × Rect α)} {outlines : List (String × Outline α)}
  {links : List (Link α)}

/-- Boxes with distinct names have the frames that are looked up, and connectors run between them. -/
theorem framed (h : Connected named outlines links) (hnodup : (Keyed.keys outlines).Nodup) :
    Framed named outlines links := by
  -- Outlines stand under the names of the frames, which are distinct then.
  have hkeys : Keyed.keys outlines = Keyed.keys named := by
    rw [h.outlines_eq, Keyed.keys, List.map_map]
    rfl
  rw [h.outlines_eq]
  exact Framed.of_named (hkeys ▸ hnodup) fun link hlink => (h.connects link hlink).between

end Connected

end TextDiagram
