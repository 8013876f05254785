import Mathlib.Data.List.Induction
import Mathlib.Data.List.Nodup
import TextDiagram.Drawing.Pen
/-!
# Fonts are the same from the cache as from their files

A request for a font names a size in canvas units, or none. The cache knows sizes in pixels only, so
requests that come to one size in pixels share an entry. Whatever has been requested before, a request
is answered as it would be first, and the cache holds what the requests so far have been answered with,
once for each size in pixels.

Main statements:

* `FontLibrary.provides_iff`: loading tries the places of font files in order.
* `FontCache.Holds.font`: what one request does to the cache.
* `Renderer.holds_fontsAfter`: what some requests have done to it.
* `Renderer.font_transparent`: the answer to the next request, and the cache behind it.
-/

namespace TextDiagram

/-! ## Loading -/

namespace FontLibrary

variable {library : FontLibrary} {size : Int} {font : Font} {path : String}

/-- A file is missing or broken. -/
def Lacks (library : FontLibrary) (path : String) : Prop :=
  library.files.lookup path = none ∨ library.files.lookup path = some false

/-- The font of a size in pixels: that of the first place with a file that can be loaded, or else the
built-in one. -/
inductive Provides (library : FontLibrary) (size : Int) : Font → Prop where
  | file {before after : List String} {path : String}
      (hplaces : library.candidates = before ++ path :: after)
      (hbefore : ∀ earlier ∈ before, library.Lacks earlier)
      (hpath : library.files.lookup path = some true) :
      Provides library size (.trueType path size)
  | builtIn (hnone : ∀ path ∈ library.candidates, library.Lacks path) :
      Provides library size .builtIn

/-- A custom place is tried before the usual ones. -/
theorem candidates_of_custom {path : String} (hcustom : library.custom = some path) (hpath : path ≠ "") :
    library.candidates = path :: usualPaths := by
  simp [candidates, hcustom, Option.filter, hpath]

/-- Without one, and for the empty path, the usual places are all that are tried. -/
theorem candidates_of_no_custom (h : ∀ path ∈ library.custom, path = "") :
    library.candidates = usualPaths := by
  unfold candidates
  cases hcustom : library.custom with
  | none => rfl
  | some path =>
    rw [h path hcustom]
    rfl

theorem isUsable_iff : library.isUsable path = true ↔ library.files.lookup path = some true := by
  unfold isUsable
  cases library.files.lookup path <;> simp

theorem isUsable_eq_false_iff : library.isUsable path = false ↔ library.Lacks path := by
  unfold isUsable Lacks
  cases library.files.lookup path <;> simp

/-- What loading gives is what the library provides. -/
theorem provides_load (library : FontLibrary) (size : Int) :
    library.Provides size (library.load size) := by
  unfold load
  split
  · next path hfind =>
    obtain ⟨husable, before, after, hplaces, hbefore⟩ := List.find?_eq_some_iff_append.1 hfind
    -- The first usable candidate is loaded, and all before it are missing.
    refine .file hplaces (fun earlier hearlier => ?_) (isUsable_iff.1 husable)
    exact isUsable_eq_false_iff.1 (by simpa using hbefore earlier hearlier)
  · next hfind =>
    refine .builtIn fun path hpath => isUsable_eq_false_iff.1 ?_
    simpa using List.find?_eq_none.1 hfind path hpath

/-- The library provides one font for each size. -/
theorem provides_iff : library.Provides size font ↔ font = library.load size := by
  constructor
  · rintro (⟨hplaces, hbefore, hpath⟩ | hnone)
    · have hfind := List.find?_eq_some_iff_append.2 ⟨isUsable_iff.2 hpath, _, _, hplaces,
        fun earlier hearlier => by simp [isUsable_eq_false_iff.2 (hbefore earlier hearlier)]⟩
      rw [load, hfind]
    · have hfind : library.candidates.find? library.isUsable = none := by
        refine List.find?_eq_none.2 fun path hpath => ?_
        simp [isUsable_eq_false_iff.2 (hnone path hpath)]
      rw [load, hfind]
  · rintro rfl
    exact provides_load library size

end FontLibrary

/-! ## The cache -/

namespace FontCache

variable {library : FontLibrary} {requested : List Int} {cache : FontCache}

/-- The cache holds the fonts of the requested sizes, each once, and no others. -/
structure Holds (library : FontLibrary) (requested : List Int) (cache : FontCache) : Prop where
  nodup : (cache.map Prod.fst).Nodup
  mem_iff : ∀ size font, (size, font) ∈ cache ↔ size ∈ requested ∧ font = library.load size

theorem holds_nil (library : FontLibrary) : Holds library [] [] where
  nodup := List.nodup_nil
  mem_iff size font := by simp

namespace Holds

/-- A cache that holds what was requested holds nothing wrong. -/
theorem faithful (h : Holds library requested cache) : Faithful library cache := by
  intro entry hentry
  exact ((h.mem_iff entry.1 entry.2).1 hentry).2

/-- One more request: a size that is found has been requested before, and any other is new to the cache. -/
theorem font (h : Holds library requested cache) (size : Int) :
    Holds library (requested ++ [size]) (font library size cache).2 := by
  unfold FontCache.font
  split
  · next found hfound =>
    -- The size was requested before, so nothing is added.
    have hsize : size ∈ requested := ((h.mem_iff size found).1 (mem_of_lookup hfound)).1
    refine ⟨h.nodup, fun other font => ?_⟩
    rw [h.mem_iff, List.mem_append, List.mem_singleton]
    constructor
    · exact fun hother => ⟨.inl hother.1, hother.2⟩
    · rintro ⟨hother | rfl, hfont⟩
      · exact ⟨hother, hfont⟩
      · exact ⟨hsize, hfont⟩
  · next hmissing =>
    -- A size that is not found is new, so its font goes to the end.
    have hnew : size ∉ cache.map Prod.fst := by
      intro hsize
      obtain ⟨entry, hentry, rfl⟩ := List.mem_map.1 hsize
      simpa using List.lookup_eq_none_iff.1 hmissing entry hentry
    constructor
    · rw [List.map_append]
      exact h.nodup.append (List.nodup_singleton size) (List.disjoint_singleton.2 hnew)
    · intro other font
      rw [List.mem_append, List.mem_singleton, h.mem_iff, List.mem_append, List.mem_singleton,
        Prod.mk.injEq]
      constructor
      · rintro (⟨hother, hfont⟩ | ⟨rfl, hfont⟩)
        · exact ⟨.inl hother, hfont⟩
        · exact ⟨.inr rfl, hfont⟩
      · rintro ⟨hother | rfl, hfont⟩
        · exact .inl ⟨hother, hfont⟩
        · exact .inr ⟨rfl, hfont⟩

end Holds

end FontCache

/-! ## Requests -/

namespace Renderer

variable (r : Renderer)

/-- The size in pixels that a request comes to. No size and size zero stand for that of ordinary text. -/
def pixelSize (size : Option Int) : Int :=
  (size.filter (· ≠ 0)).getD r.config.fontSize * r.scale

theorem font_eq (size : Option Int) : r.font size = FontCache.font r.library (r.pixelSize size) := by
  cases size with
  | none => rfl
  | some n => by_cases hn : n = 0 <;> simp [Renderer.font, pixelSize, Option.filter, hn]

/-- The cache of a new renderer after some requests. -/
def fontsAfter (sizes : List (Option Int)) : FontCache :=
  ((sizes.mapM r.font : StateM FontCache (List Font)) []).2

theorem fontsAfter_concat (before : List (Option Int)) (size : Option Int) :
    r.fontsAfter (before ++ [size]) = (r.font size (r.fontsAfter before)).2 := by
  rw [fontsAfter, List.mapM_append, List.mapM_cons, List.mapM_nil]
  rfl

/-- After some requests the cache holds the font of each size once. -/
theorem holds_fontsAfter (sizes : List (Option Int)) :
    FontCache.Holds r.library (sizes.map r.pixelSize) (r.fontsAfter sizes) := by
  induction sizes using List.reverseRecOn with
  | nil => exact FontCache.holds_nil r.library
  | append_singleton before size ih =>
    rw [fontsAfter_concat, font_eq, List.map_append]
    exact ih.font (r.pixelSize size)

/-- With such a cache a request is answered by loading. -/
theorem font_eq_load {cache : FontCache} (h : cache.Faithful r.library) (size : Option Int) :
    (r.font size cache).1 = r.library.load (r.pixelSize size) := by
  rw [font_eq, FontCache.font_eq_load h]

/-- After any requests, the next one is answered as it would be by a new renderer: with the font of the
first place that has a file that can be loaded, at the size in pixels that the request comes to, or else
with the built-in font. The places are the custom path, if there is one that is not empty, and behind it
the usual paths. Then the cache holds one entry for each size in pixels that has been requested, this one
included, with the font that it was answered with. -/
theorem font_transparent (before : List (Option Int)) (size : Option Int) :
    let answer := r.font size (r.fontsAfter before)
    answer.1 = (r.font size []).1 ∧
      (∀ path, r.library.custom = some path → path ≠ "" →
        r.library.candidates = path :: FontLibrary.usualPaths) ∧
      ((∀ path ∈ r.library.custom, path = "") →
        r.library.candidates = FontLibrary.usualPaths) ∧
      (∀ font, r.library.Provides (r.pixelSize size) font ↔ font = answer.1) ∧
      answer.2 = r.fontsAfter (before ++ [size]) ∧
      (answer.2.map Prod.fst).Nodup ∧
      ∀ pixels font, (pixels, font) ∈ answer.2 ↔
        ∃ request ∈ before ++ [size], r.pixelSize request = pixels ∧ font = (r.font request []).1 := by
  intro answer
  -- Both a new cache and a used one answer with the loaded font.
  have hnew : ∀ request, (r.font request []).1 = r.library.load (r.pixelSize request) :=
    r.font_eq_load (FontCache.faithful_nil r.library)
  have hanswer : answer.1 = r.library.load (r.pixelSize size) :=
    r.font_eq_load (r.holds_fontsAfter before).faithful size
  have hcache : answer.2 = r.fontsAfter (before ++ [size]) := (r.fontsAfter_concat before size).symm
  have hholds := r.holds_fontsAfter (before ++ [size])
  refine ⟨hanswer.trans (hnew size).symm, fun path => FontLibrary.candidates_of_custom,
    FontLibrary.candidates_of_no_custom, fun font => ?_, hcache, ?_, fun pixels font => ?_⟩
  · rw [hanswer]
    exact FontLibrary.provides_iff
  · rw [hcache]
    exact hholds.nodup
  · rw [hcache, hholds.mem_iff, List.mem_map]
    constructor
    · rintro ⟨⟨request, hrequest, rfl⟩, hfont⟩
      exact ⟨request, hrequest, rfl, hfont.trans (hnew request).symm⟩
    · rintro ⟨request, hrequest, rfl, hfont⟩
      exact ⟨⟨request, hrequest, rfl⟩, hfont.trans (hnew request)⟩

/-- Requests for the usual size, in three ways, and for a smaller one. The custom file is broken. -/
example :
    let library : FontLibrary :=
      ⟨some "a.ttf", [("a.ttf", false), ("/Library/Fonts/Arial.ttf", true)]⟩
    fontsAfter ⟨⟨Config.light, 2⟩, library⟩ [none, some 10, some 0, some 14] =
      [(28, .trueType "/Library/Fonts/Arial.ttf" 28),
        (20, .trueType "/Library/Fonts/Arial.ttf" 20)] := by
  decide

end Renderer

end TextDiagram
