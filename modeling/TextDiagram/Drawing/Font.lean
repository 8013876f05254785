/-!
# Fonts

A font is requested by its size and loaded from the first usable font file; without one the
built-in font serves. Loaded fonts are kept in a cache under their size.

Main statements: `FontCache.font_eq_load`, a cache filled by loading answers every request as if it
were empty; `FontCache.faithful_font`, it stays filled by loading.
-/

namespace TextDiagram

/-- A font that text can be drawn with. -/
inductive Font where
  | builtIn
  | trueType (path : String) (size : Int)
  deriving DecidableEq, Repr, Inhabited

/-- The place of a text that is drawn from the origin: the corner of its ink, and its size. -/
structure TextBox where
  left : Int
  top : Int
  width : Int
  height : Int
  deriving DecidableEq, Repr

namespace Font

/-- A name that tells fonts apart. -/
def name : Font → String
  | builtIn => "default"
  | trueType path size => path ++ "@" ++ toString size

/-- The size of a font in pixels. -/
def size : Font → Int
  | builtIn => 10
  | trueType _ size => size

/-- The place of a text drawn with a font. Texts are measured by a library that reads the font file, and
what it measures is not known here. This metric, in which all characters of a font have one width, is
assumed in its place; it decides where exactly a text is put, and no statement depends on it. -/
def textBox (font : Font) (text : String) : TextBox where
  left := 1
  top := Int.fdiv font.size 4
  width := (text.toList.length : Int) * Int.fdiv (font.size + 1) 2
  height := font.size

end Font

/-- The font files of a system: a custom one that is tried first, and for each file that exists
whether it can be loaded. -/
structure FontLibrary where
  custom : Option String
  files : List (String × Bool)
  deriving DecidableEq, Repr

namespace FontLibrary

/-- The usual places of font files, in the order in which they are tried. -/
def usualPaths : List String :=
  ["/usr/share/fonts/truetype/dejavu/DejaVuSans.ttf",
    "/usr/share/fonts/truetype/liberation/LiberationSans-Regular.ttf",
    "/usr/share/fonts/truetype/dejavu/DejaVuSansMono.ttf",
    "/usr/share/fonts/truetype/liberation/LiberationMono-Regular.ttf",
    "/usr/share/fonts/truetype/freefont/FreeSans.ttf",
    "/Library/Fonts/Arial.ttf",
    "C:\\Windows\\Fonts\\arial.ttf"]

/-- All places that are tried; an empty custom path is none. -/
def candidates (library : FontLibrary) : List String :=
  (library.custom.filter (!·.isEmpty)).toList ++ usualPaths

/-- Whether a file exists and can be loaded. -/
def isUsable (library : FontLibrary) (path : String) : Bool :=
  (library.files.lookup path).getD false

/-- The font of a size. A font file is loaded by a library; it is assumed that a file which can be loaded
at all can be loaded at every size. -/
def load (library : FontLibrary) (size : Int) : Font :=
  match library.candidates.find? library.isUsable with
  | some path => .trueType path size
  | none => .builtIn

end FontLibrary

/-- The fonts loaded so far under their sizes, in the order of loading. -/
abbrev FontCache := List (Int × Font)

namespace FontCache

/-- The font of a size, from the cache or loaded into it. -/
def font (library : FontLibrary) (size : Int) : StateM FontCache Font := fun cache =>
  match cache.lookup size with
  | some font => (font, cache)
  | none => (library.load size, cache ++ [(size, library.load size)])

/-- Every entry is the font that loading gives. -/
def Faithful (library : FontLibrary) (cache : FontCache) : Prop :=
  ∀ entry ∈ cache, entry.2 = library.load entry.1

/-! ## Elementary facts -/

theorem mem_of_lookup {cache : FontCache} {size : Int} {font : Font}
    (h : cache.lookup size = some font) : (size, font) ∈ cache := by
  induction cache with
  | nil => simp at h
  | cons entry rest ih =>
    rw [List.lookup_cons] at h
    split at h
    · next hs =>
      simp only [beq_iff_eq] at hs
      simp only [Option.some.injEq] at h
      subst hs
      subst h
      exact List.mem_cons_self
    · exact List.mem_cons_of_mem _ (ih h)

theorem font_eq_load {library : FontLibrary} {cache : FontCache} (h : Faithful library cache)
    (size : Int) : (font library size cache).1 = library.load size := by
  unfold font
  split
  · next f hf => exact h _ (mem_of_lookup hf)
  · rfl

theorem faithful_nil (library : FontLibrary) : Faithful library [] := by
  simp [Faithful]

theorem faithful_font {library : FontLibrary} {cache : FontCache} (h : Faithful library cache)
    (size : Int) : Faithful library (font library size cache).2 := by
  unfold font
  split
  · exact h
  · intro entry hm
    rcases List.mem_append.1 hm with hm | hm
    · exact h _ hm
    · rw [List.mem_singleton.1 hm]

end FontCache

end TextDiagram
