import TextDiagram.Failure
import TextDiagram.PathName
import TextDiagram.Rendering
/-!
# The generator

A generator takes texts all the way to images. It keeps the fonts that it has loaded, and its layouts
share a router, which keeps the boxes of the last layered diagram. A session is a generator at work,
with both.

Main statement: `Session.saves_of_run_eq_error`, a step that fails writes nothing.
-/

namespace TextDiagram

/-- An image that was written to a file, or to memory when there is no path. -/
structure SavedImage where
  path : Option String
  format : String
  dpi : Nat × Nat
  width : Int
  height : Int
  deriving DecidableEq, Repr

/-- A generator: how it renders, and the fonts it has loaded. -/
structure Generator where
  renderer : Renderer
  fonts : FontCache
  deriving DecidableEq, Repr

/-- A generator at work, with the router that its layouts share. -/
structure Session (α : Type) extends Generator where
  router : Router α
  deriving DecidableEq, Repr

/-- Something to do with a text. -/
inductive GeneratorStep where
  | parse (text : String)
  | layout (text : String)
  | render (text : String)
  | encode (text : String)
  | save (text filename : String)
  | saveUsual (text filename : String)
  deriving DecidableEq, Repr

/-- What a successful step gives. -/
inductive Outcome (α : Type) where
  | diagram (d : Diagram)
  | layout (l : Layout α)
  | image (i : Image α)
  | encoded (file : SavedImage)
  | saved (path : String) (file : SavedImage)
  deriving DecidableEq, Repr

/-- What is seen of a step: what it gives, and each file it writes with the image in it. -/
structure Report (α : Type) where
  outcome : Except Failure (Outcome α)
  saves : List (SavedImage × Image α)
  deriving Repr

namespace SavedImage

/-- The record of an image that is saved in the one format and resolution in use. -/
def ofImage {α : Type} (path : Option String) (i : Image α) : SavedImage :=
  ⟨path, "PNG", (300, 300), i.width, i.height⟩

end SavedImage

namespace Generator

/-- A generator for a theme, of which a given configuration takes precedence over the colours but
not over the check of the name. -/
def create (theme : String) (config : Option Config) (scale : Int) (library : FontLibrary) :
    Except Failure Generator :=
  match Theme.ofName? theme with
  | none => .error .unknownTheme
  | some theme => .ok ⟨⟨⟨config.getD (Config.ofTheme theme), scale⟩, library⟩, []⟩

/-- The renderer of the usual configuration and fonts at the generator's scale. -/
def usualRenderer (g : Generator) : Renderer :=
  ⟨⟨Config.light, g.renderer.scale⟩, { g.renderer.library with custom := none }⟩

variable {α : Type} [Scalar α] [Trig α]

/-- Reads a text. -/
def parse (text : String) : Except Failure Diagram := (Diagram.parse text).mapError .parse

/-- Renders a placed text with a renderer and the fonts it has loaded. -/
def renderWith (r : Renderer) (fonts : FontCache) (l : Except Failure (Layout α)) :
    Except Failure (Image α) × FontCache :=
  match l with
  | .error e => (.error e, fonts)
  | .ok l =>
    let (image, fonts) := r.render l fonts
    (image.mapError .draw, fonts)

end Generator

namespace Session

variable {α : Type} [Scalar α] [Trig α]

/-- A generator that starts to work. -/
def start (g : Generator) : Session α := ⟨g, .usual⟩

/-- A new generator that starts to work. -/
def create (theme : String) (config : Option Config) (scale : Int) (library : FontLibrary) :
    Except Failure (Session α) :=
  (Generator.create theme config scale library).map start

/-- Places a diagram. -/
def place (d : Diagram) : StateM (Session α) (Except Failure (Layout α)) := fun s =>
  let (l, router) := d.layoutBy s.renderer.config s.router
  (l.mapError .layout, { s with router := router })

/-- Reads and places a text. -/
def layout (text : String) : StateM (Session α) (Except Failure (Layout α)) :=
  match Generator.parse text with
  | .error e => return .error e
  | .ok d => place d

/-- Renders a placed text. -/
def renderPlaced (l : Except Failure (Layout α)) : StateM (Session α) (Except Failure (Image α)) :=
  fun s =>
    let (image, fonts) := Generator.renderWith s.renderer s.fonts l
    (image, { s with fonts := fonts })

/-- Renders a placed text with a new renderer of the usual configuration. -/
def renderAnew (l : Except Failure (Layout α)) : StateM (Session α) (Except Failure (Image α)) :=
  fun s => ((Generator.renderWith s.usualRenderer [] l).1, s)

/-- Reads, places and renders a text. -/
def render (text : String) : StateM (Session α) (Except Failure (Image α)) := do
  renderPlaced (← layout text)

/-- Writes an image, if there is one, and names what has been written. -/
def write (path : Option String) (name : SavedImage → Outcome α) :
    Except Failure (Image α) → Report α
  | .error e => ⟨.error e, []⟩
  | .ok i =>
    let file := SavedImage.ofImage path i
    ⟨.ok (name file), [(file, i)]⟩

/-- Does one step. -/
def run : GeneratorStep → StateM (Session α) (Report α)
  | .parse text => return ⟨(Generator.parse text).map .diagram, []⟩
  | .layout text => return ⟨(← layout text).map .layout, []⟩
  | .render text => return ⟨(← render text).map .image, []⟩
  | .encode text => return write none .encoded (← render text)
  | .save text filename => do
    let path := PathName.simplify filename
    return write (some path) (.saved path) (← render text)
  | .saveUsual text filename => do
    let l ← layout text
    return write (some filename) (.saved filename) (← renderAnew l)

/-- Does some steps one after the other. A step that fails does not keep the next one from being
done. -/
def runAll (steps : List GeneratorStep) : StateM (Session α) (List (Report α)) := steps.mapM run

end Session

namespace Generator

variable {α : Type} [Scalar α] [Trig α]

/-- Reads and places a text. -/
def layout (g : Generator) (text : String) : Except Failure (Layout α) :=
  (Session.layout text (Session.start g)).1

/-- Reads, places and renders a text. -/
def render (g : Generator) (text : String) : Except Failure (Image α) × Generator :=
  let (image, s) := Session.render text (Session.start g)
  (image, s.toGenerator)

/-- Does one step. -/
def run (g : Generator) (step : GeneratorStep) : Except Failure (Outcome α) × Generator :=
  let (report, s) := Session.run step (Session.start g)
  (report.outcome, s.toGenerator)

end Generator

/-! ## Elementary facts -/

theorem bind_apply {σ β γ : Type} (m : StateM σ β) (f : β → StateM σ γ) (s : σ) :
    (m >>= f) s = f (m s).1 (m s).2 := rfl

theorem pure_apply {σ β : Type} (b : β) (s : σ) : (pure b : StateM σ β) s = (b, s) := rfl

namespace Session

variable {α : Type} [Scalar α] [Trig α]

theorem layout_toGenerator (text : String) (s : Session α) :
    (layout text s).2.toGenerator = s.toGenerator := by
  cases hparse : Generator.parse text with
  | error e =>
    rw [layout, hparse]
    rfl
  | ok d =>
    rw [layout, hparse]
    rfl

theorem render_toGenerator (text : String) (s : Session α) :
    (render text s).2.toGenerator =
      ⟨s.renderer, (Generator.renderWith s.renderer s.fonts (layout text s).1).2⟩ := by
  rw [render, bind_apply, renderPlaced, layout_toGenerator]

omit [Scalar α] [Trig α] in
theorem saves_of_write_eq_error {path : Option String} {name : SavedImage → Outcome α}
    {image : Except Failure (Image α)} {e : Failure}
    (h : (write path name image).outcome = .error e) : (write path name image).saves = [] := by
  cases image with
  | error e => rfl
  | ok i => cases h

theorem saves_of_run_eq_error {step : GeneratorStep} {s : Session α} {e : Failure}
    (h : (run step s).1.outcome = .error e) : (run step s).1.saves = [] := by
  cases step with
  | parse text => rfl
  | layout text | render text => simp only [run, bind_apply, pure_apply]
  | encode text | save text filename | saveUsual text filename =>
    simp only [run, bind_apply, pure_apply] at h ⊢
    exact saves_of_write_eq_error h

end Session

end TextDiagram
