import TextDiagram.Generator
/-!
# Sessions keep no history

A session carries two things from one step to the next: the fonts it has loaded and the boxes of the
last layered diagram. Neither is seen. A font is the same from the cache as from its file, and the
router is given the boxes of a diagram before it is asked for a route. So a step does what it would
do first, whatever has been done before it.

Main statements:

* `Steady.bind`: one after the other, actions that do not show their state do not show it either.
* `Renderer.steady_draw`, `Diagram.steady_layoutBy`: drawing and placing are such actions.
* `Session.steady_run`: one step is such an action.
* `Session.run_eq_run_start`: a session goes on as its generator does with a new router.
* `Session.runAll_of_settled`: what the steps of a run show.
* `Session.no_history`: any steps, failing ones among them.
-/

namespace TextDiagram

section

variable {σ β γ : Type} {I : σ → Prop}

/-- An action gives the same in all states that meet an invariant, and keeps the invariant. -/
structure Steady (I : σ → Prop) (m : StateM σ β) : Prop where
  value : ∀ s t, I s → I t → (m s).1 = (m t).1
  keeps : ∀ s, I s → I (m s).2

namespace Steady

/-- Giving back a value looks at no state. -/
theorem pure (b : β) : Steady I (Pure.pure b : StateM σ β) := ⟨fun _ _ _ _ => rfl, fun _ h => h⟩

/-- Steady computations one after the other are steady. -/
theorem bind {m : StateM σ β} {f : β → StateM σ γ} (hm : Steady I m) (hf : ∀ b, Steady I (f b)) :
    Steady I (m >>= f) where
  value s t hs ht := by
    show (f (m s).1 (m s).2).1 = (f (m t).1 (m t).2).1
    -- The second computation gets the same value, and states that keep the invariant.
    rw [hm.value s t hs ht]
    exact (hf _).value _ _ (hm.keeps s hs) (hm.keeps t ht)
  keeps s hs := (hf _).keeps _ (hm.keeps s hs)

/-- A function of a steady result is steady. -/
theorem map {m : StateM σ β} (f : β → γ) (hm : Steady I m) : Steady I (f <$> m) where
  value s t hs ht := congrArg f (hm.value s t hs ht)
  keeps s hs := hm.keeps s hs

end Steady

end

variable {α : Type} [Scalar α]

/-! ## Fonts -/

/-- A font is the same whether it is loaded or found. -/
theorem FontCache.steady_font (library : FontLibrary) (size : Int) :
    Steady (Faithful library) (font library size) where
  value s t hs ht := by rw [font_eq_load hs, font_eq_load ht]
  keeps s hs := faithful_font hs size

namespace Renderer

variable (r : Renderer)

/-- So is a font of the renderer. -/
theorem steady_font (size : Option Int) : Steady (FontCache.Faithful r.library) (r.font size) :=
  FontCache.steady_font r.library _

/-- A title is drawn alike with every faithful cache. -/
theorem steady_drawTitle (title : Option (TitleLine α)) :
    Steady (FontCache.Faithful r.library) (r.drawTitle title) := by
  cases title with
  | none => exact .pure []
  | some line => exact (r.steady_font _).bind fun font => .pure _

/-- Several kinds of diagrams are drawn with the font of ordinary text and a smaller one. -/
theorem steady_twoFonts {β : Type} (small : Int) (paint : Font → Font → β) :
    Steady (FontCache.Faithful r.library) do
      let font ← r.font none
      let small ← r.font (some small)
      return paint font small := by
  apply (r.steady_font none).bind
  intro font
  apply (r.steady_font (some small)).bind
  intro small
  exact .pure (paint font small)

/-- Drawing asks for fonts, and for nothing else that may differ from one time to the next. -/
theorem steady_draw [Trig α] (l : Layout α) :
    Steady (FontCache.Faithful r.library) (r.draw l) := by
  cases l with
  | flowchart l => exact (r.steady_font none).map (l.paint r.toPen)
  | sequence l => exact ((r.steady_font none).map (l.paint r.toPen)).map Except.ok
  | classes l | states l | entities l =>
    exact (r.steady_twoFonts _ fun font small => l.paint r.toPen font small).map Except.ok
  | pie l =>
    have hdraw : Steady (FontCache.Faithful r.library) (l.draw r) := by
      apply (r.steady_font none).bind
      intro font
      exact (r.steady_drawTitle _).map (· ++ l.paint r.toPen font)
    exact hdraw.map Except.ok
  | gantt l =>
    have hdraw : Steady (FontCache.Faithful r.library) (l.draw r) := by
      apply (r.steady_font none).bind
      intro font
      apply (r.steady_font _).bind
      intro small
      exact (r.steady_drawTitle _).map (· ++ l.paint r.toPen font small)
    exact hdraw.map Except.ok

/-- A placed diagram is rendered alike with every faithful cache. -/
theorem steady_render [Trig α] (l : Layout α) :
    Steady (FontCache.Faithful r.library) (r.render l) :=
  (r.steady_draw l).map _

end Renderer

/-! ## Routers -/

/-- A router that keeps the usual distances, from whatever boxes. -/
def Router.IsUsual (router : Router α) : Prop := ∃ boxes, router = usual.setBoxes boxes

/-- A new router has the usual settings. -/
theorem Router.isUsual_usual : (usual : Router α).IsUsual := ⟨[], rfl⟩

/-- A flowchart is laid out alike, whatever the router was used for before. -/
theorem Flowchart.steady_layoutBy (config : Config) (chart : Flowchart) :
    Steady Router.IsUsual
      (chart.layoutBy config : StateM (Router α) (Except LayoutError (FlowchartLayout α))) where
  value := by
    -- Routes are asked for after the boxes have been replaced by those of the chart.
    rintro _ _ ⟨boxes, rfl⟩ ⟨others, rfl⟩
    rfl
  keeps := by
    rintro _ ⟨boxes, rfl⟩
    exact ⟨_, rfl⟩

/-- So is a state diagram. -/
theorem StateDiagram.steady_layoutBy (config : Config) (diagram : StateDiagram) :
    Steady Router.IsUsual
      (diagram.layoutBy config : StateM (Router α) (Except LayoutError (StateLayout α))) where
  value := by
    rintro _ _ ⟨boxes, rfl⟩ ⟨others, rfl⟩
    rfl
  keeps := by
    rintro _ ⟨boxes, rfl⟩
    exact ⟨_, rfl⟩

/-- A router is given the boxes of each diagram anew, so that it does not show those it has. -/
theorem Diagram.steady_layoutBy [Trig α] (config : Config) (d : Diagram) :
    Steady Router.IsUsual
      (d.layoutBy config : StateM (Router α) (Except LayoutError (Layout α))) := by
  cases d with
  | flowchart chart => exact (chart.steady_layoutBy config).map _
  | states diagram => exact (diagram.steady_layoutBy config).map _
  | _ => exact .pure _

/-! ## Steps -/

namespace Session

variable [Trig α] {r : Renderer} {s : Session α}

/-- What the sessions of one renderer have in common, whatever they have done: their loaded fonts are
those of the files, and their routers differ in boxes only. -/
structure Settled (r : Renderer) (s : Session α) : Prop where
  renderer : s.renderer = r
  fonts : s.fonts.Faithful r.library
  router : s.router.IsUsual

omit [Trig α] in
/-- A new session is settled. -/
theorem settled_start (r : Renderer) : Settled r (start ⟨r, []⟩ : Session α) where
  renderer := rfl
  fonts := FontCache.faithful_nil r.library
  router := Router.isUsual_usual

/-- Placing a diagram depends on the settings of the session only. -/
theorem steady_place (r : Renderer) (d : Diagram) :
    Steady (Settled r) (place d : StateM (Session α) _) := by
  have hlayout := d.steady_layoutBy (α := α) r.config
  have hplace : ∀ s : Session α, Settled r s → place d s =
      ((d.layoutBy r.config s.router).1.mapError .layout,
        { s with router := (d.layoutBy r.config s.router).2 }) := by
    intro s hs
    rw [← hs.renderer]
    rfl
  constructor
  · intro s t hs ht
    rw [hplace s hs, hplace t ht, hlayout.value s.router t.router hs.router ht.router]
  · intro s hs
    rw [hplace s hs]
    exact ⟨hs.renderer, hs.fonts, hlayout.keeps s.router hs.router⟩

/-- So does laying out a text. -/
theorem steady_layout (r : Renderer) (text : String) :
    Steady (Settled r) (layout text : StateM (Session α) _) := by
  -- What cannot be read leaves the session alone.
  cases hparse : Generator.parse text with
  | error e =>
    rw [layout, hparse]
    exact .pure _
  | ok d =>
    rw [layout, hparse]
    exact steady_place r d

/-- What becomes of a placed text does not depend on the fonts loaded before. -/
theorem steady_renderWith (r : Renderer) (l : Except Failure (Layout α)) :
    Steady (FontCache.Faithful r.library) fun fonts => Generator.renderWith r fonts l := by
  cases l with
  | error e => exact .pure (Except.error e)
  | ok l => exact (r.steady_render l).map (Except.mapError Failure.draw)

/-- So does rendering a placed diagram. -/
theorem steady_renderPlaced (r : Renderer) (l : Except Failure (Layout α)) :
    Steady (Settled r) (renderPlaced l) := by
  have hrender := steady_renderWith r l
  have hplaced : ∀ s : Session α, Settled r s → renderPlaced l s =
      ((Generator.renderWith r s.fonts l).1,
        { s with fonts := (Generator.renderWith r s.fonts l).2 }) := by
    intro s hs
    rw [← hs.renderer]
    rfl
  constructor
  · intro s t hs ht
    rw [hplaced s hs, hplaced t ht]
    exact hrender.value s.fonts t.fonts hs.fonts ht.fonts
  · intro s hs
    rw [hplaced s hs]
    exact ⟨hs.renderer, hrender.keeps s.fonts hs.fonts, hs.router⟩

/-- A new renderer knows no fonts, and leaves those of the session alone. -/
theorem steady_renderAnew (r : Renderer) (l : Except Failure (Layout α)) :
    Steady (Settled r) (renderAnew l) := by
  constructor
  · intro s t hs ht
    have husual : s.usualRenderer = t.usualRenderer := by
      rw [Generator.usualRenderer, Generator.usualRenderer, hs.renderer, ht.renderer]
    rw [renderAnew, husual]
    rfl
  · intro s hs
    exact hs

/-- So does rendering a text. -/
theorem steady_render (r : Renderer) (text : String) :
    Steady (Settled r) (render text : StateM (Session α) _) :=
  (steady_layout r text).bind (steady_renderPlaced r)

/-- Every step shows the same in all sessions of one renderer. -/
theorem steady_run (r : Renderer) (step : GeneratorStep) :
    Steady (Settled r) (run step : StateM (Session α) _) := by
  cases step with
  | parse text => exact .pure _
  | layout text => exact (steady_layout r text).bind fun l => .pure _
  | render text | encode text | save text filename =>
    exact (steady_render r text).bind fun image => .pure _
  | saveUsual text filename =>
    apply (steady_layout r text).bind
    intro l
    exact (steady_renderAnew r l).bind fun image => .pure _

/-- The boxes of the router are never seen: a session goes on as its generator does with a new router,
to the same outcome and the same loaded fonts. -/
theorem run_eq_run_start (hs : Settled r s) (step : GeneratorStep) :
    ((run step s).1.outcome, (run step s).2.toGenerator) = s.toGenerator.run step := by
  have hstart : Settled r (start s.toGenerator) := ⟨hs.renderer, hs.fonts, Router.isUsual_usual⟩
  -- Both sessions are settled, so they report the same.
  have houtcome : (run step s).1.outcome = (run step (start s.toGenerator)).1.outcome :=
    congrArg Report.outcome ((steady_run r step).value s _ hs hstart)
  have hlayout : ∀ text, (layout text s).2.toGenerator =
      (layout text (start s.toGenerator : Session α)).2.toGenerator := by
    intro text
    rw [layout_toGenerator, layout_toGenerator, start]
  have hrender : ∀ text, (render text s).2.toGenerator =
      (render text (start s.toGenerator : Session α)).2.toGenerator := by
    intro text
    rw [render_toGenerator, render_toGenerator, (steady_layout r text).value s _ hs hstart, start]
  -- Which of the two parts of the session a step changes depends on what it does.
  have hgenerator : (run step s).2.toGenerator =
      (run step (start s.toGenerator : Session α)).2.toGenerator := by
    cases step with
    | parse text => rfl
    | layout text | saveUsual text filename =>
      simp only [run, renderAnew, bind_apply, pure_apply]
      exact hlayout text
    | render text | encode text | save text filename =>
      simp only [run, bind_apply, pure_apply]
      exact hrender text
  exact Prod.ext houtcome hgenerator

/-! ## Runs -/

/-- In a run every step shows what it would show in any other session of the renderer. -/
theorem runAll_of_settled {t : Session α} (hs : Settled r s) (ht : Settled r t)
    (steps : List GeneratorStep) :
    (runAll steps s).1 = steps.map (fun step => (run step t).1) ∧ Settled r (runAll steps s).2 := by
  induction steps generalizing s with
  | nil => exact ⟨rfl, hs⟩
  | cons step more ih =>
    have hstep := steady_run (α := α) r step
    rcases ih (hstep.keeps s hs) with ⟨hreports, hsettled⟩
    have hcons : runAll (step :: more) s =
        ((run step s).1 :: (runAll more (run step s).2).1, (runAll more (run step s).2).2) := by
      rw [runAll, List.mapM_cons, bind_apply, bind_apply]
      rfl
    rw [hcons, hreports, hstep.value s t hs ht]
    exact ⟨rfl, hsettled⟩

omit [Trig α] in
/-- A session that is created is settled. -/
theorem settled_of_create {theme : String} {config : Option Config} {scale : Int}
    {library : FontLibrary} (h : create theme config scale library = .ok s) :
    Settled s.renderer s := by
  rw [create, Generator.create] at h
  split at h
  · cases h
  · cases h
    exact settled_start _

/-- A generator keeps no history. Whatever it has been asked to do, each step shows what it would show
first: what it gives, and what it writes. A step that fails writes nothing, and the steps after it
show what they would show without it. -/
theorem no_history {theme : String} {config : Option Config} {scale : Int}
    {library : FontLibrary} (hs : create theme config scale library = .ok s)
    (steps : List GeneratorStep) :
    (runAll steps s).1 = steps.map (fun step => (run step s).1) ∧
    ∀ step e, (run step (runAll steps s).2).1.outcome = .error e →
      (run step (runAll steps s).2).1.saves = [] ∧
      ∀ more, (runAll more (run step (runAll steps s).2).2).1 =
        (runAll more (runAll steps s).2).1 := by
  have hnew := settled_of_create hs
  have hrun := runAll_of_settled hnew hnew
  constructor
  · exact (hrun steps).1
  · intro step e herror
    have hbefore := (hrun steps).2
    have hafter := (steady_run s.renderer step).keeps _ hbefore
    constructor
    · exact saves_of_run_eq_error herror
    · intro more
      rw [(runAll_of_settled hafter hnew more).1, (runAll_of_settled hbefore hnew more).1]

/-- A flowchart that cannot be drawn, between two pictures of another one. -/
theorem no_history_around_failed_save :
    ∃ s : Session Float, create "light" none 2 ⟨none, []⟩ = .ok s ∧
      ∃ used, used = (runAll [.save "graph TD\nA --> B" "a.png"] s).2 ∧
      ∃ failed, failed = run (.save "graph TD\nA\nstyle A stroke-width:nan" "b.png") used ∧
      failed.1.outcome = .error (.draw .undefinedWidth) ∧ failed.1.saves = [] ∧
      (runAll [.save "graph TD\nA --> B" "b.png"] failed.2).1 =
        (runAll [.save "graph TD\nA --> B" "b.png"] used).1 := by
  have hs : create (α := Float) "light" none 2 ⟨none, []⟩ =
      .ok (start ⟨⟨⟨Config.light, 2⟩, ⟨none, []⟩⟩, []⟩) := rfl
  have hnew := settled_of_create hs
  have hused := (runAll_of_settled hnew hnew [.save "graph TD\nA --> B" "a.png"]).2
  -- The step fails in a new session, so it fails in this one.
  have hfirst : (run (.save "graph TD\nA\nstyle A stroke-width:nan" "b.png")
      (start ⟨⟨⟨Config.light, 2⟩, ⟨none, []⟩⟩, []⟩ : Session Float)).1.outcome =
        .error (.draw .undefinedWidth) := by
    simp only [run, render, bind_apply]
    rfl
  have hsame := (steady_run (α := Float) _
    (.save "graph TD\nA\nstyle A stroke-width:nan" "b.png")).value _ _ hused hnew
  have herror := (congrArg Report.outcome hsame).trans hfirst
  have hfailed := (no_history hs [.save "graph TD\nA --> B" "a.png"]).2 _ _ herror
  exact ⟨_, hs, _, rfl, _, rfl, herror, hfailed.1, hfailed.2 _⟩

end Session

end TextDiagram
