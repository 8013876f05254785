import TextDiagram.Color
/-!
# Configuration

The sizes, spacings and colours that placement and drawing read. Sizes are whole canvas units. The
two themes agree on all sizes.
-/

namespace TextDiagram

/-- Sizes, spacings, fonts and colours for every kind of diagram. -/
structure Config where
  padding : Int := 40
  fontSize : Int := 14
  titleFontSize : Int := 18
  backgroundColor : Color := ⟨255, 255, 255⟩
  nodeColor : Color := ⟨217, 235, 255⟩
  nodeBorderColor : Color := ⟨51, 102, 179⟩
  edgeColor : Color := ⟨77, 77, 77⟩
  textColor : Color := ⟨26, 26, 26⟩
  arrowColor : Color := ⟨77, 77, 77⟩
  lifelineColor : Color := ⟨179, 179, 179⟩
  subgraphColor : Color := ⟨240, 244, 250⟩
  labelBackground : Color := ⟨255, 255, 255⟩
  nodeWidth : Int := 150
  nodeHeight : Int := 50
  cornerRadius : Int := 8
  horizontalSpacing : Int := 60
  verticalSpacing : Int := 60
  lineWidth : Int := 2
  participantWidth : Int := 120
  participantHeight : Int := 40
  participantSpacing : Int := 40
  messageSpacing : Int := 50
  pieRadius : Int := 120
  pieLabelOffset : Int := 30
  pieColors : Palette :=
    [⟨66, 133, 244⟩, ⟨234, 87, 87⟩, ⟨77, 176, 80⟩, ⟨255, 194, 8⟩, ⟨156, 89, 182⟩, ⟨255, 153, 0⟩,
      ⟨0, 189, 212⟩, ⟨232, 120, 158⟩]
  subgraphPadding : Int := 20
  subgraphLabelHeight : Int := 24
  classBoxWidth : Int := 200
  classHeaderHeight : Int := 35
  classMemberHeight : Int := 22
  classSpacing : Int := 80
  stateWidth : Int := 140
  stateHeight : Int := 45
  stateCornerRadius : Int := 12
  stateSpacing : Int := 70
  startEndRadius : Int := 12
  ganttBarHeight : Int := 28
  ganttBarSpacing : Int := 8
  ganttSectionSpacing : Int := 12
  ganttLabelWidth : Int := 180
  ganttDayWidth : Int := 30
  ganttColors : Palette := [⟨66, 133, 244⟩, ⟨77, 176, 80⟩, ⟨156, 89, 182⟩, ⟨255, 153, 0⟩]
  ganttCriticalColor : Color := ⟨234, 87, 87⟩
  ganttDoneColor : Color := ⟨179, 179, 179⟩
  ganttActiveColor : Color := ⟨66, 133, 244⟩
  entityWidth : Int := 180
  entityHeaderHeight : Int := 32
  entityAttributeHeight : Int := 22
  entitySpacing : Int := 100
  deriving DecidableEq, Repr

/-- The two sets of colours that come with the program. -/
inductive Theme where
  | light | dark
  deriving DecidableEq, Repr, Inhabited

namespace Theme

/-- The theme of the given name. -/
def ofName? (name : String) : Option Theme :=
  if name = "light" then some .light else if name = "dark" then some .dark else none

end Theme

namespace Config

/-- Dark strokes on white. -/
def light : Config := {}

/-- Light strokes on a dark background. -/
def dark : Config where
  backgroundColor := ⟨30, 30, 36⟩
  nodeColor := ⟨45, 62, 89⟩
  nodeBorderColor := ⟨110, 160, 230⟩
  edgeColor := ⟨190, 190, 190⟩
  textColor := ⟨235, 235, 235⟩
  arrowColor := ⟨190, 190, 190⟩
  lifelineColor := ⟨100, 100, 110⟩
  subgraphColor := ⟨40, 44, 54⟩
  labelBackground := ⟨30, 30, 36⟩
  ganttDoneColor := ⟨100, 100, 110⟩

/-- The configuration of a theme. -/
def ofTheme : Theme → Config
  | .light => light
  | .dark => dark

/-- The colour at an index of a palette, taken in turn; none of an empty palette. -/
def paletteColor? (palette : Palette) (index : Nat) : Option Color :=
  palette[index % palette.length]?

theorem paletteColor?_eq_none_iff (palette : Palette) (index : Nat) :
    paletteColor? palette index = none ↔ palette = [] := by
  cases palette with
  | nil => simp [paletteColor?]
  | cons c rest =>
    have h : index % (c :: rest).length < (c :: rest).length := Nat.mod_lt _ (by simp)
    simp only [paletteColor?, List.getElem?_eq_getElem h, reduceCtorEq]

end Config

end TextDiagram
