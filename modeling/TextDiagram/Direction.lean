import TextDiagram.Text.Words
/-!
# Directions

The direction in which the layers of a diagram advance. `TD` and `TB` are two names of one
direction that stay apart because the name is part of the diagram.
-/

namespace TextDiagram

/-- The direction in which layers advance. -/
inductive Direction where
  | topDown | topBottom | bottomTop | leftRight | rightLeft
  deriving DecidableEq, Repr, Inhabited

namespace Direction

/-- The two letters of a direction. -/
def code : Direction → String
  | topDown => "TD"
  | topBottom => "TB"
  | bottomTop => "BT"
  | leftRight => "LR"
  | rightLeft => "RL"

/-- Layers advance along x. -/
def isHorizontal : Direction → Bool
  | leftRight | rightLeft => true
  | _ => false

/-- Layers are counted from the far side. -/
def isReversed : Direction → Bool
  | bottomTop | rightLeft => true
  | _ => false

/-- All directions. -/
def all : List Direction := [topDown, topBottom, bottomTop, leftRight, rightLeft]

/-- The direction with the given two letters. -/
def ofCode? (code : String) : Option Direction := all.find? (·.code == code)

/-- The direction that the second word of a line names, in capitals or not and with semicolons
after it or not. -/
def ofLine? (line : Line) : Option Direction :=
  match Text.words line with
  | _ :: word :: _ =>
    ofCode? (String.ofList ((Text.dropEndWhile (· == ';') word).map Char.toUpper))
  | _ => none

end Direction

end TextDiagram
