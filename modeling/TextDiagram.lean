import TextDiagram.ClassDiagram.Basic
import TextDiagram.ClassDiagram.Drawing
import TextDiagram.ClassDiagram.Layout
import TextDiagram.ClassDiagram.Member
import TextDiagram.ClassDiagram.Reader
import TextDiagram.ClassDiagram.Statement
import TextDiagram.Color
import TextDiagram.Config
import TextDiagram.Diagram
import TextDiagram.Direction
import TextDiagram.Drawing.Arrow
import TextDiagram.Drawing.Call
import TextDiagram.Drawing.Dash
import TextDiagram.Drawing.Font
import TextDiagram.Drawing.Pen
import TextDiagram.Drawing.Stripe
import TextDiagram.Drawing.Title
import TextDiagram.EntityDiagram.Attribute
import TextDiagram.EntityDiagram.Basic
import TextDiagram.EntityDiagram.Drawing
import TextDiagram.EntityDiagram.Layout
import TextDiagram.EntityDiagram.Reader
import TextDiagram.Failure
import TextDiagram.Flowchart.Basic
import TextDiagram.Flowchart.Drawing
import TextDiagram.Flowchart.Layout
import TextDiagram.Flowchart.NodeRef
import TextDiagram.Flowchart.Reader
import TextDiagram.Flowchart.Statement
import TextDiagram.Flowchart.Style
import TextDiagram.Gantt.Basic
import TextDiagram.Gantt.Drawing
import TextDiagram.Gantt.Layout
import TextDiagram.Gantt.Reader
import TextDiagram.Generator
import TextDiagram.Geometry.Basic
import TextDiagram.Geometry.Clip
import TextDiagram.Geometry.Connector
import TextDiagram.Graph.Basic
import TextDiagram.Graph.Layer
import TextDiagram.Graph.Order
import TextDiagram.Grid
import TextDiagram.Keyed
import TextDiagram.Layout
import TextDiagram.LayoutError
import TextDiagram.Number.Decimal
import TextDiagram.Number.Exact
import TextDiagram.Number.Numeral
import TextDiagram.Number.Scalar
import TextDiagram.PathName
import TextDiagram.Pie.Basic
import TextDiagram.Pie.Drawing
import TextDiagram.Pie.Layout
import TextDiagram.Pie.Reader
import TextDiagram.Placement
import TextDiagram.Proofs.Advance
import TextDiagram.Proofs.Appending
import TextDiagram.Proofs.Arrangement
import TextDiagram.Proofs.Attachment
import TextDiagram.Proofs.Canvas
import TextDiagram.Proofs.ClassDiagram.Layout
import TextDiagram.Proofs.ClassDiagram.Members
import TextDiagram.Proofs.ClassDiagram.Relations
import TextDiagram.Proofs.Colors
import TextDiagram.Proofs.Compartments
import TextDiagram.Proofs.Completeness
import TextDiagram.Proofs.Connectors
import TextDiagram.Proofs.Declarations
import TextDiagram.Proofs.Drawing.Dashes
import TextDiagram.Proofs.Drawing.Fonts
import TextDiagram.Proofs.Drawing.Magnified
import TextDiagram.Proofs.Drawing.Scaling
import TextDiagram.Proofs.Drawing.Stripes
import TextDiagram.Proofs.EntityDiagram.Attributes
import TextDiagram.Proofs.EntityDiagram.Layout
import TextDiagram.Proofs.EntityDiagram.Relations
import TextDiagram.Proofs.Flow
import TextDiagram.Proofs.Flowchart.Binding
import TextDiagram.Proofs.Flowchart.Blocks
import TextDiagram.Proofs.Flowchart.Canvas
import TextDiagram.Proofs.Flowchart.Detour
import TextDiagram.Proofs.Flowchart.Edges
import TextDiagram.Proofs.Flowchart.Framing
import TextDiagram.Proofs.Flowchart.Layout
import TextDiagram.Proofs.Flowchart.Mentions
import TextDiagram.Proofs.Flowchart.Nesting
import TextDiagram.Proofs.Flowchart.Painting
import TextDiagram.Proofs.Flowchart.Styling
import TextDiagram.Proofs.Gantt.Canvas
import TextDiagram.Proofs.Gantt.Layout
import TextDiagram.Proofs.Gantt.Sections
import TextDiagram.Proofs.Gantt.Tasks
import TextDiagram.Proofs.Geometry.Axis
import TextDiagram.Proofs.Geometry.Boundary
import TextDiagram.Proofs.Geometry.Canvas
import TextDiagram.Proofs.Geometry.Clip
import TextDiagram.Proofs.Geometry.Connector
import TextDiagram.Proofs.Geometry.Containment
import TextDiagram.Proofs.Geometry.Crossing
import TextDiagram.Proofs.Graph.Layering
import TextDiagram.Proofs.Graph.TopologicalOrder
import TextDiagram.Proofs.Graph.Walk
import TextDiagram.Proofs.Grid
import TextDiagram.Proofs.HexColor
import TextDiagram.Proofs.Integrity
import TextDiagram.Proofs.Invariance
import TextDiagram.Proofs.Isolation
import TextDiagram.Proofs.Keyed
import TextDiagram.Proofs.Loop
import TextDiagram.Proofs.Mention
import TextDiagram.Proofs.Number.Ceiling
import TextDiagram.Proofs.Number.Decimal
import TextDiagram.Proofs.Number.Extremes
import TextDiagram.Proofs.Number.Unrounded
import TextDiagram.Proofs.Pie.Legend
import TextDiagram.Proofs.Pie.Slices
import TextDiagram.Proofs.Pie.Turn
import TextDiagram.Proofs.Placement
import TextDiagram.Proofs.Reading
import TextDiagram.Proofs.Rejection
import TextDiagram.Proofs.Rendering
import TextDiagram.Proofs.Route
import TextDiagram.Proofs.Router
import TextDiagram.Proofs.Sequence.Canvas
import TextDiagram.Proofs.Sequence.Layout
import TextDiagram.Proofs.Sequence.Messages
import TextDiagram.Proofs.Session
import TextDiagram.Proofs.Spacing
import TextDiagram.Proofs.Spelling
import TextDiagram.Proofs.StateDiagram.Canvas
import TextDiagram.Proofs.StateDiagram.Descriptions
import TextDiagram.Proofs.StateDiagram.Layout
import TextDiagram.Proofs.Symmetry
import TextDiagram.Proofs.Text.Cut
import TextDiagram.Proofs.Text.Ident
import TextDiagram.Proofs.Text.Lines
import TextDiagram.Proofs.Text.Quoted
import TextDiagram.Proofs.Text.Words
import TextDiagram.Proofs.Traversal
import TextDiagram.Rendering
import TextDiagram.Router
import TextDiagram.Sequence.Basic
import TextDiagram.Sequence.Drawing
import TextDiagram.Sequence.Layout
import TextDiagram.Sequence.Reader
import TextDiagram.Sorted
import TextDiagram.StateDiagram.Basic
import TextDiagram.StateDiagram.Drawing
import TextDiagram.StateDiagram.Layout
import TextDiagram.StateDiagram.Reader
import TextDiagram.Text.Blank
import TextDiagram.Text.Cut
import TextDiagram.Text.Digit
import TextDiagram.Text.Ident
import TextDiagram.Text.Lines
import TextDiagram.Text.Quoted
import TextDiagram.Text.Words
