import PlotLisp.Plot.Glyph
import PlotLisp.Plot.Options

/-!
# The frame of a plot

A frame is the range of the data and its mapping onto the scene: each axis is
scaled so that the data fill a square, and larger values are drawn higher up,
which is toward smaller scene ordinates. The decorations are everything that is
drawn around the data.
-/

namespace PlotLisp

/-- The range of the data and the scale of each axis. -/
structure Frame where
  xMin : Float
  xMax : Float
  yMin : Float
  yMax : Float
  xScale : Float
  yScale : Float
  deriving DecidableEq

namespace Frame

/-- The width and height of the square that the data fill. -/
def side : Float := 20

/-- The thickness of edges, axes, and stems. -/
def thickness : Float := 0

/-- The distance of a label from its edge. -/
def labelOffset : Float := 3

/-- The distance of a tick's text from its edge. -/
def tickOffset : Float := 2

/-- The significant digits of a tick's text. -/
def tickDigits : Nat := 2

/-- The factor that stretches a span onto the side; no span at all keeps the side
as the factor. -/
def scale (span : Float) : Float :=
  if 0 < span then side / span else side

/-- The frame that the points span. -/
def fit (points : List Position) : Frame :=
  let xMin := points.foldl (fun least point => Number.least least point.x) Number.infinity
  let xMax :=
    points.foldl (fun greatest point => Number.greatest greatest point.x) (-Number.infinity)
  let yMin := points.foldl (fun least point => Number.least least point.y) Number.infinity
  let yMax :=
    points.foldl (fun greatest point => Number.greatest greatest point.y) (-Number.infinity)
  ⟨xMin, xMax, yMin, yMax, scale (xMax - xMin), scale (yMax - yMin)⟩

/-- Where a data point is drawn. -/
def toScene (frame : Frame) (point : Position) : Position :=
  ⟨point.x * frame.xScale, -point.y * frame.yScale⟩

/-- The scene abscissa of the left edge. -/
def left (frame : Frame) : Float := frame.xMin * frame.xScale

/-- The scene abscissa of the right edge. -/
def right (frame : Frame) : Float := frame.xMax * frame.xScale

/-- The scene ordinate of the upper edge. -/
def top (frame : Frame) : Float := -frame.yMax * frame.yScale

/-- The scene ordinate of the lower edge. -/
def bottom (frame : Frame) : Float := -frame.yMin * frame.yScale

/-- The four edges, clockwise from the upper left corner. -/
def edges (frame : Frame) : List Glyph :=
  let upperLeft : Position := ⟨frame.left, frame.top⟩
  let upperRight : Position := ⟨frame.right, frame.top⟩
  let lowerRight : Position := ⟨frame.right, frame.bottom⟩
  let lowerLeft : Position := ⟨frame.left, frame.bottom⟩
  [.line upperLeft upperRight thickness, .line upperRight lowerRight thickness,
    .line lowerRight lowerLeft thickness, .line lowerLeft upperLeft thickness]

/-- The line of ordinate zero, when zero lies strictly inside the range. -/
def horizontalAxis (frame : Frame) : List Glyph :=
  if frame.yMin < 0 ∧ 0 < frame.yMax then
    [.line ⟨frame.left, 0⟩ ⟨frame.right, 0⟩ thickness]
  else []

/-- The line of abscissa zero, when zero lies strictly inside the range. -/
def verticalAxis (frame : Frame) : List Glyph :=
  if frame.xMin < 0 ∧ 0 < frame.xMax then
    [.line ⟨0, frame.bottom⟩ ⟨0, frame.top⟩ thickness]
  else []

/-- The title above, the abscissa label below, and the ordinate label on the left,
turned to read upward: those of them that are set. -/
def labels (frame : Frame) (options : PlotOptions) : List Glyph :=
  let centerX := Number.midpoint frame.left frame.right
  let centerY := Number.midpoint frame.top frame.bottom
  let label (content : Option String) (position : Position) (rotation : Float) :=
    (content.map fun content => Glyph.text content position options.textScale rotation).toList
  label options.title ⟨centerX, frame.top - labelOffset⟩ 0 ++
    label options.abscissaLabel ⟨centerX, frame.bottom + labelOffset⟩ 0 ++
    label options.ordinateLabel ⟨frame.left - labelOffset, centerY⟩ (-Number.quarterTurn)

/-- The texts of the four ends of the range. -/
def ticks (frame : Frame) (options : PlotOptions) : List Glyph :=
  let tick (value : Float) (position : Position) : Glyph :=
    .text (Number.significantText value tickDigits) position options.textScale 0
  [tick frame.xMin ⟨frame.left, frame.bottom + tickOffset⟩,
    tick frame.xMax ⟨frame.right, frame.bottom + tickOffset⟩,
    tick frame.yMin ⟨frame.left - tickOffset, frame.bottom⟩,
    tick frame.yMax ⟨frame.left - tickOffset, frame.top⟩]

/-- Everything drawn around the data, from the edges to the ticks. -/
def decorations (frame : Frame) (options : PlotOptions) : List Glyph :=
  frame.edges ++ frame.horizontalAxis ++ frame.verticalAxis ++ frame.labels options ++
    frame.ticks options

end Frame

/-- Refuses data with a coordinate that is not finite. -/
def checkFinite (form : String) (points : List Position) : Except Fault Unit :=
  check (points.all Position.isFinite) (.outsideDomain form .unplottable)

end PlotLisp
