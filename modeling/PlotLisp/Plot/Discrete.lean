import PlotLisp.Keyword
import PlotLisp.Plot.Frame

/-!
# Stem plots

Each data point is drawn with a stem from the abscissa axis, or from the edge of
the frame that is nearest to it. The points are drawn in ascending order of their
abscissas, and those with equal abscissas in the order of the data.
-/

namespace PlotLisp.DiscretePlot

/-- The form on whose behalf the plot is drawn. -/
def form : String := Keyword.discretePlot.name

/-- The size of a data point. -/
def pointSize : Float := 0.5

/-- The points by ascending abscissa; the order of equal ones is kept. -/
def sorted (points : List Position) : List Position :=
  points.mergeSort fun left right => decide (left.x ≤ right.x)

/-- The ordinate at which stems start: zero, or the end of the range nearest to
it. -/
def base (frame : Frame) : Float :=
  Number.clamp frame.yMin frame.yMax 0

/-- A data point and its stem. -/
def stem (frame : Frame) (point : Position) : List Glyph :=
  let drawn := frame.toScene point
  [.line (frame.toScene ⟨point.x, base frame⟩) drawn Frame.thickness, .point drawn pointSize]

/-- The stem plot of some points. -/
def glyphs (options : PlotOptions) (points : List Position) : Except Fault (List Glyph) := do
  check (!points.isEmpty) (.outsideDomain form .noData)
  checkFinite form points
  let frame := Frame.fit points
  return frame.decorations options ++ (sorted points).flatMap (stem frame)

end PlotLisp.DiscretePlot
