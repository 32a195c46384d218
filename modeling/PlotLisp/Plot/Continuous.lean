import PlotLisp.Keyword
import PlotLisp.Plot.Frame

/-!
# Line plots of functions

A function is sampled on an even grid. Where the curve bends visibly, both
neighbouring intervals of the grid get one more sample at their midpoint. The
function may have effects: it is called once for each sample, on the grid from left
to right and then on the midpoints from left to right.
-/

namespace PlotLisp.ContinuousPlot

/-- The form on whose behalf the plot is drawn. -/
def form : String := Keyword.continuousPlot.name

/-- The number of intervals of the grid. -/
def intervals : Nat := 50

/-- The most bends at which the grid is refined. -/
def mostBends : Nat := 10

/-- An angle of at most this many degrees is no bend. -/
def leastDegrees : Float := 5

/-- An angle of at least this many degrees is a reversal and no bend. -/
def greatestDegrees : Float := 175

/-- The thickness of the curve. -/
def thickness : Float := 0.5

/-- The abscissas of the grid; the last one is exactly the upper bound. -/
def grid (lower upper : Float) : List Float :=
  let step := (upper - lower) / .ofNat intervals
  (List.range intervals).map (fun k => Number.mulAdd (.ofNat k) step lower) ++ [upper]

/-- The angle in degrees between the segments from `a` to `b` and from `b` to `c`,
if both have a length. -/
def bendDegrees (a b c : Position) : Option Float :=
  let firstX := b.x - a.x
  let firstY := b.y - a.y
  let secondX := c.x - b.x
  let secondY := c.y - b.y
  let norms := Number.hypotenuse firstX firstY * Number.hypotenuse secondX secondY
  if norms ≤ 0 then none
  else
    let cosine := Number.mulAdd firstX secondX (firstY * secondY) / norms
    some ((Number.clamp (-1) 1 cosine).acos * Number.degreesPerRadian)

/-- Whether the curve bends visibly at `b`, without reversing. -/
def isBend (a b c : Position) : Bool :=
  match bendDegrees a b c with
  | some degrees => decide (leastDegrees < degrees ∧ degrees < greatestDegrees)
  | none => false

/-- The indices of the bends among drawn samples, the second sample having index
`index`. -/
def bendsFrom (index : Nat) : List Position → List Nat
  | a :: b :: c :: rest =>
      if isBend a b c then index :: bendsFrom (index + 1) (b :: c :: rest)
      else bendsFrom (index + 1) (b :: c :: rest)
  | _ => []

/-- The indices of the first bends of the sampled curve, as it is drawn in the
frame of the samples. -/
def bends (samples : List Position) : List Nat :=
  (bendsFrom 1 (samples.map (Frame.fit samples).toScene)).take mostBends

variable {m : Type → Type} [Monad m] [MonadExceptOf Fault m]

/-- The point of the curve over an abscissa. -/
def sampleAt (function : Float → m Float) (x : Float) : m Position :=
  return ⟨x, ← function x⟩

/-- The samples that follow `previous`, which has index `index`, with a midpoint in
every interval that has a bend at one of its ends. -/
def refineFrom (function : Float → m Float) (bends : List Nat) :
    Nat → Position → List Position → m (List Position)
  | _, _, [] => return []
  | index, previous, next :: rest => do
      if bends.contains index || bends.contains (index + 1) then
        let middle ← sampleAt function (Number.midpoint previous.x next.x)
        return middle :: next :: (← refineFrom function bends (index + 1) next rest)
      else
        return next :: (← refineFrom function bends (index + 1) next rest)

/-- All samples, with those at the midpoints next to bends. -/
def refine (function : Float → m Float) (samples : List Position) : m (List Position) :=
  match samples with
  | [] => return []
  | first :: rest => return first :: (← refineFrom function (bends samples) 0 first rest)

/-- The lines that join consecutive samples. -/
def curve (frame : Frame) (samples : List Position) : List Glyph :=
  List.zipWith
    (fun start finish => .line (frame.toScene start) (frame.toScene finish) thickness)
    samples samples.tail

/-- The line plot of a function between two bounds. -/
def glyphs (options : PlotOptions) (function : Float → m Float) (lower upper : Float) :
    m (List Glyph) := do
  ofExcept (check (lower < upper) (.outsideDomain form .noWidth))
  let samples ← (grid lower upper).mapM (sampleAt function)
  ofExcept (checkFinite form samples)
  let refined ← refine function samples
  ofExcept (checkFinite form refined)
  let frame := Frame.fit refined
  return frame.decorations options ++ curve frame refined

end PlotLisp.ContinuousPlot
