import PlotLisp.Argument

/-!
# Plot options

The labels of a plot and the size of its texts, read from a list of named pairs. A
later pair replaces an earlier one of the same name, and names that mean nothing
here are passed over.
-/

namespace PlotLisp

/-- The labels that are set, and the scale of all texts. -/
structure PlotOptions where
  title : Option String
  abscissaLabel : Option String
  ordinateLabel : Option String
  textScale : Float
  deriving DecidableEq

namespace PlotOptions

/-- No labels, and texts of their natural size. -/
def default : PlotOptions :=
  ⟨none, none, none, 1⟩

/-- The options with one of them set from its name and value. -/
def set (options : PlotOptions) (form name : String) (value : Expression) :
    Except Fault PlotOptions := do
  if name == "title" then return { options with title := some (← value.toContent form) }
  else if name == "abscissa-label" then
    return { options with abscissaLabel := some (← value.toContent form) }
  else if name == "ordinate-label" then
    return { options with ordinateLabel := some (← value.toContent form) }
  else if name == "text-scale" then
    return { options with textScale := ← value.toNumber form }
  else return options

/-- The options with one pair taken into account. -/
def setPair (form : String) (options : PlotOptions) (pair : Expression) :
    Except Fault PlotOptions := do
  match ← pair.toElements form with
  | [name, value] => options.set form (← name.toContent form) value
  | _ => throw (.outsideDomain form .notPairs)

/-- Reads a list of pairs on behalf of a form. -/
def ofExpression (form : String) (pairs : Expression) : Except Fault PlotOptions := do
  (← pairs.toElements form).foldlM (setPair form) default

end PlotOptions

end PlotLisp
