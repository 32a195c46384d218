import PlotLisp.Argument

/-!
# Glyphs

A drawing is a list of points, lines, and texts at scene positions. As a value of
the language a glyph is its geometry, and properties tell what it is and how it is
drawn.
-/

namespace PlotLisp

/-- A place in the plane: of the data before it is drawn, and of the scene after. -/
structure Position where
  x : Float
  y : Float
  deriving DecidableEq

namespace Position

/-- The position as a list of two numbers. -/
def toExpression (position : Position) : Expression :=
  .list [.number position.x, .number position.y]

/-- Reads a list of exactly two real numbers on behalf of a form. -/
def ofExpression (form : String) (point : Expression) : Except Fault Position := do
  match ← point.toElements form with
  | [x, y] => return ⟨← x.toNumber form, ← y.toNumber form⟩
  | _ => throw (.outsideDomain form .notCoordinates)

/-- Whether both coordinates are finite. -/
def isFinite (position : Position) : Bool :=
  position.x.isFinite && position.y.isFinite

end Position

/-- A drawn item. A text stands at its position, turned by an angle in radians. -/
inductive Glyph where
  | point (position : Position) (size : Float)
  | line (start finish : Position) (thickness : Float)
  | text (content : String) (position : Position) (scale rotation : Float)
  deriving DecidableEq

namespace Glyph

/-- The tag under which a glyph says what it is. -/
def nameTag : String := "object-name"

/-- The geometry, tagged as a point with a size. -/
def pointExpression (position : Position) (size : Float) : Expression :=
  position.toExpression
    |>.withProperty nameTag (.literal "point")
    |>.withProperty "size" (.number size)

/-- The glyph as a value of the language. -/
def toExpression : Glyph → Expression
  | point position size => pointExpression position size
  | line start finish thickness =>
      Expression.list [start.toExpression, finish.toExpression]
        |>.withProperty nameTag (.literal "line")
        |>.withProperty "thickness" (.number thickness)
  | text content position scale rotation =>
      Expression.literal content
        |>.withProperty nameTag (.literal "text")
        |>.withProperty "position" (pointExpression position 0)
        |>.withProperty "text-scale" (.number scale)
        |>.withProperty "text-rotation" (.number rotation)

/-- A whole drawing as a value of the language. -/
def drawing (glyphs : List Glyph) : Expression :=
  .list (glyphs.map toExpression)

end Glyph

end PlotLisp
