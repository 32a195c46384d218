import PlotLisp.Proofs.Correspondence.Data
import PlotLisp.Plot.Continuous
import PlotLisp.Plot.Discrete

/-!
# Matching plots

Plots read points and options from values, so matching values describe the same plot. A
line plot calls the function it draws, and calls of two functions that match at every
number lead to the same line or to matching faults.
-/

namespace PlotLisp

section

variable {Values : Expression → Expression → Prop} {Faults : Fault → Fault → Prop}
  {form : String} (data : DataCorrespondence Values)
  (blames : ∀ fault : Fault, fault.blamed? = some form → Faults fault fault)

include data blames

/-- Matching values describe the same position, or neither is a pair of numbers and the
form is blamed. -/
theorem Position.ofExpression_matches {value other : Expression} (values : Values value other) :
    Matches Faults Eq (Position.ofExpression form value) (Position.ofExpression form other) := by
  refine .bind (data.toElements blames values) fun coordinates _ listed => ?_
  rcases listed with _ | ⟨x, _ | ⟨y, _ | _⟩⟩
  case cons.cons.nil =>
    refine .bind (data.toNumber blames x) fun abscissa _ same => ?_
    subst same
    refine .bind (data.toNumber blames y) fun ordinate _ same => ?_
    subst same
    exact .ok rfl
  all_goals exact .error (blames _ rfl)

namespace PlotOptions

/-- Setting one option from matching values gives the same options; a tag that names no option
changes nothing on both sides. -/
theorem set_matches (options : PlotOptions) (name : String) {value other : Expression}
    (values : Values value other) :
    Matches Faults Eq (options.set form name value) (options.set form name other) := by
  have text := data.toContent blames values
  have size := data.toNumber blames values
  unfold set
  split
  · exact .bind text fun _ _ same => same ▸ .ok rfl
  split
  · exact .bind text fun _ _ same => same ▸ .ok rfl
  split
  · exact .bind text fun _ _ same => same ▸ .ok rfl
  split
  · exact .bind size fun _ _ same => same ▸ .ok rfl
  · exact .ok rfl

/-- A matching pair of a tag and a value sets the same option. -/
theorem setPair_matches (options : PlotOptions) {pair other : Expression}
    (values : Values pair other) :
    Matches Faults Eq (setPair form options pair) (setPair form options other) := by
  refine .bind (data.toElements blames values) fun parts _ listed => ?_
  rcases listed with _ | ⟨tag, _ | ⟨value, _ | _⟩⟩
  case cons.cons.nil =>
    refine .bind (data.toContent blames tag) fun name _ same => ?_
    subst same
    exact set_matches data blames options name value
  all_goals exact .error (blames _ rfl)

/-- Matching lists of pairs describe the same options, or fail at the same pair. -/
theorem ofExpression_matches {pairs others : Expression} (values : Values pairs others) :
    Matches Faults Eq (ofExpression form pairs) (ofExpression form others) :=
  .bind (data.toElements blames values) fun _ _ listed =>
    .foldlM (fun options _ _ => setPair_matches data blames options) listed

end PlotOptions

end

section

variable {Values : Expression → Expression → Prop} (data : DataCorrespondence Values)

include data

namespace Glyph

/-- The drawing of a position is made of numbers only, so it matches itself. -/
theorem position_matches (position : Position) :
    Values position.toExpression position.toExpression :=
  data.list (.cons (data.number _) (.cons (data.number _) .nil))

/-- The drawing of a point matches itself, the properties that say its kind and size included. -/
theorem pointExpression_matches (position : Position) (size : Float) :
    Values (pointExpression position size) (pointExpression position size) :=
  data.withProperty "size"
    (data.withProperty nameTag (position_matches data position) (data.constant rfl))
    (data.number size)

/-- A drawing matches itself. -/
theorem drawing_matches (glyphs : List Glyph) : Values (drawing glyphs) (drawing glyphs) := by
  refine data.list ?_
  rw [List.forall₂_map_left_iff, List.forall₂_map_right_iff, List.forall₂_same]
  intro glyph _
  cases glyph with
  | point position size => exact pointExpression_matches data position size
  | line start finish thickness =>
      have ends := data.list
        (.cons (position_matches data start) (.cons (position_matches data finish) .nil))
      exact data.withProperty "thickness" (data.withProperty nameTag ends (data.constant rfl))
        (data.number thickness)
  | text content position scale rotation =>
      exact data.withProperty "text-rotation"
        (data.withProperty "text-scale"
          (data.withProperty "position"
            (data.withProperty nameTag (data.constant rfl) (data.constant rfl))
            (pointExpression_matches data position 0))
          (data.number scale))
        (data.number rotation)

end Glyph

end

section

variable {Faults : Fault → Fault → Prop}

/-- What a stem plot draws matches itself, and its only faults blame the form. -/
theorem DiscretePlot.glyphs_matches (options : PlotOptions) (points : List Position)
    (blames : ∀ fault : Fault, fault.blamed? = some DiscretePlot.form → Faults fault fault) :
    Matches Faults Eq (DiscretePlot.glyphs options points)
      (DiscretePlot.glyphs options points) :=
  .bind (.check (blames _ rfl)) fun _ _ _ => .bind (.check (blames _ rfl)) fun _ _ _ => .ok rfl

namespace ContinuousPlot

variable {function other : Float → Attempt Float}
  (samples : ∀ x, Attempt.Matches Faults Eq (function x) (other x))

include samples

/-- Sampling matching functions at a number gives the same position. -/
theorem sampleAt_matches (x : Float) :
    Attempt.Matches Faults Eq (sampleAt function x) (sampleAt other x) :=
  .bind (samples x) fun _ _ same => same ▸ .pure rfl

/-- Refining from a vertex on calls matching functions at the same places, by induction on the
vertices that are left. -/
theorem refineFrom_matches (bends : List Nat) (index : Nat) (previous : Position)
    (points : List Position) :
    Attempt.Matches Faults Eq (refineFrom function bends index previous points)
      (refineFrom other bends index previous points) := by
  induction points generalizing index previous with
  | nil => exact .pure rfl
  | cons next rest inductionHypothesis =>
      have further := inductionHypothesis (index + 1) next
      unfold refineFrom
      split
      · refine .bind (sampleAt_matches samples _) fun middle _ same => ?_
        subst same
        exact .bind further fun _ _ same => same ▸ .pure rfl
      · exact .bind further fun _ _ same => same ▸ .pure rfl

/-- Refining the samples of matching functions gives the same curve. -/
theorem refine_matches (points : List Position) :
    Attempt.Matches Faults Eq (refine function points) (refine other points) := by
  cases points with
  | nil => exact .pure rfl
  | cons first rest =>
      exact .bind (refineFrom_matches samples _ 0 first rest) fun _ _ same => same ▸ .pure rfl

/-- The line plots of two functions match when the functions do at every number. -/
theorem glyphs_matches (options : PlotOptions) (lower upper : Float)
    (blames : ∀ fault : Fault, fault.blamed? = some ContinuousPlot.form → Faults fault fault) :
    Attempt.Matches Faults Eq (glyphs options function lower upper)
      (glyphs options other lower upper) := by
  unfold glyphs
  simp only [Attempt.monadExcept_ofExcept]
  refine .bind (.ofExcept (.check (blames _ rfl))) fun _ _ _ => ?_
  refine .bind (.mapM _ (sampleAt_matches samples)) fun points _ same => ?_
  rw [List.forall₂_eq_eq_eq] at same
  subst same
  refine .bind (.ofExcept (.check (blames _ rfl))) fun _ _ _ => ?_
  refine .bind (refine_matches samples points) fun refined _ same => ?_
  subst same
  exact .bind (.ofExcept (.check (blames _ rfl))) fun _ _ _ => .pure rfl

end ContinuousPlot

end

end PlotLisp
