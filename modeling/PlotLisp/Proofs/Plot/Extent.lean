import PlotLisp.Proofs.Plot.Scale
import PlotLisp.Proofs.Plot.Stems

/-!
# How far a stem plot extends

Data of moderate size are drawn with finite coordinates, and points and stems lie within the
frame. The frame has the width and height that the data ask for, unless the data are almost
neighbours. Data with a span that is too small or too large are drawn out of all bounds.
-/

namespace PlotLisp

open Number (value IsWithin)

/-! ## Moderate data -/

/-- Coordinates that are not too large, and that are all the same or not too close together. -/
structure IsModerate (coordinates : List Float) : Prop where
  small : ∀ coordinate ∈ coordinates, |value coordinate| ≤ 2 ^ (1017 : ℤ)
  apart : (∀ first ∈ coordinates, ∀ second ∈ coordinates, value first = value second) ∨
    ∃ first ∈ coordinates, ∃ second ∈ coordinates, 2 ^ (-1017 : ℤ) ≤ value second - value first

/-- Coordinates two of which differ by more than the last bit of the largest. -/
def IsWide (coordinates : List Float) : Prop :=
  ∃ first ∈ coordinates, ∃ second ∈ coordinates, value first < value second ∧
    ∀ coordinate ∈ coordinates, |value coordinate| ≤ 2 ^ 52 * (value second - value first)

/-- The least and the greatest of some finite coordinates. -/
structure IsRange (lower upper : Float) (coordinates : List Float) : Prop where
  finite : ∀ coordinate ∈ coordinates, coordinate.isFinite = true
  lowerAttained : lower ∈ coordinates
  upperAttained : upper ∈ coordinates
  between : ∀ coordinate ∈ coordinates, lower ≤ coordinate ∧ coordinate ≤ upper

namespace IsRange

variable {lower upper : Float} {coordinates : List Float}

/-- The values of the coordinates lie between those of the ends. -/
theorem values_between (range : IsRange lower upper coordinates) {coordinate : Float}
    (member : coordinate ∈ coordinates) :
    value lower ≤ value coordinate ∧ value coordinate ≤ value upper := by
  obtain ⟨least, greatest⟩ := range.between coordinate member
  have finite := range.finite coordinate member
  exact ⟨(Number.le_iff_value (range.finite lower range.lowerAttained) finite).mp least,
    (Number.le_iff_value finite (range.finite upper range.upperAttained)).mp greatest⟩

/-- The range of moderate coordinates is scalable. -/
theorem isScalable (range : IsRange lower upper coordinates) (moderate : IsModerate coordinates) :
    Frame.IsScalable lower upper := by
  constructor
  case lowerWithin =>
    exact ⟨range.finite _ range.lowerAttained, moderate.small _ range.lowerAttained⟩
  case upperWithin =>
    exact ⟨range.finite _ range.upperAttained, moderate.small _ range.upperAttained⟩
  case apart =>
    rcases moderate.apart with same | ⟨first, member, second, member', apart⟩
    · exact .inl (same lower range.lowerAttained upper range.upperAttained)
    · have least := (range.values_between member).1
      have greatest := (range.values_between member').2
      exact .inr (by linarith)

/-- The ends of wide coordinates are no neighbours. -/
theorem isWide (range : IsRange lower upper coordinates) (wide : IsWide coordinates) :
    value lower < value upper ∧
      max |value lower| |value upper| ≤ 2 ^ 52 * (value upper - value lower) := by
  obtain ⟨first, member, second, member', less, large⟩ := wide
  have least := (range.values_between member).1
  have greatest := (range.values_between member').2
  refine ⟨by linarith, max_le ?_ ?_⟩
  · have size := large lower range.lowerAttained
    linarith
  · have size := large upper range.upperAttained
    linarith

end IsRange

namespace Frame

variable {frame : Frame} {points : List Position} {options : PlotOptions}

/-- The abscissas of a frame are the range of those of the points. -/
theorem Spans.abscissas (spans : frame.Spans points) :
    IsRange frame.xMin frame.xMax (points.map Position.x) where
  finite := List.forall_mem_map.mpr fun point member =>
    (Position.isFinite_iff.mp (spans.finite point member)).1
  lowerAttained := List.mem_map.mpr spans.xMin.1
  upperAttained := List.mem_map.mpr spans.xMax.1
  between := List.forall_mem_map.mpr fun point member =>
    ⟨spans.xMin.2 point member, spans.xMax.2 point member⟩

/-- The ordinates of a frame are the range of those of the points. -/
theorem Spans.ordinates (spans : frame.Spans points) :
    IsRange frame.yMin frame.yMax (points.map Position.y) where
  finite := List.forall_mem_map.mpr fun point member =>
    (Position.isFinite_iff.mp (spans.finite point member)).2
  lowerAttained := List.mem_map.mpr spans.yMin.1
  upperAttained := List.mem_map.mpr spans.yMax.1
  between := List.forall_mem_map.mpr fun point member =>
    ⟨spans.yMin.2 point member, spans.yMax.2 point member⟩

/-! ## Frames of finite extent -/

/-- A frame both axes of which have the scale of their range, and that scale can be computed. -/
structure IsScaled (frame : Frame) : Prop where
  xScale : frame.xScale = scale (frame.xMax - frame.xMin)
  yScale : frame.yScale = scale (frame.yMax - frame.yMin)
  abscissas : IsScalable frame.xMin frame.xMax
  ordinates : IsScalable frame.yMin frame.yMax

/-- Whether a place of the scene is on the frame or inside it. -/
def Contains (frame : Frame) (position : Position) : Prop :=
  (frame.left ≤ position.x ∧ position.x ≤ frame.right) ∧
    frame.top ≤ position.y ∧ position.y ≤ frame.bottom

namespace IsScaled

/-- The left edge lies at a finite place. -/
theorem left (scaled : frame.IsScaled) : IsWithin frame.left 1022 := by
  rw [Frame.left, scaled.xScale]
  exact scaled.abscissas.isWithin_mul scaled.abscissas.isReached_lower

/-- The right edge lies at a finite place. -/
theorem right (scaled : frame.IsScaled) : IsWithin frame.right 1022 := by
  rw [Frame.right, scaled.xScale]
  exact scaled.abscissas.isWithin_mul scaled.abscissas.isReached_upper

/-- The top edge lies at a finite place. -/
theorem top (scaled : frame.IsScaled) : IsWithin frame.top 1022 := by
  rw [Frame.top, scaled.yScale]
  exact scaled.ordinates.isWithin_mul scaled.ordinates.isReached_upper.neg

/-- The bottom edge lies at a finite place. -/
theorem bottom (scaled : frame.IsScaled) : IsWithin frame.bottom 1022 := by
  rw [Frame.bottom, scaled.yScale]
  exact scaled.ordinates.isWithin_mul scaled.ordinates.isReached_lower.neg

/-- A point between the bounds of the data is drawn at a finite place within the frame. -/
theorem contains_toScene (scaled : frame.IsScaled) {point : Position}
    (finite : point.isFinite = true) (abscissa : frame.xMin ≤ point.x ∧ point.x ≤ frame.xMax)
    (ordinate : frame.yMin ≤ point.y ∧ point.y ≤ frame.yMax) :
    (frame.toScene point).isFinite = true ∧ frame.Contains (frame.toScene point) := by
  obtain ⟨xFinite, yFinite⟩ := Position.isFinite_iff.mp finite
  have reachedX := IsReached.of_between scaled.abscissas xFinite abscissa.1 abscissa.2
  have reachedY := IsReached.of_between scaled.ordinates yFinite ordinate.1 ordinate.2
  have lowerX := scaled.abscissas.isReached_lower
  have upperX := scaled.abscissas.isReached_upper
  have lowerY := scaled.ordinates.isReached_lower
  have upperY := scaled.ordinates.isReached_upper
  simp only [Contains, Position.isFinite_iff, toScene, Frame.left, Frame.right, Frame.top,
    Frame.bottom, scaled.xScale, scaled.yScale]
  refine ⟨⟨?finiteX, ?finiteY⟩, ⟨?left, ?right⟩, ?top, ?bottom⟩
  case finiteX => exact (scaled.abscissas.isWithin_mul reachedX).finite
  case finiteY => exact (scaled.ordinates.isWithin_mul reachedY.neg).finite
  case left => exact scaled.abscissas.mul_le_mul lowerX reachedX abscissa.1
  case right => exact scaled.abscissas.mul_le_mul reachedX upperX abscissa.2
  case top => exact scaled.ordinates.neg_mul_le_neg_mul reachedY upperY ordinate.2
  case bottom => exact scaled.ordinates.neg_mul_le_neg_mul lowerY reachedY ordinate.1

/-- Wide data have a frame with a width. -/
theorem left_lt_right (scaled : frame.IsScaled) (less : value frame.xMin < value frame.xMax)
    (wide : max |value frame.xMin| |value frame.xMax| ≤
      2 ^ 52 * (value frame.xMax - value frame.xMin)) : frame.left < frame.right := by
  rw [Number.lt_iff_value scaled.left.finite scaled.right.finite, Frame.left, Frame.right,
    scaled.xScale]
  exact scaled.abscissas.mul_lt_mul less wide

/-- Wide data have a frame with a height. -/
theorem top_lt_bottom (scaled : frame.IsScaled) (less : value frame.yMin < value frame.yMax)
    (wide : max |value frame.yMin| |value frame.yMax| ≤
      2 ^ 52 * (value frame.yMax - value frame.yMin)) : frame.top < frame.bottom := by
  rw [Number.lt_iff_value scaled.top.finite scaled.bottom.finite, Frame.top, Frame.bottom,
    scaled.yScale, scaled.ordinates.value_neg_mul scaled.ordinates.isReached_upper,
    scaled.ordinates.value_neg_mul scaled.ordinates.isReached_lower]
  exact neg_lt_neg (scaled.ordinates.mul_lt_mul less wide)

end IsScaled

end Frame

/-! ## Finite glyphs -/

namespace Glyph

/-- Whether all numbers of a glyph are finite. -/
def isFinite : Glyph → Bool
  | .point position size => position.isFinite && size.isFinite
  | .line start finish thickness => start.isFinite && finish.isFinite && thickness.isFinite
  | .text _ position scale rotation => position.isFinite && scale.isFinite && rotation.isFinite

/-- The places of a glyph: the ends of a line, and the position of a point or a text. -/
def positions : Glyph → List Position
  | .point position _ => [position]
  | .line start finish _ => [start, finish]
  | .text _ position _ _ => [position]

/-- A line is finite if its ends and its thickness are. -/
theorem isFinite_line {start finish : Position} {thickness : Float}
    (startFinite : start.isFinite = true) (finishFinite : finish.isFinite = true)
    (thicknessFinite : thickness.isFinite = true) :
    (line start finish thickness).isFinite = true := by
  simp [isFinite, startFinite, finishFinite, thicknessFinite]

/-- A text is finite if its position, its scale and its rotation are. -/
theorem isFinite_text {content : String} {position : Position} {scale rotation : Float}
    (positionFinite : position.isFinite = true) (scaleFinite : scale.isFinite = true)
    (rotationFinite : rotation.isFinite = true) :
    (text content position scale rotation).isFinite = true := by
  simp [isFinite, positionFinite, scaleFinite, rotationFinite]

end Glyph

namespace Frame

variable {frame : Frame} {options : PlotOptions}

/-- Moving a label by its distance from the frame cannot overflow. -/
theorem isWithin_labelOffset : IsWithin labelOffset 1022 := by
  have three : value labelOffset = 3 := by
    have shape : Number.decoded labelOffset = .finite .positive (3 * 2 ^ 51) (-51) (by decide) :=
      rfl
    rw [value, shape, Number.exactValue_positive]
    norm_num
  have within : IsWithin labelOffset 2 := ⟨rfl, by rw [three]; norm_num⟩
  exact within.mono (by norm_num)

/-- Moving a tick by its distance from the frame cannot overflow. -/
theorem isWithin_tickOffset : IsWithin tickOffset 1022 := by
  have within : IsWithin tickOffset 1 := ⟨rfl, by rw [tickOffset, Number.value_two]; norm_num⟩
  exact within.mono (by norm_num)

namespace IsScaled

/-- The four edges are finite lines between the corners. -/
theorem isFinite_edges (scaled : frame.IsScaled) :
    ∀ glyph ∈ frame.edges, glyph.isFinite = true := by
  have corner {x y : Float} (abscissa : IsWithin x 1022) (ordinate : IsWithin y 1022) :
      (Position.mk x y).isFinite = true :=
    Position.isFinite_iff.mpr ⟨abscissa.finite, ordinate.finite⟩
  have upperLeft := corner scaled.left scaled.top
  have upperRight := corner scaled.right scaled.top
  have lowerRight := corner scaled.right scaled.bottom
  have lowerLeft := corner scaled.left scaled.bottom
  simp only [edges, List.forall_mem_cons]
  exact ⟨Glyph.isFinite_line upperLeft upperRight rfl,
    Glyph.isFinite_line upperRight lowerRight rfl, Glyph.isFinite_line lowerRight lowerLeft rfl,
    Glyph.isFinite_line lowerLeft upperLeft rfl, List.forall_mem_nil _⟩

/-- The horizontal axis is finite where it is drawn. -/
theorem isFinite_horizontalAxis (scaled : frame.IsScaled) :
    ∀ glyph ∈ frame.horizontalAxis, glyph.isFinite = true := by
  have zero : (0 : Float).isFinite = true := rfl
  unfold horizontalAxis
  split
  · refine List.forall_mem_singleton.mpr (Glyph.isFinite_line ?_ ?_ rfl)
    · exact Position.isFinite_iff.mpr ⟨scaled.left.finite, zero⟩
    · exact Position.isFinite_iff.mpr ⟨scaled.right.finite, zero⟩
  · exact List.forall_mem_nil _

/-- The vertical axis is finite where it is drawn. -/
theorem isFinite_verticalAxis (scaled : frame.IsScaled) :
    ∀ glyph ∈ frame.verticalAxis, glyph.isFinite = true := by
  have zero : (0 : Float).isFinite = true := rfl
  unfold verticalAxis
  split
  · refine List.forall_mem_singleton.mpr (Glyph.isFinite_line ?_ ?_ rfl)
    · exact Position.isFinite_iff.mpr ⟨zero, scaled.bottom.finite⟩
    · exact Position.isFinite_iff.mpr ⟨zero, scaled.top.finite⟩
  · exact List.forall_mem_nil _

/-- The labels are finite, whichever of them the options give. -/
theorem isFinite_labels (scaled : frame.IsScaled)
    (scaleFinite : options.textScale.isFinite = true) :
    ∀ glyph ∈ frame.labels options, glyph.isFinite = true := by
  have label (content : Option String) {position : Position} {rotation : Float}
      (positionFinite : position.isFinite = true) (rotationFinite : rotation.isFinite = true) :
      ∀ glyph ∈ (content.map fun content =>
          Glyph.text content position options.textScale rotation).toList,
        glyph.isFinite = true := by
    intro glyph member
    obtain ⟨text, -, rfl⟩ := Option.map_eq_some_iff.mp (Option.mem_toList.mp member)
    exact Glyph.isFinite_text positionFinite scaleFinite rotationFinite
  have centerX := scaled.left.midpoint scaled.right
  have centerY := scaled.top.midpoint scaled.bottom
  have above := scaled.top.sub isWithin_labelOffset (by norm_num) le_rfl
  have below := scaled.bottom.add isWithin_labelOffset (by norm_num) le_rfl
  have beside := scaled.left.sub isWithin_labelOffset (by norm_num) le_rfl
  simp only [labels, List.forall_mem_append]
  refine ⟨⟨label _ ?title rfl, label _ ?abscissa rfl⟩, label _ ?ordinate rfl⟩
  case title => exact Position.isFinite_iff.mpr ⟨centerX.finite, above.finite⟩
  case abscissa => exact Position.isFinite_iff.mpr ⟨centerX.finite, below.finite⟩
  case ordinate => exact Position.isFinite_iff.mpr ⟨beside.finite, centerY.finite⟩

/-- The ticks are finite; the numbers that they spell are texts. -/
theorem isFinite_ticks (scaled : frame.IsScaled) (scaleFinite : options.textScale.isFinite = true) :
    ∀ glyph ∈ frame.ticks options, glyph.isFinite = true := by
  have below := scaled.bottom.add isWithin_tickOffset (by norm_num) le_rfl
  have beside := scaled.left.sub isWithin_tickOffset (by norm_num) le_rfl
  simp only [ticks, List.forall_mem_cons]
  refine ⟨Glyph.isFinite_text ?_ scaleFinite rfl, Glyph.isFinite_text ?_ scaleFinite rfl,
    Glyph.isFinite_text ?_ scaleFinite rfl, Glyph.isFinite_text ?_ scaleFinite rfl,
    List.forall_mem_nil _⟩
  · exact Position.isFinite_iff.mpr ⟨scaled.left.finite, below.finite⟩
  · exact Position.isFinite_iff.mpr ⟨scaled.right.finite, below.finite⟩
  · exact Position.isFinite_iff.mpr ⟨beside.finite, scaled.bottom.finite⟩
  · exact Position.isFinite_iff.mpr ⟨beside.finite, scaled.top.finite⟩

/-- All decorations of a scaled frame are finite. -/
theorem isFinite_decorations (scaled : frame.IsScaled)
    (scaleFinite : options.textScale.isFinite = true) :
    ∀ glyph ∈ frame.decorations options, glyph.isFinite = true := by
  simp only [decorations, List.forall_mem_append]
  exact ⟨⟨⟨⟨scaled.isFinite_edges, scaled.isFinite_horizontalAxis⟩, scaled.isFinite_verticalAxis⟩,
    scaled.isFinite_labels scaleFinite⟩, scaled.isFinite_ticks scaleFinite⟩

end IsScaled

end Frame

/-! ## The whole plot -/

namespace DiscretePlot

variable {frame : Frame} {points : List Position} {options : PlotOptions}

/-- The frame of moderate data has a finite extent. -/
theorem isScaled_fit (nonempty : points ≠ []) (finite : ∀ point ∈ points, point.isFinite = true)
    (abscissas : IsModerate (points.map Position.x))
    (ordinates : IsModerate (points.map Position.y)) : (Frame.fit points).IsScaled where
  xScale := rfl
  yScale := rfl
  abscissas := (Frame.spans_fit nonempty finite).abscissas.isScalable abscissas
  ordinates := (Frame.spans_fit nonempty finite).ordinates.isScalable ordinates

/-- A data point and its stem are finite and lie within a scaled frame. -/
theorem stem_within (spans : frame.Spans points) (scaled : frame.IsScaled) {point : Position}
    (member : point ∈ points) :
    ∀ glyph ∈ stem frame point,
      glyph.isFinite = true ∧ ∀ position ∈ glyph.positions, frame.Contains position := by
  have finite := spans.finite point member
  have abscissa := spans.abscissas.between point.x (List.mem_map_of_mem member)
  have ordinate := spans.ordinates.between point.y (List.mem_map_of_mem member)
  have yMin := scaled.ordinates.lowerWithin.finite
  have yMax := scaled.ordinates.upperWithin.finite
  have ordered := (spans.ordinates.between frame.yMin spans.ordinates.lowerAttained).2
  have zero : (0 : Float).isFinite = true := rfl
  obtain ⟨baseFinite, baseBetween⟩ := Number.clamp_between zero yMin yMax ordered
  have foot : (⟨point.x, base frame⟩ : Position).isFinite = true :=
    Position.isFinite_iff.mpr ⟨(Position.isFinite_iff.mp finite).1, baseFinite⟩
  obtain ⟨startFinite, startWithin⟩ := scaled.contains_toScene foot abscissa baseBetween
  obtain ⟨drawnFinite, drawnWithin⟩ := scaled.contains_toScene finite abscissa ordinate
  simp only [stem, List.forall_mem_cons]
  refine ⟨⟨Glyph.isFinite_line startFinite drawnFinite rfl, ?_⟩, ⟨?_, ?_⟩, List.forall_mem_nil _⟩
  · exact List.forall_mem_cons.mpr ⟨startWithin, List.forall_mem_singleton.mpr drawnWithin⟩
  · have size : pointSize.isFinite = true := rfl
    simp [Glyph.isFinite, drawnFinite, size]
  · exact List.forall_mem_singleton.mpr drawnWithin

/-- Moderate data give a finite drawing, with the points and stems inside the frame; its width and
its height vanish at most where the data have no such extent or are almost neighbours. -/
theorem moderate_data_are_drawn_within_frame (options : PlotOptions) (points : List Position)
    (nonempty : points ≠ []) (finite : ∀ point ∈ points, point.isFinite = true)
    (scaleFinite : options.textScale.isFinite = true)
    (abscissas : IsModerate (points.map Position.x))
    (ordinates : IsModerate (points.map Position.y)) :
    ∃ stems, glyphs options points = .ok ((Frame.fit points).decorations options ++ stems) ∧
      (∀ glyph ∈ (Frame.fit points).decorations options ++ stems, glyph.isFinite = true) ∧
      (∀ glyph ∈ stems, ∀ position ∈ glyph.positions, (Frame.fit points).Contains position) ∧
      (IsWide (points.map Position.x) → (Frame.fit points).left < (Frame.fit points).right) ∧
      (IsWide (points.map Position.y) → (Frame.fit points).top < (Frame.fit points).bottom) := by
  have spans := Frame.spans_fit nonempty finite
  have scaled := isScaled_fit nonempty finite abscissas ordinates
  have within : ∀ glyph ∈ (sorted points).flatMap (stem (Frame.fit points)),
      glyph.isFinite = true ∧
        ∀ position ∈ glyph.positions, (Frame.fit points).Contains position := by
    intro glyph member
    obtain ⟨point, among, member⟩ := List.mem_flatMap.mp member
    exact stem_within spans scaled ((List.mergeSort_perm _ _).subset among) glyph member
  refine ⟨_, glyphs_of_finite options nonempty finite, ?finite, ?within, ?width, ?height⟩
  case finite =>
    refine List.forall_mem_append.mpr ⟨scaled.isFinite_decorations scaleFinite, ?_⟩
    exact fun glyph member => (within glyph member).1
  case within => exact fun glyph member => (within glyph member).2
  case width =>
    intro wide
    obtain ⟨less, large⟩ := spans.abscissas.isWide wide
    exact scaled.left_lt_right less large
  case height =>
    intro wide
    obtain ⟨less, large⟩ := spans.ordinates.isWide wide
    exact scaled.top_lt_bottom less large

/-- The least positive number is too small a span. Its scale is infinite, and with it an edge of the
frame. -/
theorem least_span_is_drawn_nowhere (options : PlotOptions) :
    ∃ drawn, glyphs options [⟨0, 0⟩, ⟨5e-324, 1⟩] = .ok drawn ∧
      ∃ glyph ∈ drawn, glyph.isFinite = false := by
  have finite : ∀ point ∈ [(⟨0, 0⟩ : Position), ⟨5e-324, 1⟩], point.isFinite = true := by
    decide +kernel
  have upperEdge (frame : Frame) :
      .line ⟨frame.left, frame.top⟩ ⟨frame.right, frame.top⟩ Frame.thickness ∈
        frame.decorations options := by
    simp [Frame.decorations, Frame.edges]
  refine ⟨_, glyphs_of_finite options (List.cons_ne_nil _ _) finite, _,
    List.mem_append_left _ (upperEdge _), ?_⟩
  decide +kernel

/-- A span that overflows has the scale zero. -/
example : (Frame.fit [⟨-1e308, 0⟩, ⟨1e308, 1⟩]).xScale = 0 := by
  decide +kernel

/-- Neighbouring abscissas are drawn at the same place. -/
example : (Frame.fit [⟨1.7500000000000002, 0⟩, ⟨1.7500000000000004, 1⟩]).left =
    (Frame.fit [⟨1.7500000000000002, 0⟩, ⟨1.7500000000000004, 1⟩]).right := by
  decide +kernel

end DiscretePlot

end PlotLisp
