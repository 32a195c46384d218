import PlotLisp.Plot.Discrete
import PlotLisp.Proofs.Outcome
import PlotLisp.Proofs.Plot.Frame

/-!
# How a stem plot is laid out

Data are refused when there are none or when some coordinate is not finite. All other data are
drawn: a frame with its axes, labels, and ticks, and then each point once with its stem, by
ascending abscissas and in the order of the data where abscissas are equal.
-/

namespace PlotLisp.DiscretePlot

open Number (value)

variable {points : List Position}

/-! ## The order of the points -/

/-- A list has the elements of another one by ascending abscissas, and elements of equal
abscissas in the order that they had. -/
structure IsStableSort (points drawn : List Position) : Prop where
  permutes : drawn.Perm points
  ascends : drawn.Pairwise fun earlier later => earlier.x ≤ later.x
  keepsOrder : ∀ x : Float, drawn.filter (·.x == x) = points.filter (·.x == x)

/-- Whether a point is not to the right of another one, by the values of their abscissas. -/
def isWithin (left right : Position) : Bool :=
  decide (value left.x ≤ value right.x)

/-- The comparison of abscissas is transitive, as sorting asks for. -/
theorem isWithin_trans (first second third : Position) (before : isWithin first second = true)
    (after : isWithin second third = true) : isWithin first third = true := by
  simp only [isWithin, decide_eq_true_eq] at before after ⊢
  exact before.trans after

/-- Any two abscissas can be compared, as sorting asks for. -/
theorem isWithin_total (first second : Position) :
    (isWithin first second || isWithin second first) = true := by
  simpa [isWithin] using le_total (value first.x) (value second.x)

/-- Finite points are sorted by the values of their abscissas. -/
theorem sorted_eq (finite : ∀ point ∈ points, point.isFinite = true) :
    sorted points = points.mergeSort isWithin := by
  have same := List.map_mergeSort (f := id) (l := points)
    (r := fun left right : Position => decide (left.x ≤ right.x)) (s := isWithin)
    fun left member right member' => by
      simp only [id, isWithin, Number.le_iff_value (Position.isFinite_iff.mp (finite left member)).1
        (Position.isFinite_iff.mp (finite right member')).1]
  rw [List.map_id, List.map_id] at same
  exact same

/-- Merge sort orders finite points by their abscissas and keeps the order of ties. -/
theorem isStableSort_sorted (finite : ∀ point ∈ points, point.isFinite = true) :
    IsStableSort points (sorted points) := by
  have abscissa (point : Position) (member : point ∈ points) : point.x.isFinite = true :=
    (Position.isFinite_iff.mp (finite point member)).1
  have permutes : (sorted points).Perm points := List.mergeSort_perm _ _
  refine ⟨permutes, ?_, fun x => ?_⟩
  · have ordered := List.pairwise_mergeSort isWithin_trans isWithin_total points
    rw [← sorted_eq finite] at ordered
    refine ordered.imp_of_mem fun {earlier later} first second within => ?_
    rw [Number.le_iff_value (abscissa _ (permutes.subset first))
      (abscissa _ (permutes.subset second))]
    simpa [isWithin] using within
  · -- Points of one abscissa are in order already, so they stay together as they are.
    have ties : (points.filter (·.x == x)).Pairwise fun earlier later =>
        isWithin earlier later = true := by
      refine List.pairwise_of_forall_mem_list fun earlier first later second => ?_
      obtain ⟨first, same⟩ := List.mem_filter.mp first
      obtain ⟨second, same'⟩ := List.mem_filter.mp second
      have equal : (earlier.x == later.x) = true := BEq.trans same (BEq.symm same')
      rw [Number.beq_iff_value (abscissa _ first) (abscissa _ second)] at equal
      simpa [isWithin] using equal.le
    have kept := List.sublist_mergeSort isWithin_trans isWithin_total ties List.filter_sublist
    rw [← sorted_eq finite] at kept
    have kept := kept.filter (·.x == x)
    rw [List.filter_filter] at kept
    simp only [Bool.and_self] at kept
    exact (kept.eq_of_length (permutes.filter _).length_eq.symm).symm

/-! ## Where stems start -/

/-- Stems start at zero where zero lies in a range, and otherwise at the end of the range that is
nearest to zero. -/
structure IsBase (lower upper base : Float) : Prop where
  inside : lower ≤ 0 → 0 ≤ upper → base = 0
  above : 0 < lower → base = lower
  below : upper < 0 → base = upper

/-- Clamping zero to the range of the ordinates gives the place where stems start. -/
theorem isBase_clamp {lower upper : Float} (finite : lower.isFinite = true)
    (finite' : upper.isFinite = true) (ordered : lower ≤ upper) :
    IsBase lower upper (Number.clamp lower upper 0) := by
  have zero : (0 : Float).isFinite = true := rfl
  rw [Number.le_iff_value finite finite'] at ordered
  constructor
  case inside =>
    intro least greatest
    rw [Number.le_iff_value finite zero] at least
    rw [Number.le_iff_value zero finite'] at greatest
    rw [Number.clamp, if_neg (by rw [Number.lt_iff_value zero finite]; exact least.not_gt),
      if_neg (by rw [Number.lt_iff_value finite' zero]; exact greatest.not_gt)]
  case above => exact fun above => if_pos above
  case below =>
    intro below
    have negative := (Number.lt_iff_value finite' zero).mp below
    rw [Number.clamp, if_neg, if_pos below]
    rw [Number.lt_iff_value zero finite]
    exact (ordered.trans_lt negative).le.not_gt

/-! ## The whole plot -/

/-- The parts of a stem plot, in the order in which they are drawn. -/
structure Parts where
  edges : List Glyph
  horizontalAxis : List Glyph
  verticalAxis : List Glyph
  labels : List Glyph
  ticks : List Glyph
  stems : List Glyph

def Parts.glyphs (parts : Parts) : List Glyph :=
  parts.edges ++ parts.horizontalAxis ++ parts.verticalAxis ++ parts.labels ++ parts.ticks ++
    parts.stems

/-- The corners of the data range in the scene, clockwise from the upper left one. -/
def corners (frame : Frame) : List Position :=
  [⟨frame.xMin, frame.yMax⟩, ⟨frame.xMax, frame.yMax⟩, ⟨frame.xMax, frame.yMin⟩,
    ⟨frame.xMin, frame.yMin⟩].map frame.toScene

/-- A stem plot of finite data in the frame of their range. -/
structure IsStemPlot (options : PlotOptions) (points : List Position) (frame : Frame)
    (parts : Parts) : Prop where
  spans : frame.Spans points
  scales : frame.xScale = Frame.scale (frame.xMax - frame.xMin) ∧
    frame.yScale = Frame.scale (frame.yMax - frame.yMin)
  edges : parts.edges =
    List.zipWith (.line · · 0) (corners frame) ((corners frame).tail ++ (corners frame).take 1)
  horizontalAxis : parts.horizontalAxis =
    if frame.yMin < 0 ∧ 0 < frame.yMax then [.line ⟨frame.left, 0⟩ ⟨frame.right, 0⟩ 0] else []
  verticalAxis : parts.verticalAxis =
    if frame.xMin < 0 ∧ 0 < frame.xMax then [.line ⟨0, frame.bottom⟩ ⟨0, frame.top⟩ 0] else []
  labels : List.Forall₂
    (fun content glyph => ∃ position rotation,
      glyph = .text content position options.textScale rotation)
    ([options.title, options.abscissaLabel, options.ordinateLabel].filterMap id) parts.labels
  ticks : List.Forall₂
    (fun bound glyph => ∃ position,
      glyph = .text (Number.significantText bound 2) position options.textScale 0)
    [frame.xMin, frame.xMax, frame.yMin, frame.yMax] parts.ticks
  clampable : frame.yMin ≤ frame.yMax ∧ frame.yMin.isNaN = false ∧ frame.yMax.isNaN = false
  stems : ∃ drawn base, IsStableSort points drawn ∧ IsBase frame.yMin frame.yMax base ∧
    parts.stems = drawn.flatMap fun point =>
      [.line (frame.toScene ⟨point.x, base⟩) (frame.toScene point) 0,
        .point (frame.toScene point) 0.5]

/-- A label is drawn for every text that the options give, in the order of the options. -/
theorem forall₂_labels (options : PlotOptions) (frame : Frame) :
    List.Forall₂
      (fun content glyph => ∃ position rotation,
        glyph = Glyph.text content position options.textScale rotation)
      ([options.title, options.abscissaLabel, options.ordinateLabel].filterMap id)
      (frame.labels options) := by
  obtain ⟨title, abscissaLabel, ordinateLabel, textScale⟩ := options
  cases title <;> cases abscissaLabel <;> cases ordinateLabel <;> simp [Frame.labels]

/-- The frame that is fitted to finite points and what is drawn in it make up a stem plot. -/
theorem isStemPlot_fit (options : PlotOptions) (nonempty : points ≠ [])
    (finite : ∀ point ∈ points, point.isFinite = true) :
    IsStemPlot options points (Frame.fit points)
      ⟨(Frame.fit points).edges, (Frame.fit points).horizontalAxis,
        (Frame.fit points).verticalAxis, (Frame.fit points).labels options,
        (Frame.fit points).ticks options, (sorted points).flatMap (stem (Frame.fit points))⟩ := by
  have spans := Frame.spans_fit nonempty finite
  obtain ⟨lowest, among, least⟩ := spans.yMin.1
  obtain ⟨highest, among', greatest⟩ := spans.yMax.1
  have finiteMin : (Frame.fit points).yMin.isFinite = true :=
    least ▸ (Position.isFinite_iff.mp (finite lowest among)).2
  have finiteMax : (Frame.fit points).yMax.isFinite = true :=
    greatest ▸ (Position.isFinite_iff.mp (finite highest among')).2
  have ordered : (Frame.fit points).yMin ≤ (Frame.fit points).yMax :=
    greatest ▸ spans.yMin.2 highest among'
  constructor
  case spans => exact spans
  case scales => exact ⟨rfl, rfl⟩
  case edges => rfl
  case horizontalAxis => rfl
  case verticalAxis => rfl
  case labels => exact forall₂_labels options _
  case ticks => simp [Frame.ticks, Frame.tickDigits]
  case clampable =>
    exact ⟨ordered, Number.isNaN_of_isFinite finiteMin, Number.isNaN_of_isFinite finiteMax⟩
  case stems =>
    exact ⟨sorted points, base (Frame.fit points), isStableSort_sorted finite,
      isBase_clamp finiteMin finiteMax ordered, rfl⟩

/-- Finite data with any points pass both checks, so they are drawn. -/
theorem glyphs_of_finite (options : PlotOptions) (nonempty : points ≠ [])
    (finite : ∀ point ∈ points, point.isFinite = true) :
    glyphs options points = .ok ((Frame.fit points).decorations options ++
      (sorted points).flatMap (stem (Frame.fit points))) := by
  have some : (!points.isEmpty) = true := by simpa using nonempty
  have all : points.all Position.isFinite = true := List.all_eq_true.mpr finite
  unfold glyphs checkFinite
  rw [some, all]
  rfl

end PlotLisp.DiscretePlot
