import Mathlib.Data.Finset.Card
import Mathlib.Order.Interval.Finset.Nat
import PlotLisp.Proofs.Plot.Sampling

/-!
# The curve of a function

The curve is one polyline. Its vertices are the samples on the grid, and between them one more
in every interval that has a bend at one of its ends. Neighbouring bends share an interval, so
the number of lines is that of a set of intervals.

The statements are about the angles by which the drawn samples turn. Nothing is known of the
arccosine here but that it is a function, so which angle a cosine belongs to stays open, and
what an accurate arccosine gives is said under that condition.
-/

namespace PlotLisp.ContinuousPlot

variable {function : Float → Except Fault Float} {lower upper : Float}

/-! ## Where the curve bends -/

/-- The cosine of the angle by which a path turns at `b` on its way from `a` to `c`: the scalar
product of the two segments over the product of their lengths, if that is not zero. Rounding
does not take it beyond one. -/
def turnCosine? (a b c : Position) : Option Float :=
  let scalarProduct := Number.mulAdd (b.x - a.x) (c.x - b.x) ((b.y - a.y) * (c.y - b.y))
  let lengths :=
    Number.hypotenuse (b.x - a.x) (b.y - a.y) * Number.hypotenuse (c.x - b.x) (c.y - b.y)
  if lengths ≤ 0 then none else some (Number.clamp (-1) 1 (scalarProduct / lengths))

/-- The angle in degrees that has this cosine. -/
def degrees (cosine : Float) : Float :=
  cosine.acos * 57.29577951308232

/-- The cosine of the angle by which a path turns at the vertex of this index. -/
def turnCosineAt? (path : List Position) (index : Nat) : Option Float := do
  turnCosine? (← path[index - 1]?) (← path[index]?) (← path[index + 1]?)

/-- Whether a path turns by more than 5 and less than 175 degrees at the vertex of this index. -/
def turnsAt (path : List Position) (index : Nat) : Bool :=
  (turnCosineAt? path index).any fun cosine => 5 < degrees cosine ∧ degrees cosine < 175

/-- A bend is a turn by more than 5 and less than 175 degrees. -/
theorem isBend_eq (a b c : Position) :
    isBend a b c =
      (turnCosine? a b c).any fun cosine => 5 < degrees cosine ∧ degrees cosine < 175 := by
  have unit : Number.degreesPerRadian = 57.29577951308232 := by decide +kernel
  simp only [isBend, bendDegrees, turnCosine?, degrees, unit]
  split_ifs with noLength
  · rfl
  · rfl

/-- The bends behind some samples are found by their indices among all samples. -/
theorem bendsFrom_eq (before rest : List Position) :
    bendsFrom (before.length + 1) rest =
      (List.range' (before.length + 1) (rest.length - 2)).filter (turnsAt (before ++ rest)) := by
  induction rest generalizing before with
  | nil => rfl
  | cons a rest inductionHypothesis =>
      match rest with
      | [] => rfl
      | [b] => rfl
      | b :: c :: rest =>
          have here :
              turnsAt (before ++ a :: b :: c :: rest) (before.length + 1) = isBend a b c := by
            have last : (before ++ a :: b :: c :: rest)[before.length + 2]? = some c := by
              rw [List.getElem?_append_right (by omega), Nat.add_sub_cancel_left]
              rfl
            simp [turnsAt, turnCosineAt?, last, isBend_eq]
          have further := inductionHypothesis (before ++ [a])
          rw [List.length_append, List.length_singleton, List.append_assoc,
            List.singleton_append] at further
          have count : (a :: b :: c :: rest).length - 2 = (b :: c :: rest).length - 2 + 1 := by
            simp
          rw [count, List.range'_succ, List.filter_cons, here, bendsFrom, further]

/-- The bends are the first indices, up to ten, at which the curve bends as it is drawn in the
frame of the samples. -/
theorem bends_eq (samples : List Position) :
    bends samples =
      ((List.range' 1 (samples.length - 2)).filter
        (turnsAt (samples.map (Frame.fit samples).toScene))).take mostBends := by
  have found := bendsFrom_eq [] (samples.map (Frame.fit samples).toScene)
  rw [List.length_map] at found
  exact congrArg (List.take mostBends) found

/-! ## The vertices -/

/-- The intervals between neighbouring samples with their numbers. -/
def numberedIntervals (samples : List Position) : List ((Position × Position) × Nat) :=
  (samples.zip samples.tail).zipIdx 1

/-- The abscissa halfway between two samples. -/
def middle (interval : Position × Position) : Float :=
  Number.midpoint interval.1.x interval.2.x

/-- The midpoints behind a sample are those of the numbered intervals that are next to a bend. -/
theorem middlesFrom_eq (bends : List Nat) (index : Nat) (previous : Position)
    (rest : List Position) :
    middlesFrom bends index previous rest =
      (((previous :: rest).zip rest).zipIdx (index + 1)).flatMap fun (interval, number) =>
        if isNextToBend bends number then [middle interval] else [] := by
  induction rest generalizing index previous with
  | nil => rfl
  | cons next rest inductionHypothesis =>
      rw [middlesFrom, inductionHypothesis, List.zip_cons_cons, List.zipIdx_cons,
        List.flatMap_cons]
      rfl

/-- The midpoints on which the function is called. -/
theorem middles_eq (samples : List Position) :
    middles samples =
      (numberedIntervals samples).flatMap fun (interval, number) =>
        if isNextToBend (bends samples) number then [middle interval] else [] := by
  cases samples with
  | nil => rfl
  | cons first rest => exact middlesFrom_eq _ 0 first rest

/-- The vertices behind a sample are the ends of the numbered intervals, each with the midpoint
before it where the interval is next to a bend. -/
theorem insertFrom_eq (bends : List Nat) (value : Float → Float) (index : Nat)
    (previous : Position) (rest : List Position) :
    insertFrom bends index previous rest ((middlesFrom bends index previous rest).map value) =
      (((previous :: rest).zip rest).zipIdx (index + 1)).flatMap fun (interval, number) =>
        (if isNextToBend bends number then [⟨middle interval, value (middle interval)⟩] else []) ++
          [interval.2] := by
  induction rest generalizing index previous with
  | nil => rfl
  | cons next rest inductionHypothesis =>
      rw [List.zip_cons_cons, List.zipIdx_cons, List.flatMap_cons, ← inductionHypothesis,
        middlesFrom, insertFrom]
      by_cases near : isNextToBend bends (index + 1) = true
      · simp [near, middle]
      · simp [near]

/-- Every interval next to a bend is split once, at its midpoint, and no other is. -/
theorem refined_eq :
    refined function lower upper =
      (samples function lower upper).take 1 ++
        (numberedIntervals (samples function lower upper)).flatMap fun (interval, number) =>
          (if isNextToBend (bends (samples function lower upper)) number then
            [⟨middle interval, ordinate function (middle interval)⟩] else []) ++ [interval.2] := by
  unfold refined
  generalize samples function lower upper = sampled
  cases sampled with
  | nil => rfl
  | cons first rest =>
      exact congrArg (first :: ·) (insertFrom_eq _ (ordinate function) 0 first rest)

/-- The intervals between the samples are numbered from one on. -/
theorem map_number_numberedIntervals (samples : List Position) :
    (numberedIntervals samples).map Prod.snd = List.range' 1 (samples.length - 1) := by
  simp [numberedIntervals, List.zipIdx_map_snd]

/-- Every sample but the first ends an interval. -/
theorem map_end_numberedIntervals (samples : List Position) :
    (numberedIntervals samples).map (fun interval => interval.1.2) = samples.tail := by
  have ends := congrArg (List.map Prod.snd) (List.zipIdx_map_fst 1 (samples.zip samples.tail))
  rw [List.map_map, List.map_snd_zip (by simp)] at ends
  exact ends

/-- The first sample and the ends of the intervals are all samples. -/
theorem take_one_append_ends (samples : List Position) :
    samples.take 1 ++ (numberedIntervals samples).flatMap (fun interval => [interval.1.2]) =
      samples := by
  rw [← List.map_eq_flatMap, map_end_numberedIntervals, ← List.drop_one, List.take_append_drop]

/-- The samples on the grid remain, in their order. -/
theorem samples_sublist_refined :
    (samples function lower upper).Sublist (refined function lower upper) := by
  have parts := take_one_append_ends (samples function lower upper)
  rw [refined_eq]
  conv => left; rw [← parts]
  exact (List.Sublist.refl _).append
    (List.Sublist.flatMap_right _ fun _ _ => List.sublist_append_right _ _)

/-- The abscissas of the samples are the grid. -/
theorem map_x_samples : (samples function lower upper).map Position.x = grid lower upper := by
  simp [samples, Function.comp_def]

/-- The vertices stand over the grid and the midpoints on which the function is called. -/
theorem map_x_refined :
    ((refined function lower upper).map Position.x).Perm
      (grid lower upper ++ middles (samples function lower upper)) := by
  rw [refined_eq, middles_eq, List.map_append, List.map_flatMap,
    ← @map_x_samples function]
  conv => right; left; rw [← take_one_append_ends (samples function lower upper)]
  rw [List.map_append, List.map_flatMap, List.append_assoc]
  refine (List.Perm.refl _).append (.trans ?_ List.perm_append_comm)
  refine .trans ?_ (List.flatMap_append_perm _ _ _).symm
  refine List.Perm.flatMap_left _ ?_
  rintro ⟨interval, number⟩ -
  simp only [List.map_append]
  refine .append_right _ (.of_eq ?_)
  split <;> rfl

/-- Refining leaves the last vertex where it is. -/
theorem getLast?_insertFrom (bends : List Nat) (index : Nat) (previous : Position)
    (rest : List Position) (ordinates : List Float) :
    (previous :: insertFrom bends index previous rest ordinates).getLast? =
      (previous :: rest).getLast? := by
  induction rest generalizing index previous ordinates with
  | nil => rfl
  | cons next rest inductionHypothesis =>
      rw [insertFrom]
      split
      · rw [← List.cons_append, List.getLast?_append, inductionHypothesis, List.getLast?_cons_cons]
        simp [List.getLast?_cons]
      · rw [List.getLast?_cons_cons, List.getLast?_cons_cons, inductionHypothesis]

/-- The last sample stands over the upper bound itself, not over a multiple of the step. -/
theorem getLast?_samples :
    (samples function lower upper).getLast? = some ⟨upper, ordinate function upper⟩ := by
  simp [samples, grid]

/-- The first vertex is the first sample, and the last one is the sample at the upper bound. -/
theorem ends_refined :
    ∃ first rest, refined function lower upper = first :: rest ∧
      (samples function lower upper).head? = some first ∧
      (refined function lower upper).getLast? = some ⟨upper, ordinate function upper⟩ := by
  have last := @getLast?_samples function lower upper
  unfold refined
  cases sampled : samples function lower upper with
  | nil => simp [sampled] at last
  | cons first rest =>
      refine ⟨first, _, rfl, rfl, ?_⟩
      rw [← last, sampled]
      exact getLast?_insertFrom _ _ _ _ _

/-! ## How many vertices there are -/

/-- The numbers of the intervals, out of fifty, that have one of these samples at one of their
ends. -/
def intervalsNextTo (turns : List Nat) : Finset Nat :=
  (Finset.Icc 1 50).filter fun number => number - 1 ∈ turns ∨ number ∈ turns

/-- Fifty intervals have fifty-one samples. -/
theorem length_samples : (samples function lower upper).length = 51 := by
  simp [samples, grid, intervals]

/-- The numbered intervals of fifty-one samples are those from one to fifty. -/
theorem mem_intervalsNextTo {samples : List Position} (count : samples.length = 51)
    {interval : Position × Position} {number : Nat} {turns : List Nat}
    (member : (interval, number) ∈ numberedIntervals samples) :
    number ∈ intervalsNextTo turns ↔ isNextToBend turns number = true := by
  have inside : number ∈ List.range' 1 (samples.length - 1) := by
    rw [← map_number_numberedIntervals]
    exact List.mem_map_of_mem member
  rw [count, List.mem_range'_1] at inside
  simp only [intervalsNextTo, Finset.mem_filter, Finset.mem_Icc, isNextToBend, Bool.or_eq_true,
    List.contains_iff_mem]
  constructor
  · exact And.right
  · intro near
    exact ⟨by omega, near⟩

/-- There is one midpoint for each interval next to a bend. -/
theorem length_middles {samples : List Position} (count : samples.length = 51) :
    (middles samples).length = (intervalsNextTo (bends samples)).card := by
  have counted : (middles samples).length =
      ((numberedIntervals samples).map Prod.snd).countP (isNextToBend (bends samples)) := by
    rw [middles_eq, List.countP_map]
    generalize numberedIntervals samples = intervals
    induction intervals with
    | nil => rfl
    | cons interval rest inductionHypothesis =>
        rw [List.flatMap_cons, List.length_append, inductionHypothesis, List.countP_cons,
          Nat.add_comm]
        congr 1
        simp only [Function.comp_apply]
        split <;> rfl
  have near : isNextToBend (bends samples) =
      fun number => decide (number - 1 ∈ bends samples ∨ number ∈ bends samples) := by
    funext number
    simp [isNextToBend]
  rw [counted, map_number_numberedIntervals, near, List.countP_eq_length_filter, count]
  rfl

/-- A few samples have at most twice as many intervals next to them. -/
theorem card_intervalsNextTo_le (turns : List Nat) :
    (intervalsNextTo turns).card ≤ 2 * turns.length := by
  have covered : intervalsNextTo turns ⊆ turns.toFinset.image (· + 1) ∪ turns.toFinset := by
    intro number member
    simp only [intervalsNextTo, Finset.mem_filter, Finset.mem_Icc] at member
    obtain ⟨⟨positive, -⟩, before | here⟩ := member
    · refine Finset.mem_union_left _ (Finset.mem_image.mpr ⟨number - 1, ?_, by omega⟩)
      exact List.mem_toFinset.mpr before
    · exact Finset.mem_union_right _ (List.mem_toFinset.mpr here)
  calc (intervalsNextTo turns).card
      ≤ (turns.toFinset.image (· + 1) ∪ turns.toFinset).card := Finset.card_le_card covered
    _ ≤ (turns.toFinset.image (· + 1)).card + turns.toFinset.card := Finset.card_union_le _ _
    _ ≤ turns.toFinset.card + turns.toFinset.card :=
        Nat.add_le_add_right Finset.card_image_le _
    _ ≤ 2 * turns.length := by
        have distinct := turns.toFinset_card_le
        omega

/-! ## The lines -/

/-- Lines of thickness one half that join these vertices, each to the next one. -/
inductive Polyline : List Position → List Glyph → Prop where
  | vertex (only : Position) : Polyline [only] []
  | line {start finish : Position} {rest : List Position} {lines : List Glyph}
      (further : Polyline (finish :: rest) lines) :
      Polyline (start :: finish :: rest) (.line start finish 0.5 :: lines)

/-- The lines drawn through some vertices join each of them to the next. -/
theorem polyline_curve (frame : Frame) (first : Position) (rest : List Position) :
    Polyline ((first :: rest).map frame.toScene) (curve frame (first :: rest)) := by
  induction rest generalizing first with
  | nil => exact .vertex _
  | cons next rest inductionHypothesis => exact .line (inductionHypothesis next)

/-- A curve has one line less than it has vertices. -/
theorem length_curve (frame : Frame) (vertices : List Position) :
    (curve frame vertices).length = vertices.length - 1 := by
  simp [curve]

/-! ## The whole curve -/

/-- A curve through fifty-one samples between two bounds that is refined once at its first ten
turns: its vertices, the lines that draw it in a frame, and the calls that it takes. -/
structure IsRefinedCurve (function : Float → Except Fault Float) (lower upper : Float)
    (samples vertices : List Position) (turns : List Nat) (frame : Frame) (lines : List Glyph)
    (calls : List Float) : Prop where
  onGrid : samples.map Position.x =
    (List.range 50).map (fun k => Number.mulAdd (.ofNat k) ((upper - lower) / 50) lower) ++ [upper]
  sampled : ∀ sample ∈ samples, function sample.x = .ok sample.y
  firstTurns : turns =
    ((List.range' 1 49).filter (turnsAt (samples.map (Frame.fit samples).toScene))).take 10
  split : vertices = samples.take 1 ++
    (numberedIntervals samples).flatMap fun (interval, number) =>
      (if number ∈ intervalsNextTo turns then
        [⟨middle interval, ordinate function (middle interval)⟩] else []) ++ [interval.2]
  kept : samples.Sublist vertices
  ends : vertices.head? = samples.head? ∧
    vertices.getLast? = some ⟨upper, ordinate function upper⟩
  joined : Polyline (vertices.map frame.toScene) lines
  count : lines.length = 50 + (intervalsNextTo turns).card ∧ lines.length ≤ 70
  answered : ∀ x ∈ calls, Answers function x
  planned : calls = samples.map Position.x ++
    (numberedIntervals samples).flatMap fun (interval, number) =>
      if number ∈ intervalsNextTo turns then [middle interval] else []
  once : calls.Perm (vertices.map Position.x)

/-- Where the function answers all calls, the refined samples and the lines through them are a
refined curve. -/
theorem isRefinedCurve (frame : Frame)
    (answered : ∀ x ∈ grid lower upper ++ middles (samples function lower upper),
      Answers function x) :
    IsRefinedCurve function lower upper (samples function lower upper)
      (refined function lower upper) (bends (samples function lower upper)) frame
      (curve frame (refined function lower upper))
      (grid lower upper ++ middles (samples function lower upper)) := by
  have length := @length_samples function lower upper
  have onGrid := @map_x_samples function lower upper
  obtain ⟨first, rest, begins, head, last⟩ := @ends_refined function lower upper
  constructor
  case onGrid => exact onGrid
  case sampled =>
    intro sample member
    obtain ⟨x, inside, rfl⟩ := List.mem_map.mp member
    exact answered x (List.mem_append_left _ inside)
  case firstTurns =>
    rw [bends_eq, length]
    rfl
  case split =>
    rw [refined_eq]
    refine congrArg (_ ++ ·) (List.flatMap_congr ?_)
    rintro ⟨interval, number⟩ member
    simp only [mem_intervalsNextTo length member]
  case kept => exact samples_sublist_refined
  case ends =>
    refine ⟨?_, last⟩
    rw [head, begins, List.head?_cons]
  case joined =>
    rw [begins]
    exact polyline_curve frame first rest
  case count =>
    -- There are as many vertices as calls, and one line less.
    have vertices := (@map_x_refined function lower upper).length_eq
    have few := card_intervalsNextTo_le (bends (samples function lower upper))
    have atMost : (bends (samples function lower upper)).length ≤ 10 := List.length_take_le _ _
    rw [List.length_map, List.length_append, ← onGrid, List.length_map, length] at vertices
    rw [length_curve, vertices, length_middles length]
    omega
  case answered => exact answered
  case planned =>
    rw [onGrid, middles_eq]
    refine congrArg (_ ++ ·) (List.flatMap_congr ?_)
    rintro ⟨interval, number⟩ member
    simp only [mem_intervalsNextTo length member]
  case once => exact map_x_refined.symm

/-- A vertex is a sample on the grid, or stands over the midpoint of an interval of the grid. -/
theorem mem_refined {vertex : Position} (member : vertex ∈ refined function lower upper) :
    (∃ x ∈ grid lower upper, vertex = ⟨x, ordinate function x⟩) ∨
      ∃ interval ∈ (grid lower upper).zip (grid lower upper).tail,
        vertex = ⟨Number.midpoint interval.1 interval.2,
          ordinate function (Number.midpoint interval.1 interval.2)⟩ := by
  have sampled (sample : Position) (among : sample ∈ samples function lower upper) :
      ∃ x ∈ grid lower upper, sample = ⟨x, ordinate function x⟩ := by
    obtain ⟨x, inside, rfl⟩ := List.mem_map.mp among
    exact ⟨x, inside, rfl⟩
  rw [refined_eq, List.mem_append, List.mem_flatMap] at member
  obtain begins | ⟨⟨interval, number⟩, among, vertexOf⟩ := member
  · exact .inl (sampled vertex (List.mem_of_mem_take begins))
  have neighbours := List.fst_mem_of_mem_zipIdx among
  rcases List.mem_append.mp vertexOf with halfway | ends
  · refine .inr ⟨(interval.1.x, interval.2.x), ?_, ?_⟩
    · have abscissas := List.mem_map_of_mem (f := Prod.map Position.x Position.x) neighbours
      rw [← List.zip_map, List.map_tail, samples, List.map_map] at abscissas
      simpa [Function.comp_def, Prod.map] using abscissas
    · split at halfway
      · exact List.mem_singleton.mp halfway
      · simp at halfway
  · obtain rfl := List.mem_singleton.mp ends
    exact .inl (sampled _ (List.mem_of_mem_tail (List.of_mem_zip neighbours).2))

/-- A function that has finite values on the grid and on all midpoints of the grid is drawn. -/
theorem exists_drawing (options : PlotOptions) (function : Float → Except Fault Float)
    (ordered : lower < upper) (answers : ∀ x, Answers function x)
    (onGrid : ∀ x ∈ grid lower upper, (Position.mk x (ordinate function x)).isFinite)
    (between : ∀ interval ∈ (grid lower upper).zip (grid lower upper).tail,
      (Position.mk (Number.midpoint interval.1 interval.2)
        (ordinate function (Number.midpoint interval.1 interval.2))).isFinite) :
    ∃ drawing calls, recordedPlot options function lower upper = (.ok drawing, calls) := by
  have finite : ∀ vertex ∈ refined function lower upper, vertex.isFinite := fun vertex member => by
    rcases mem_refined member with ⟨x, inside, rfl⟩ | ⟨interval, inside, rfl⟩
    · exact onGrid x inside
    · exact between interval inside
  rcases recordedPlot_cases options function ordered with
    ⟨fault, calls, -, before, x, -, faulted, -⟩ | ⟨-, ⟨-, vertex, member, infinite⟩ | drawn⟩
  · rw [answers x] at faulted
    cases faulted
  · have among : vertex ∈ refined function lower upper :=
      (List.mem_append.mp member).elim (samples_sublist_refined.subset ·) id
    rw [finite vertex among] at infinite
    cases infinite
  · exact ⟨_, _, drawn⟩

/-- The samples are those of the function on the grid, and no others. -/
theorem IsRefinedCurve.samples_eq {sampled vertices : List Position} {turns : List Nat}
    {frame : Frame} {lines : List Glyph} {calls : List Float}
    (isCurve : IsRefinedCurve function lower upper sampled vertices turns frame lines calls) :
    sampled = samples function lower upper := by
  have onCurve (sample : Position) (member : sample ∈ sampled) :
      sample = ⟨sample.x, ordinate function sample.x⟩ := by
    rw [ordinate, isCurve.sampled sample member]
  calc sampled
      = sampled.map id := (List.map_id sampled).symm
    _ = sampled.map fun sample => ⟨sample.x, ordinate function sample.x⟩ :=
        List.map_congr_left onCurve
    _ = (sampled.map Position.x).map fun x => ⟨x, ordinate function x⟩ := by
        rw [List.map_map, Function.comp_def]
    _ = samples function lower upper := by
        rw [isCurve.onGrid]
        rfl

/-- The absolute value, which has a corner at zero. -/
def absoluteValue (x : Float) : Except Fault Float :=
  .ok x.abs

/-- The arccosine is accurate enough to tell a straight path from one that turns by an angle
with a cosine near -0.6. -/
structure ArccosineTellsCorners : Prop where
  straight (cosine : Float) (near : 0.9999 ≤ cosine ∧ cosine ≤ 1) : ¬ 5 < degrees cosine
  turned (cosine : Float) (near : -0.61 ≤ cosine ∧ cosine ≤ -0.59) :
    5 < degrees cosine ∧ degrees cosine < 175

/-- The samples of the absolute value are drawn as a path that is straight but for its middle. -/
theorem turnCosines_absoluteValue : ∀ index ∈ List.range' 1 49,
    (turnCosineAt? ((samples absoluteValue (-1) 1).map
      (Frame.fit (samples absoluteValue (-1) 1)).toScene) index).any fun cosine =>
        if index = 25 then -0.61 ≤ cosine ∧ cosine ≤ -0.59
        else 0.9999 ≤ cosine ∧ cosine ≤ 1 := by
  decide +kernel

/-- The absolute value bends at the sample over zero and nowhere else. -/
theorem bends_absoluteValue (tells : ArccosineTellsCorners) :
    bends (samples absoluteValue (-1) 1) = [25] := by
  rw [bends_eq, length_samples]
  generalize path_eq : (samples absoluteValue (-1) 1).map
    (Frame.fit (samples absoluteValue (-1) 1)).toScene = path
  have turns : ∀ index ∈ List.range' 1 49, turnsAt path index = decide (index = 25) := by
    intro index member
    have corner := turnCosines_absoluteValue index member
    rw [path_eq, Option.any_eq_true] at corner
    obtain ⟨cosine, found, near⟩ := corner
    rw [turnsAt, found, Option.any_some]
    by_cases zero : index = 25
    · have angle := tells.turned cosine (by simpa [zero] using near)
      simp [zero, angle]
    · have angle := tells.straight cosine (by simpa [zero] using near)
      simp [zero, angle]
  rw [List.filter_congr turns]
  rfl

end PlotLisp.ContinuousPlot
