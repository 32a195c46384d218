import PlotLisp.Plot.Continuous
import PlotLisp.Proofs.Outcome

/-!
# How a function is sampled

A function that is plotted is called on the grid, and then on the midpoints of some intervals
of the grid. Which midpoints these are depends on the samples of the grid only, so the calls
come in two plain sequences, whatever effects the function has. A function without other
effects than its faults can be made to record its calls: there are as many as the sequence has
abscissas, or the last one is the first that faults.
-/

namespace PlotLisp.ContinuousPlot

/-- Whether the interval of this number has a bend at one of its ends. The first interval has
number one and ends at the sample of index one. -/
def isNextToBend (bends : List Nat) (interval : Nat) : Bool :=
  bends.contains (interval - 1) || bends.contains interval

/-- The midpoints of the intervals next to bends among those after `previous`, which has this
index. -/
def middlesFrom (bends : List Nat) : Nat → Position → List Position → List Float
  | _, _, [] => []
  | index, previous, next :: rest =>
      (if isNextToBend bends (index + 1) then [Number.midpoint previous.x next.x] else []) ++
        middlesFrom bends (index + 1) next rest

/-- The samples after `previous`, which has this index, with these ordinates over the midpoints
of the intervals next to bends. -/
def insertFrom (bends : List Nat) : Nat → Position → List Position → List Float → List Position
  | _, _, [], _ => []
  | index, previous, next :: rest, ordinates =>
      if isNextToBend bends (index + 1) then
        (ordinates.take 1).map (Position.mk (Number.midpoint previous.x next.x)) ++
          next :: insertFrom bends (index + 1) next rest ordinates.tail
      else next :: insertFrom bends (index + 1) next rest ordinates

/-- The midpoints of the intervals next to bends. -/
def middles : List Position → List Float
  | [] => []
  | first :: rest => middlesFrom (bends (first :: rest)) 0 first rest

/-- The samples with these ordinates over the midpoints of the intervals next to bends. -/
def insertMiddles : List Position → List Float → List Position
  | [], _ => []
  | first :: rest, ordinates =>
      first :: insertFrom (bends (first :: rest)) 0 first rest ordinates

section

variable {m : Type → Type} [Monad m] [LawfulMonad m] (function : Float → m Float)

/-- Samples are abscissas with their ordinates. -/
theorem mapM_sampleAt (xs : List Float) :
    xs.mapM (sampleAt function) = List.zipWith Position.mk xs <$> xs.mapM function := by
  induction xs with
  | nil => simp
  | cons x rest inductionHypothesis =>
      simp only [List.mapM_cons, sampleAt, inductionHypothesis, map_eq_pure_bind, bind_assoc,
        pure_bind, List.zipWith_cons_cons]

/-- Refining a curve calls the function on the midpoints next to bends and on nothing else. -/
theorem refineFrom_eq (bends : List Nat) (index : Nat) (previous : Position)
    (rest : List Position) :
    refineFrom function bends index previous rest =
      insertFrom bends index previous rest <$>
        (middlesFrom bends index previous rest).mapM function := by
  induction rest generalizing index previous with
  | nil => simp [refineFrom, middlesFrom, insertFrom]
  | cons next rest inductionHypothesis =>
      have same : (bends.contains index || bends.contains (index + 1)) =
          isNextToBend bends (index + 1) := rfl
      rw [refineFrom, same, middlesFrom, map_eq_pure_bind]
      simp only [insertFrom]
      split
      · simp only [sampleAt, inductionHypothesis, map_eq_pure_bind, bind_assoc, pure_bind,
          List.singleton_append, List.mapM_cons, List.take_succ_cons, List.take_zero,
          List.map_cons, List.map_nil, List.tail_cons]
      · simp only [inductionHypothesis, map_eq_pure_bind, bind_assoc, pure_bind,
          List.nil_append]

/-- A curve is refined by the values at the midpoints next to its bends, each asked for once
and in order. -/
theorem refine_eq (samples : List Position) :
    refine function samples =
      insertMiddles samples <$> (middles samples).mapM function := by
  cases samples with
  | nil => simp [refine, middles, insertMiddles]
  | cons first rest =>
      simp only [refine, middles, insertMiddles, refineFrom_eq, map_eq_pure_bind, bind_assoc,
        pure_bind]

variable [MonadExceptOf Fault m]

/-- A function is called on the grid and then on the midpoints next to bends, and a plot is
drawn of what it returns. -/
theorem glyphs_eq (options : PlotOptions) (lower upper : Float) :
    glyphs options function lower upper = do
      ofExcept (check (lower < upper) (.outsideDomain form .noWidth))
      let samples := List.zipWith Position.mk (grid lower upper)
        (← (grid lower upper).mapM function)
      ofExcept (checkFinite form samples)
      let refined := insertMiddles samples (← (middles samples).mapM function)
      ofExcept (checkFinite form refined)
      return (Frame.fit refined).decorations options ++ curve (Frame.fit refined) refined := by
  simp only [glyphs, mapM_sampleAt, refine_eq, map_eq_pure_bind, bind_assoc, pure_bind]

end

/-! ## Recorded calls -/

/-- A computation that may fault and keeps a list of the calls that it makes. -/
abbrev Recorded := ExceptT Fault (StateM (List Float))

namespace Recorded

variable {α β : Type} (calls : List Float)

/-- What becomes of a computation, and all calls, those made before it included. -/
def runAfter (calls : List Float) (computation : Recorded α) : Except Fault α × List Float :=
  computation.run calls

/-- Without a computation no call is added. -/
@[simp] theorem runAfter_pure (value : α) :
    runAfter calls (pure value : Recorded α) = (.ok value, calls) :=
  rfl

/-- An outcome that is given makes no call. -/
@[simp] theorem runAfter_ofExcept (outcome : Except Fault α) :
    runAfter calls (ofExcept outcome : Recorded α) = (outcome, calls) := by
  cases outcome <;> rfl

/-- A fault ends a sequence, and the calls up to it remain. -/
theorem runAfter_bind (first : Recorded α) (next : α → Recorded β) :
    runAfter calls (first >>= next) =
      match runAfter calls first with
      | (.error fault, later) => (.error fault, later)
      | (.ok value, later) => runAfter later (next value) := by
  show (ExceptT.run first calls >>= fun result => ExceptT.bindCont next result.1 result.2) = _
  unfold runAfter
  generalize ExceptT.run first calls = result
  obtain ⟨outcome, later⟩ := result
  cases outcome <;> rfl

/-- A computation has this outcome, whatever calls were made before it. -/
def Transparent (computation : Recorded α) (outcome : Except Fault α) : Prop :=
  ∀ calls, (runAfter calls computation).1 = outcome

namespace Transparent

/-- A value is what it is, whatever was called before. -/
theorem pure (value : α) : Transparent (Pure.pure value) (.ok value) :=
  fun _ => rfl

/-- An outcome that is given is what it is, whatever was called before. -/
theorem ofExcept (outcome : Except Fault α) :
    Transparent (MonadExcept.ofExcept outcome) (MonadExcept.ofExcept outcome) := fun calls => by
  rw [runAfter_ofExcept]
  cases outcome <;> rfl

/-- Computations whose outcomes do not depend on earlier calls may be put in sequence. -/
theorem bind {first : Recorded α} {outcome : Except Fault α} {next : α → Recorded β}
    {further : α → Except Fault β} (begins : Transparent first outcome)
    (goesOn : ∀ value, Transparent (next value) (further value)) :
    Transparent (first >>= next) (outcome >>= further) := by
  intro calls
  rw [runAfter_bind, ← begins calls]
  obtain ⟨result, later⟩ := runAfter calls first
  cases result with
  | error fault => rfl
  | ok value => exact goesOn value later

end Transparent

end Recorded

open Recorded

/-- The function with its calls recorded. -/
def recorded (function : Float → Except Fault Float) (x : Float) : Recorded Float := do
  modify (· ++ [x])
  ofExcept (function x)

variable (function : Float → Except Fault Float)

/-- The calls on a sequence of abscissas: all of them, or those up to the first that faults. -/
def attempted : List Float → List Float
  | [] => []
  | x :: rest =>
      match function x with
      | .ok _ => x :: attempted rest
      | .error _ => [x]

/-- The value of the function, where it has one. -/
def ordinate (x : Float) : Float :=
  match function x with
  | .ok value => value
  | .error _ => 0

/-- The function has a value at an abscissa. -/
def Answers (x : Float) : Prop :=
  function x = .ok (ordinate function x)

/-- The last call faults, and no call before it does. -/
def FaultsLast (calls : List Float) (fault : Fault) : Prop :=
  ∃ before x, calls = before ++ [x] ∧ function x = .error fault ∧
    ∀ earlier ∈ before, Answers function earlier

variable {function}

/-- Recording adds one call and changes nothing in the answer. -/
theorem runAfter_recorded (calls : List Float) (x : Float) :
    runAfter calls (recorded function x) = (function x, calls ++ [x]) := by
  cases answered : function x <;> simp only [recorded, answered] <;> rfl

/-- A sequence of recorded calls has the answers of the function, and the calls are those that
it attempts. -/
theorem runAfter_mapM_recorded (calls xs : List Float) :
    runAfter calls (xs.mapM (recorded function)) =
      (xs.mapM function, calls ++ attempted function xs) := by
  induction xs generalizing calls with
  | nil =>
      rw [attempted, List.append_nil]
      rfl
  | cons x rest inductionHypothesis =>
      rw [List.mapM_cons, List.mapM_cons, runAfter_bind, runAfter_recorded, attempted]
      cases answered : function x with
      | error fault => rfl
      | ok y =>
          show runAfter (calls ++ [x]) _ = _
          rw [runAfter_bind, inductionHypothesis]
          rw [List.append_assoc, List.singleton_append]
          cases rest.mapM function with
          | error fault => rfl
          | ok ys => rfl

/-- The function has values on all abscissas of a sequence, or there is a first fault. -/
theorem attempted_cases (function : Float → Except Fault Float) (xs : List Float) :
    ((∀ x ∈ xs, Answers function x) ∧ xs.mapM function = .ok (xs.map (ordinate function)) ∧
        attempted function xs = xs) ∨
      ∃ fault, xs.mapM function = .error fault ∧
        FaultsLast function (attempted function xs) fault := by
  induction xs with
  | nil => exact .inl ⟨by simp, rfl, rfl⟩
  | cons x rest inductionHypothesis =>
      rw [List.mapM_cons, attempted]
      cases answered : function x with
      | error fault =>
          exact .inr ⟨fault, rfl, [], x, rfl, answered, by simp⟩
      | ok y =>
          have here : Answers function x := by simp [Answers, ordinate, answered]
          rcases inductionHypothesis with
            ⟨answers, values, all⟩ | ⟨fault, faults, before, last, split, blamed, earlier⟩
          · refine .inl ⟨List.forall_mem_cons.mpr ⟨here, answers⟩, ?_, by rw [all]⟩
            simp [values, ordinate, answered, bind, Except.bind, pure, Except.pure]
          · refine .inr ⟨fault, by simp [faults, bind, Except.bind], x :: before, last, ?_, blamed,
              List.forall_mem_cons.mpr ⟨here, earlier⟩⟩
            rw [split, List.cons_append]

/-! ## The calls of a plot -/

/-- The line plot of a function, and the calls of the function that it takes. -/
def recordedPlot (options : PlotOptions) (function : Float → Except Fault Float)
    (lower upper : Float) : Except Fault (List Glyph) × List Float :=
  runAfter [] (glyphs options (recorded function) lower upper)

/-- Whether calls are recorded makes no difference to what is drawn. -/
theorem recordedPlot_fst {options : PlotOptions} {lower upper : Float} :
    (recordedPlot options function lower upper).1 = glyphs options function lower upper := by
  suffices same : Transparent (glyphs options (recorded function) lower upper)
      (glyphs options function lower upper) from same []
  rw [glyphs_eq, glyphs_eq]
  have answers (xs : List Float) :
      Transparent (xs.mapM (recorded function)) (xs.mapM function) := fun calls => by
    rw [runAfter_mapM_recorded]
  refine .bind (.ofExcept _) fun _ => .bind (answers _) fun _ => ?_
  exact .bind (.ofExcept _) fun _ => .bind (answers _) fun _ => .bind (.ofExcept _) fun _ =>
    .pure _

/-- The samples of a function on the grid. -/
def samples (function : Float → Except Fault Float) (lower upper : Float) : List Position :=
  (grid lower upper).map fun x => ⟨x, ordinate function x⟩

/-- All samples of a function, with those at the midpoints next to bends. -/
def refined (function : Float → Except Fault Float) (lower upper : Float) : List Position :=
  insertMiddles (samples function lower upper)
    ((middles (samples function lower upper)).map (ordinate function))

variable {lower upper : Float}

/-- Data are accepted, or some point of them is not finite. -/
theorem checkFinite_cases (form : String) (points : List Position) :
    checkFinite form points = .ok () ∨
      checkFinite form points = .error (.outsideDomain form .unplottable) ∧
        ∃ point ∈ points, point.isFinite = false := by
  unfold checkFinite
  cases finite : points.all Position.isFinite with
  | true => exact .inl rfl
  | false => exact .inr ⟨rfl, by simpa using finite⟩

/-- A plot is drawn of the refined samples and takes one call for each of them, or some sample
is not finite, or the function faults and is not called again. -/
theorem recordedPlot_cases (options : PlotOptions) (function : Float → Except Fault Float)
    (ordered : lower < upper) :
    (∃ fault calls, recordedPlot options function lower upper = (.error fault, calls) ∧
      FaultsLast function calls fault) ∨
      (∀ x ∈ (recordedPlot options function lower upper).2, Answers function x) ∧
        ((recordedPlot options function lower upper).1 =
              .error (.outsideDomain form .unplottable) ∧
            (∃ point ∈ samples function lower upper ++ refined function lower upper,
              point.isFinite = false) ∨
          recordedPlot options function lower upper =
            (.ok ((Frame.fit (refined function lower upper)).decorations options ++
                curve (Frame.fit (refined function lower upper)) (refined function lower upper)),
              grid lower upper ++ middles (samples function lower upper))) := by
  have sampled : List.zipWith Position.mk (grid lower upper)
      ((grid lower upper).map (ordinate function)) = samples function lower upper := by
    rw [samples, List.zipWith_map_right, List.zipWith_self]
  have run : recordedPlot options function lower upper =
      runAfter [] (glyphs options (recorded function) lower upper) := rfl
  rw [glyphs_eq, decide_eq_true ordered, check_true, runAfter_bind, runAfter_ofExcept] at run
  simp only [runAfter_bind, runAfter_mapM_recorded, List.nil_append] at run
  -- From here on the plot is followed in its order: the grid, the check of the samples, the
  -- midpoints, the check of all vertices. What fails there ends it, and `run` says after which
  -- calls.
  rcases attempted_cases function (grid lower upper) with
    ⟨onGrid, values, all⟩ | ⟨fault, faults, last⟩
  case inr =>
    rw [faults] at run
    exact .inl ⟨fault, _, run, last⟩
  rw [values, all] at run
  simp only [runAfter_ofExcept, sampled] at run
  rcases checkFinite_cases form (samples function lower upper) with
    accepted | ⟨refused, point, member, infinite⟩
  case inr =>
    rw [refused] at run
    rw [run]
    exact .inr ⟨onGrid, .inl ⟨rfl, point, List.mem_append_left _ member, infinite⟩⟩
  rw [accepted] at run
  rcases attempted_cases function (middles (samples function lower upper)) with
    ⟨onMiddles, values, all⟩ | ⟨fault, faults, before, last, split, blamed, earlier⟩
  case inr =>
    rw [faults] at run
    refine .inl ⟨fault, _, run, grid lower upper ++ before, last, ?_, blamed, ?_⟩
    · rw [split, List.append_assoc]
    · exact List.forall_mem_append.mpr ⟨onGrid, earlier⟩
  rw [values, all] at run
  have everywhere := List.forall_mem_append.mpr ⟨onGrid, onMiddles⟩
  rcases checkFinite_cases form (refined function lower upper) with
    accepted | ⟨refused, point, member, infinite⟩
  · rw [refined] at accepted
    simp only [accepted, runAfter_pure] at run
    rw [run]
    exact .inr ⟨everywhere, .inr rfl⟩
  · rw [refined] at refused
    simp only [refused] at run
    rw [run]
    exact .inr ⟨everywhere, .inl ⟨rfl, point, List.mem_append_right _ member, infinite⟩⟩

end PlotLisp.ContinuousPlot
