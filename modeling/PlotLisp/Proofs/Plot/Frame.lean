import PlotLisp.Plot.Frame
import PlotLisp.Proofs.Number.Order

/-!
# The range of a frame

The frame of finite data has their least and greatest coordinates as its bounds: each bound is a
coordinate of some point, and no point lies beyond it.
-/

namespace PlotLisp

open Number (value)

/-- The bounds of a frame are the extreme coordinates of some finite data. -/
structure Frame.Spans (frame : Frame) (points : List Position) : Prop where
  finite : ∀ point ∈ points, point.isFinite = true
  xMin : (∃ point ∈ points, point.x = frame.xMin) ∧ ∀ point ∈ points, frame.xMin ≤ point.x
  xMax : (∃ point ∈ points, point.x = frame.xMax) ∧ ∀ point ∈ points, point.x ≤ frame.xMax
  yMin : (∃ point ∈ points, point.y = frame.yMin) ∧ ∀ point ∈ points, frame.yMin ≤ point.y
  yMax : (∃ point ∈ points, point.y = frame.yMax) ∧ ∀ point ∈ points, point.y ≤ frame.yMax

namespace Position

variable {point : Position}

/-- A position is finite if both coordinates are. -/
theorem isFinite_iff :
    point.isFinite = true ↔ point.x.isFinite = true ∧ point.y.isFinite = true := by
  rw [isFinite, Bool.and_eq_true]

end Position

namespace Frame

variable {points : List Position}

/-- The least coordinate of some points, as a frame finds it. -/
theorem least_coordinate (coordinate : Position → Float) (nonempty : points ≠ [])
    (finite : ∀ point ∈ points, (coordinate point).isFinite = true) {least : Float}
    (found : points.foldl (fun least point => Number.least least (coordinate point))
      Number.infinity = least) :
    (∃ point ∈ points, coordinate point = least) ∧ ∀ point ∈ points, least ≤ coordinate point := by
  rw [← List.foldl_map] at found
  obtain ⟨member, smallest⟩ := Number.foldl_least (points.map coordinate)
    (by simpa using nonempty) (by simpa using finite)
  rw [found] at member smallest
  obtain ⟨attained, among, same⟩ := List.mem_map.mp member
  refine ⟨⟨attained, among, same⟩, fun point other => ?_⟩
  rw [Number.le_iff_value (same ▸ finite attained among) (finite point other)]
  exact smallest _ (List.mem_map_of_mem other)

/-- The greatest coordinate of some points, as a frame finds it. -/
theorem greatest_coordinate (coordinate : Position → Float) (nonempty : points ≠ [])
    (finite : ∀ point ∈ points, (coordinate point).isFinite = true) {greatest : Float}
    (found : points.foldl (fun greatest point => Number.greatest greatest (coordinate point))
      (-Number.infinity) = greatest) :
    (∃ point ∈ points, coordinate point = greatest) ∧
      ∀ point ∈ points, coordinate point ≤ greatest := by
  rw [← List.foldl_map] at found
  obtain ⟨member, largest⟩ := Number.foldl_greatest (points.map coordinate)
    (by simpa using nonempty) (by simpa using finite)
  rw [found] at member largest
  obtain ⟨attained, among, same⟩ := List.mem_map.mp member
  refine ⟨⟨attained, among, same⟩, fun point other => ?_⟩
  rw [Number.le_iff_value (finite point other) (same ▸ finite attained among)]
  exact largest _ (List.mem_map_of_mem other)

/-- A frame is fitted to the extreme coordinates of the data. -/
theorem spans_fit (nonempty : points ≠ []) (finite : ∀ point ∈ points, point.isFinite = true) :
    (fit points).Spans points where
  finite := finite
  xMin := least_coordinate Position.x nonempty
    (fun point member => (Position.isFinite_iff.mp (finite point member)).1) rfl
  xMax := greatest_coordinate Position.x nonempty
    (fun point member => (Position.isFinite_iff.mp (finite point member)).1) rfl
  yMin := least_coordinate Position.y nonempty
    (fun point member => (Position.isFinite_iff.mp (finite point member)).2) rfl
  yMax := greatest_coordinate Position.y nonempty
    (fun point member => (Position.isFinite_iff.mp (finite point member)).2) rfl

end Frame

end PlotLisp
